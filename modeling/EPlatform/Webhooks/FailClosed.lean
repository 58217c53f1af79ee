import EPlatform.Webhooks.Parsing
import EPlatform.Webhooks.Receivers

/-!
# What a receiver answers to anything

`VideoWebhookView.post` and `TranscriptionWebhookView.post` on any body, any signature header and any table of events, with
what each call they make may raise and what they catch.
-/

namespace EPlatform.Webhooks.FailClosed

open Runs

inductive LoadsError
  | valueError
  | recursionError
  deriving DecidableEq, Repr

def LoadsError.raised : LoadsError → PyException
  | .valueError => .valueError
  | .recursionError => .recursionError

/-- `json.loads`, which is any, and how values are stored. -/
structure Python extends Storing where
  loads : List UInt8 → Except LoadsError PyValue

def IsAscii (s : String) : Prop := ∀ c ∈ s.toList, c.toNat < 128

instance : DecidablePred IsAscii := fun s => List.decidableBAll (fun c : Char => c.toNat < 128) s.toList

/-- `hmac.compare_digest`, which takes strings only if they are ASCII. -/
def compareDigest (a b : String) : Except PyException Bool := do
  require (IsAscii a ∧ IsAscii b) .typeError
  return a = b

/-- `sign_webhook` of a provider, which is hexadecimal. -/
structure Signer where
  signWebhook : List UInt8 → String
  ascii : ∀ payload, IsAscii (signWebhook payload)

/-- A receiver: the provider it names in the table, the task it enqueues, its provider's signature, and how a parsed body
becomes the id, the type and the document of a row. -/
structure Endpoint where
  Body : Type
  provider : String
  provider_fits : provider.length ≤ 32
  task : Task
  signer : Signer
  parse : PyValue → Except PyException Body
  arguments : Body → Except PyException (PyValue × PyValue × PyValue)

/-- What is recorded and what was enqueued. -/
structure State where
  events : List (WebhookEvent PyValue)
  queue : List (Task × Uuid)

/-- One delivery: the body, and the signature header if there is one. -/
structure Delivery where
  content : List UInt8
  header : Option String

/-- `request.META.get(SIGNATURE_HEADER, "")`. -/
def Delivery.signature (delivery : Delivery) : String := delivery.header.getD ""

namespace Endpoint

variable (endpoint : Endpoint) (python : Python)

def verifyWebhook (payload : List UInt8) (signature : String) : Except PyException Unit := do
  let same ← compareDigest signature (endpoint.signer.signWebhook payload)
  require (same = true) .webhookSignatureInvalid

def parseWebhook (payload : List UInt8) : Except PyException endpoint.Body := do
  let body ← (python.loads payload).mapError LoadsError.raised
  endpoint.parse body

def record (newPk : Uuid) (body : endpoint.Body) (events : List (WebhookEvent PyValue)) :
    Except PyException (List (WebhookEvent PyValue)) := do
  let (eventId, eventType, payload) ← endpoint.arguments body
  python.insert newPk endpoint.provider eventId eventType payload events

def post (newPk : Uuid) (delivery : Delivery) (s : State) : Except PyException (Nat × State) := do
  let payload ← requestBody delivery.content
  match endpoint.verifyWebhook payload delivery.signature with
  | .error .webhookSignatureInvalid => return (401, s)
  | .error exc => throw exc
  | .ok _ =>
    match endpoint.parseWebhook python payload with
    | .error .keyError => return (400, s)
    | .error .valueError => return (400, s)
    | .error exc => throw exc
    | .ok body =>
      match endpoint.record python newPk body s.events with
      | .error .integrityError => return (200, s)
      | .error exc => throw exc
      | .ok events => return (200, { events, queue := s.queue ++ [(endpoint.task, newPk)] })

end Endpoint

/-! ### The two receivers -/

def videoWebhookView (signer : Signer) : Endpoint where
  Body := VideoBody
  provider := MediaAssets.namespaced "fake"
  provider_fits := by decide
  task := .applyMediaWebhook
  signer := signer
  parse := parseVideo
  arguments := fun event => .ok (event.eventId, event.eventType, event.payload)

def transcriptionWebhookView (python : Python) (signer : Signer) : Endpoint where
  Body := TranscriptionBody
  provider := Transcripts.namespaced "fake"
  provider_fits := by decide
  task := .applyTranscriptionCallback
  signer := signer
  parse := parseTranscription
  arguments := fun result => do
    let eventType ← python.transcriptionType result.status
    return (result.jobId, eventType, result.payload)

/-! ### What a receiver promises -/

/-- Of the values a body may hold: which have the fields the receiver needs, which it reads without raising what it does not
catch, and the id and the type it reads. -/
structure Shape (endpoint : Endpoint) where
  IsComplete : PyValue → Prop
  IsLegible : PyValue → Prop
  Reads : PyValue → PyValue → PyValue → Prop
  isComplete_iff : ∀ value, IsComplete value ↔ ∃ body, endpoint.parse value = .ok body
  isLegible_iff : ∀ value, IsLegible value ↔ Caught (endpoint.parse value)
  reads_iff : ∀ value body, endpoint.parse value = .ok body → ∀ eventId eventType payload,
    endpoint.arguments body = .ok (eventId, eventType, payload) ↔ Reads value eventId eventType ∧ payload = value

variable {endpoint : Endpoint} (python : Python) (shape : Shape endpoint) (newPk : Uuid) (delivery : Delivery) (s : State)

/-- The header is the signature of the body. -/
def Signed (endpoint : Endpoint) (delivery : Delivery) : Prop :=
  delivery.signature = endpoint.signer.signWebhook delivery.content

/-- 401 and nothing written without the signature, 400 and nothing written without the fields, and otherwise 200, with the
event recorded and its task enqueued unless a constraint refuses it. -/
structure FailsClosed (result : Except PyException (Nat × State)) : Prop where
  unsigned : ¬ Signed endpoint delivery → result = .ok (401, s)
  incomplete : Signed endpoint delivery → (∀ value, python.loads delivery.content = .ok value → ¬ shape.IsComplete value) →
    result = .ok (400, s)
  complete : Signed endpoint delivery → ∀ value, python.loads delivery.content = .ok value → shape.IsComplete value →
    ∃ eventId eventType, shape.Reads value eventId eventType ∧
      ((∃ events, python.insert newPk endpoint.provider eventId eventType value s.events = .ok events ∧
          result = .ok (200, { events, queue := s.queue ++ [(endpoint.task, newPk)] })) ∨
        (python.insert newPk endpoint.provider eventId eventType value s.events = .error .integrityError ∧
          result = .ok (200, s)))

/-- The body is not too large and the header is ASCII. If the header is the body's signature, the body is not nested too
deep, what it holds is legible, and if it has the fields that are needed the columns take what is read of them. -/
structure Readable : Prop where
  size : delivery.content.length ≤ DATA_UPLOAD_MAX_MEMORY_SIZE
  ascii : IsAscii delivery.signature
  loads : Signed endpoint delivery → python.loads delivery.content ≠ .error .recursionError
  legible : Signed endpoint delivery → ∀ value, python.loads delivery.content = .ok value → shape.IsLegible value
  fits : Signed endpoint delivery → ∀ value, python.loads delivery.content = .ok value → shape.IsComplete value →
    ∃ eventId eventType, shape.Reads value eventId eventType ∧ python.Fits eventId eventType value

/-! ### What a receiver does -/

variable {python} {shape} {newPk} {delivery} {s}

theorem FailsClosed.returns {result : Except PyException (Nat × State)}
    (h : FailsClosed python shape newPk delivery s result) : ∃ answer, result = .ok answer := by
  by_cases hsigned : Signed endpoint delivery
  · by_cases hcomplete : ∃ value, python.loads delivery.content = .ok value ∧ shape.IsComplete value
    · obtain ⟨value, hvalue, hfields⟩ := hcomplete
      obtain ⟨eventId, eventType, -, ⟨events, -, hresult⟩ | ⟨-, hresult⟩⟩ := h.complete hsigned value hvalue hfields
      · exact ⟨_, hresult⟩
      · exact ⟨_, hresult⟩
    · push Not at hcomplete
      exact ⟨_, h.incomplete hsigned hcomplete⟩
  · exact ⟨_, h.unsigned hsigned⟩

theorem signature_ascii (h : Signed endpoint delivery) : IsAscii delivery.signature :=
  h ▸ endpoint.signer.ascii delivery.content

theorem verifyWebhook_of_not_ascii (h : ¬ IsAscii delivery.signature) :
    endpoint.verifyWebhook delivery.content delivery.signature = .error .typeError := by
  rw [Endpoint.verifyWebhook, compareDigest, require_bind_of_not fun hboth => h hboth.1]
  rfl

theorem verifyWebhook_of_unsigned (hascii : IsAscii delivery.signature) (h : ¬ Signed endpoint delivery) :
    endpoint.verifyWebhook delivery.content delivery.signature = .error .webhookSignatureInvalid := by
  rw [Endpoint.verifyWebhook, compareDigest, require_bind_of ⟨hascii, endpoint.signer.ascii _⟩, pure_bind, require,
    if_neg (by simpa [Signed] using h)]

theorem verifyWebhook_of_signed (h : Signed endpoint delivery) :
    endpoint.verifyWebhook delivery.content delivery.signature = .ok ⟨⟩ := by
  rw [Endpoint.verifyWebhook, compareDigest, require_bind_of ⟨signature_ascii h, endpoint.signer.ascii _⟩, pure_bind,
    require, if_pos (by simpa [Signed] using h)]

theorem post_of_large (h : ¬ delivery.content.length ≤ DATA_UPLOAD_MAX_MEMORY_SIZE) :
    endpoint.post python newPk delivery s = .error .requestDataTooBig := by
  rw [Endpoint.post, requestBody_of_not_le h]
  rfl

section Readable

variable (hsize : delivery.content.length ≤ DATA_UPLOAD_MAX_MEMORY_SIZE)

include hsize

theorem post_of_not_ascii (h : ¬ IsAscii delivery.signature) :
    endpoint.post python newPk delivery s = .error .typeError := by
  rw [Endpoint.post, requestBody_of_le hsize]
  simp only [bind, Except.bind, verifyWebhook_of_not_ascii h]
  rfl

theorem post_of_unsigned (hascii : IsAscii delivery.signature) (h : ¬ Signed endpoint delivery) :
    endpoint.post python newPk delivery s = .ok (401, s) := by
  rw [Endpoint.post, requestBody_of_le hsize]
  simp only [bind, Except.bind, verifyWebhook_of_unsigned hascii h]
  rfl

theorem post_of_signed (h : Signed endpoint delivery) : endpoint.post python newPk delivery s =
    match endpoint.parseWebhook python delivery.content with
    | .error .keyError => .ok (400, s)
    | .error .valueError => .ok (400, s)
    | .error exc => .error exc
    | .ok body =>
      match endpoint.record python newPk body s.events with
      | .error .integrityError => .ok (200, s)
      | .error exc => .error exc
      | .ok events => .ok (200, { events, queue := s.queue ++ [(endpoint.task, newPk)] }) := by
  rw [Endpoint.post, requestBody_of_le hsize]
  simp only [bind, Except.bind, verifyWebhook_of_signed h]
  rfl

end Readable

theorem parseWebhook_of_loads {content : List UInt8} {value : PyValue} (h : python.loads content = .ok value) :
    endpoint.parseWebhook python content = endpoint.parse value := by
  rw [Endpoint.parseWebhook, h]
  rfl

theorem parseWebhook_of_error {content : List UInt8} {e : LoadsError} (h : python.loads content = .error e) :
    endpoint.parseWebhook python content = .error e.raised := by
  rw [Endpoint.parseWebhook, h]
  rfl

/-- A complete body is recorded, or a constraint refuses it. -/
theorem post_of_complete (shape : Shape endpoint) (hsize : delivery.content.length ≤ DATA_UPLOAD_MAX_MEMORY_SIZE)
    (hsigned : Signed endpoint delivery) {value eventId eventType : PyValue}
    (hloads : python.loads delivery.content = .ok value) (hcomplete : shape.IsComplete value)
    (hreads : shape.Reads value eventId eventType) : endpoint.post python newPk delivery s =
      match python.insert newPk endpoint.provider eventId eventType value s.events with
      | .error .integrityError => .ok (200, s)
      | .error exc => .error exc
      | .ok events => .ok (200, { events, queue := s.queue ++ [(endpoint.task, newPk)] }) := by
  obtain ⟨body, hbody⟩ := (shape.isComplete_iff value).mp hcomplete
  have harguments := (shape.reads_iff value body hbody eventId eventType value).mpr ⟨hreads, rfl⟩
  have hrecord : endpoint.record python newPk body s.events =
      python.insert newPk endpoint.provider eventId eventType value s.events := by
    rw [Endpoint.record, harguments]
    rfl
  rw [post_of_signed hsize hsigned, parseWebhook_of_loads hloads, hbody]
  simp only [hrecord]

theorem failsClosed_of_readable (h : Readable python shape delivery) :
    FailsClosed python shape newPk delivery s (endpoint.post python newPk delivery s) := by
  constructor
  · exact fun hunsigned => post_of_unsigned h.size h.ascii hunsigned
  · intro hsigned hincomplete
    rw [post_of_signed h.size hsigned]
    cases hloads : python.loads delivery.content with
    | error e =>
      rw [parseWebhook_of_error hloads]
      cases e with
      | valueError => rfl
      | recursionError => exact absurd hloads (h.loads hsigned)
    | ok value =>
      rw [parseWebhook_of_loads hloads]
      cases hparse : endpoint.parse value with
      | error exc =>
        rcases (shape.isLegible_iff value).mp (h.legible hsigned value hloads) exc hparse with rfl | rfl
        · rfl
        · rfl
      | ok body => exact absurd ((shape.isComplete_iff value).mpr ⟨body, hparse⟩) (hincomplete value hloads)
  · intro hsigned value hloads hcomplete
    obtain ⟨eventId, eventType, hreads, hfits⟩ := h.fits hsigned value hloads hcomplete
    refine ⟨eventId, eventType, hreads, ?_⟩
    rw [post_of_complete shape h.size hsigned hloads hcomplete hreads]
    rcases Storing.insert_of_fits endpoint.provider_fits hfits with ⟨events, hinsert⟩ | hinsert
    · left
      exact ⟨events, hinsert, by rw [hinsert]⟩
    · right
      exact ⟨hinsert, by rw [hinsert]⟩

theorem readable_of_failsClosed
    (h : FailsClosed python shape newPk delivery s (endpoint.post python newPk delivery s)) :
    Readable python shape delivery := by
  obtain ⟨answer, hanswer⟩ := h.returns
  have hsize : delivery.content.length ≤ DATA_UPLOAD_MAX_MEMORY_SIZE := by
    by_contra hlarge
    rw [post_of_large hlarge] at hanswer
    cases hanswer
  refine ⟨hsize, ?_, ?_, ?_, ?_⟩
  · by_contra hascii
    rw [post_of_not_ascii hsize hascii] at hanswer
    cases hanswer
  · intro hsigned hloads
    rw [post_of_signed hsize hsigned, parseWebhook_of_error hloads] at hanswer
    cases hanswer
  · intro hsigned value hloads
    refine (shape.isLegible_iff value).mpr fun exc hparse => ?_
    rw [post_of_signed hsize hsigned, parseWebhook_of_loads hloads, hparse] at hanswer
    cases exc with
    | keyError => exact .inl rfl
    | valueError => exact .inr rfl
    | _ => cases hanswer
  · intro hsigned value hloads hcomplete
    obtain ⟨eventId, eventType, hreads, -⟩ := h.complete hsigned value hloads hcomplete
    refine ⟨eventId, eventType, hreads, ?_⟩
    by_contra hfits
    rw [post_of_complete shape hsize hsigned hloads hcomplete hreads, Storing.insert_of_not_fits hfits] at hanswer
    cases hanswer

theorem failsClosed_iff :
    FailsClosed python shape newPk delivery s (endpoint.post python newPk delivery s) ↔ Readable python shape delivery :=
  ⟨readable_of_failsClosed, failsClosed_of_readable⟩

/-! ### The shapes the two receivers read -/

def videoShape (signer : Signer) : Shape (videoWebhookView signer) where
  IsComplete := Has VIDEO_FIELDS
  IsLegible value := value.fields.isSome
  Reads value eventId eventType := field value "id" = some eventId ∧ field value "type" = some eventType
  isComplete_iff := fun _ => exists_parseVideo.symm
  isLegible_iff := fun _ => caught_parseVideo.symm
  reads_iff := by
    intro value event hevent eventId eventType payload
    obtain ⟨hid, htype, hpayload⟩ := parseVideo_reads hevent
    rw [hid, htype, ← hpayload]
    simp only [videoWebhookView, Except.ok.injEq, Prod.mk.injEq, Option.some.injEq, and_assoc, eq_comm]

/-- The status is a string, and lower case names the type. -/
def transcriptionShape (python : Python) (signer : Signer) : Shape (transcriptionWebhookView python signer) where
  IsComplete value := Has TRANSCRIPTION_FIELDS value ∧
    ∃ items, (segmentsOf value).iterate = .ok items ∧ ∀ segment ∈ items, Has SEGMENT_FIELDS segment
  IsLegible value := value.fields.isSome ∧ (Has TRANSCRIPTION_FIELDS value →
    ∃ items, (segmentsOf value).iterate = .ok items ∧ SegmentsLegible items)
  Reads value eventId eventType := field value "job_id" = some eventId ∧
    ∃ status, field value "status" = some status ∧ python.transcriptionType status = .ok eventType
  isComplete_iff := fun _ => exists_parseTranscription.symm
  isLegible_iff := fun _ => caught_parseTranscription.symm
  reads_iff := by
    intro value result hresult eventId eventType payload
    obtain ⟨hid, hstatus, hpayload⟩ := parseTranscription_reads hresult
    rw [hid, hstatus, ← hpayload]
    simp only [transcriptionWebhookView, bind_eq_ok, pure_eq_ok, Prod.mk.injEq, Option.some.injEq]
    constructor
    · rintro ⟨eventType', htype, rfl, rfl, rfl⟩
      exact ⟨⟨rfl, _, rfl, htype⟩, rfl⟩
    · rintro ⟨⟨rfl, status, rfl, htype⟩, rfl⟩
      exact ⟨eventType, htype, rfl, rfl, rfl⟩

/-- Each receiver fails closed exactly on what it can read. -/
theorem receivers_failClosed_iff (python : Python) (videoSigner transcriptionSigner : Signer) (newPk : Uuid)
    (delivery : Delivery) (s : State) :
    (FailsClosed python (videoShape videoSigner) newPk delivery s
        ((videoWebhookView videoSigner).post python newPk delivery s) ↔
      Readable python (videoShape videoSigner) delivery) ∧
    (FailsClosed python (transcriptionShape python transcriptionSigner) newPk delivery s
        ((transcriptionWebhookView python transcriptionSigner).post python newPk delivery s) ↔
      Readable python (transcriptionShape python transcriptionSigner) delivery) :=
  ⟨failsClosed_iff, failsClosed_iff⟩

/-- Nothing is JSON. -/
def noJson : Python where
  repr := fun _ => []
  lower := id
  varchar := fun _ _ => none
  varchar_length := fun h => by cases h
  takes := fun _ => false
  normal := id
  loads := fun _ => .error .valueError

def zeroSigner : Signer where
  signWebhook := fun _ => "00"
  ascii := fun _ => by decide

/-- A header that is not ASCII raises. -/
theorem accented_signature_raises : ¬ FailsClosed noJson (videoShape zeroSigner) 1 ⟨[], some "é"⟩ ⟨[], []⟩
    ((videoWebhookView zeroSigner).post noJson 1 ⟨[], some "é"⟩ ⟨[], []⟩) := by
  intro hcloses
  exact absurd (readable_of_failsClosed hcloses).ascii (by decide)

end EPlatform.Webhooks.FailClosed
