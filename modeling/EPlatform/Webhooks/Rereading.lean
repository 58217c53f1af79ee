import EPlatform.Formats.JsonSound
import EPlatform.Webhooks.FailClosed
import EPlatform.Runs.Run

/-!
# What the workers read again

A receiver stores the document it has read as `jsonb`, and the worker writes what `jsonb` gives back as text again for its
provider to parse. With the reader and the writer of the standard library the worker reads, field by field, what was verified
as `jsonb` keeps it, whatever was delivered.
-/

namespace EPlatform.Webhooks.Rereading

open Runs Formats.JsonText FailClosed

/-! ### Documents and values -/

abbrev JsonDocument := Document (Option ℚ)

mutual

/-- A tuple is written as a list. -/
def toDocument : PyValue → JsonDocument
  | .none => .null
  | .bool value => .bool value
  | .int value => .int value
  | .float value => .float value
  | .str text => .str text
  | .list items => .list (toDocuments items)
  | .tuple items => .list (toDocuments items)
  | .dict fields => .dict (toFields fields)

def toDocuments : List PyValue → List JsonDocument
  | [] => []
  | item :: items => toDocument item :: toDocuments items

def toFields : List (PyString × PyValue) → List (Text × JsonDocument)
  | [] => []
  | (key, item) :: fields => (key, toDocument item) :: toFields fields

end

mutual

def ofDocument : JsonDocument → PyValue
  | .null => .none
  | .bool value => .bool value
  | .int value => .int value
  | .float value => .float value
  | .str text => .str text
  | .list items => .list (ofDocuments items)
  | .dict fields => .dict (ofFields fields)

def ofDocuments : List JsonDocument → List PyValue
  | [] => []
  | item :: items => ofDocument item :: ofDocuments items

def ofFields : List (Text × JsonDocument) → List (PyString × PyValue)
  | [] => []
  | (key, item) :: fields => (key, ofDocument item) :: ofFields fields

end

mutual

theorem toDocument_ofDocument : (document : JsonDocument) → toDocument (ofDocument document) = document
  | .null | .bool _ | .int _ | .float _ | .str _ => rfl
  | .list items => congrArg Document.list (toDocuments_ofDocuments items)
  | .dict fields => congrArg Document.dict (toFields_ofFields fields)

theorem toDocuments_ofDocuments : (items : List JsonDocument) → toDocuments (ofDocuments items) = items
  | [] => rfl
  | item :: items => by rw [ofDocuments, toDocuments, toDocument_ofDocument item, toDocuments_ofDocuments items]

theorem toFields_ofFields : (fields : List (Text × JsonDocument)) → toFields (ofFields fields) = fields
  | [] => rfl
  | (key, item) :: fields => by rw [ofFields, toFields, toDocument_ofDocument item, toFields_ofFields fields]

end

/-! ### Bytes -/

/-- `text.encode()` of a text that is ASCII. -/
def encode (text : Text) : List UInt8 := text.map fun c => UInt8.ofNat c.val

/-- The JSON of the standard library, with how it spells floats, how deep it goes, and how it decodes bytes. -/
structure Codec where
  floats : FloatText (Option ℚ)
  limit : Nat
  decode : List UInt8 → Option Text

namespace Codec

variable (codec : Codec)

/-- `json.loads(content)`. -/
def loads (content : List UInt8) : Except LoadsError PyValue :=
  match codec.decode content with
  | none => .error .valueError
  | some text =>
    match read codec.floats codec.limit text with
    | .ok document => .ok (ofDocument document)
    | .error .invalid => .error .valueError
    | .error .tooDeep => .error .recursionError

def python (storing : Storing) : Python := { storing with loads := codec.loads }

/-- `json.dumps(value).encode()`, which raises a `ValueError` or a `RecursionError`. -/
def dumps (value : PyValue) : Except PyException (List UInt8) :=
  match Formats.JsonText.dumps codec.floats codec.limit (toDocument value) with
  | some text => .ok (encode text)
  | none => .error (if fits (toDocument value) then .recursionError else .valueError)

/-- What is known of it: ASCII is decoded as it is, and a finite float that was read is spelt so that it is read again. -/
structure IsFaithful : Prop where
  decode_encode : ∀ text, Printable text → codec.decode (encode text) = some text
  spells : ∀ word value, codec.floats.parse word = some value → codec.floats.Spells (some value)
  printable : ∀ value, Printable (codec.floats.repr value)

end Codec

/-! ### Columns -/

/-- The text of a string without NUL and without surrogates. -/
def decode (text : PyString) : Option String :=
  if text.all fun c => c.val ≠ 0 ∧ Nat.isValidChar c.val then some (.ofList (text.map fun c => Char.ofNat c.val)) else none

/-- What is known of `jsonb`. What it gives back of a document that was read can be written and read again, no deeper than it
was; it goes into lists and fields, and leaves texts without surrogates, integers and null as they are. -/
structure IsJsonb (codec : Codec) (storing : Storing) : Prop where
  readable : ∀ document, IsRead codec.floats document → Formats.JsonText.nesting document ≤ codec.limit →
    storing.takes (ofDocument document) = true → ∃ stored, storing.normal (ofDocument document) = ofDocument stored ∧
      IsReadable codec.floats stored ∧ Formats.JsonText.nesting stored ≤ codec.limit
  field : ∀ value key, IsAscii key → field (storing.normal value) key = (field value key).map storing.normal
  list : ∀ items, storing.normal (.list items) = .list (items.map storing.normal)
  tuple : ∀ items, storing.normal (.tuple items) = .list (items.map storing.normal)
  noFields : storing.normal (.dict []) = .dict []
  text : ∀ text, (decode text).isSome → storing.normal (.str text) = .str text
  int : ∀ value, storing.normal (.int value) = .int value
  null : storing.normal .none = .none

variable {codec : Codec} {storing : Storing}

/-! ### What `jsonb` gives back is parsed as what it was given -/

section Normal

variable {value item : PyValue} {key : String}

theorem getD_map {α β : Type} {f : α → β} {a : α} {b : β} (h : f a = b) (x : Option α) : (x.map f).getD b = f (x.getD a) := by
  cases x with
  | none => exact h.symm
  | some x => rfl

namespace IsJsonb

theorem index (h : IsJsonb codec storing) (hkey : IsAscii key) (hitem : value.index key = .ok item) :
    (storing.normal value).index key = .ok (storing.normal item) := by
  rw [index_eq_ok] at hitem ⊢
  rw [h.field value key hkey, hitem, Option.map_some]

theorem parseVideo_normal (h : IsJsonb codec storing) {event : VideoBody} (hparse : parseVideo value = .ok event) :
    parseVideo (storing.normal value) = .ok (event.map storing.normal) := by
  simp only [parseVideo, bind_eq_ok, pure_eq_ok] at hparse ⊢
  obtain ⟨eventId, hid, eventType, htype, assetId, hasset, status, hstatus, rfl⟩ := hparse
  refine ⟨_, h.index (by decide) hid, _, h.index (by decide) htype, _, h.index (by decide) hasset, _,
    h.index (by decide) hstatus, ?_⟩
  rw [h.field value "duration_seconds" (by decide), getD_map h.null]
  rfl

theorem parseSegment_normal (h : IsJsonb codec storing) {cue : SegmentBody} (hparse : parseSegment value = .ok cue) :
    parseSegment (storing.normal value) = .ok (cue.map storing.normal) := by
  simp only [parseSegment, bind_eq_ok, pure_eq_ok] at hparse ⊢
  obtain ⟨position, hposition, startMs, hstart, endMs, hend, text, htext, rfl⟩ := hparse
  exact ⟨_, h.index (by decide) hposition, _, h.index (by decide) hstart, _, h.index (by decide) hend, _,
    h.index (by decide) htext, rfl⟩

theorem parseSegments_normal (h : IsJsonb codec storing) {items : List PyValue} {cues : List SegmentBody}
    (hparse : items.mapM parseSegment = .ok cues) :
    (items.map storing.normal).mapM parseSegment = .ok (cues.map (·.map storing.normal)) := by
  rw [mapM_eq_ok] at hparse ⊢
  induction items generalizing cues with
  | nil =>
    obtain rfl := List.map_eq_nil_iff.mp hparse.symm
    rfl
  | cons item items ih =>
    obtain ⟨cue, cues, rfl, hcue, hcues⟩ := List.map_eq_cons_iff.mp hparse.symm
    simp only [List.map_cons, h.parseSegment_normal hcue.symm, ih hcues.symm]

/-- Only a list holds cues: a text or an object that is parsed as some is empty. -/
theorem iterate_normal (h : IsJsonb codec storing) {items : List PyValue} {cues : List SegmentBody}
    (hiterate : value.iterate = .ok items) (hparse : items.mapM parseSegment = .ok cues) :
    (storing.normal value).iterate = .ok (items.map storing.normal) := by
  have hnotext : ∀ {rest : List PyValue} {c : PyString}, (PyValue.str c :: rest).mapM parseSegment ≠ .ok cues := by
    intro rest c htext
    rw [List.mapM_cons] at htext
    obtain ⟨cue, hcue, -⟩ := bind_eq_ok.mp htext
    cases hcue
  cases value with
  | list values =>
    cases hiterate
    rw [h.list]
    rfl
  | tuple values =>
    cases hiterate
    rw [h.tuple]
    rfl
  | str text =>
    cases hiterate
    cases text with
    | nil =>
      rw [h.text [] rfl]
      rfl
    | cons c text => exact absurd hparse hnotext
  | dict fields =>
    cases hiterate
    cases fields with
    | nil =>
      rw [h.noFields]
      rfl
    | cons field fields => exact absurd hparse hnotext
  | none | bool | int | float => cases hiterate

theorem parseTranscription_normal (h : IsJsonb codec storing) {result : TranscriptionBody}
    (hparse : parseTranscription value = .ok result) :
    parseTranscription (storing.normal value) = .ok (result.map storing.normal) := by
  simp only [parseTranscription, bind_eq_ok, pure_eq_ok] at hparse ⊢
  obtain ⟨jobId, hid, status, hstatus, items, hiterate, cues, hcues, rfl⟩ := hparse
  have hitems : (segmentsOf (storing.normal value)).iterate = .ok (items.map storing.normal) := by
    rw [segmentsOf, h.field value "segments" (by decide)]
    rw [segmentsOf] at hiterate
    cases hsegments : Webhooks.field value "segments" with
    | none =>
      rw [hsegments] at hiterate
      cases hiterate
      rfl
    | some segments =>
      rw [hsegments] at hiterate
      exact h.iterate_normal hiterate hcues
  refine ⟨_, h.index (by decide) hid, _, h.index (by decide) hstatus, _, hitems, _, h.parseSegments_normal hcues, ?_⟩
  rw [h.field value "confidence" (by decide), getD_map h.null]
  rfl

end IsJsonb

end Normal

theorem python_loads (codec : Codec) (storing : Storing) (content : List UInt8) :
    (codec.python storing).loads content = codec.loads content := rfl

theorem loads_write (h : codec.IsFaithful) {document : JsonDocument} (hreadable : IsReadable codec.floats document)
    (hnesting : Formats.JsonText.nesting document ≤ codec.limit) :
    codec.loads (encode (write codec.floats document)) = .ok (ofDocument document) := by
  rw [Codec.loads, h.decode_encode _ (printable_write h.printable document)]
  simp only [read_write hreadable hnesting]

/-- What was read and stored is written, and read as what it was. -/
theorem loads_dumps (h : codec.IsFaithful) {document : JsonDocument} (hreadable : IsReadable codec.floats document)
    (hnesting : Formats.JsonText.nesting document ≤ codec.limit) :
    ∃ content, codec.dumps (ofDocument document) = .ok content ∧ codec.loads content = .ok (ofDocument document) := by
  refine ⟨encode (write codec.floats document), ?_, loads_write h hreadable hnesting⟩
  rw [Codec.dumps, toDocument_ofDocument, dumps_of_isReadable hreadable hnesting]

theorem exists_document_of_loads {content : List UInt8} {value : PyValue} (h : codec.loads content = .ok value) :
    ∃ document, value = ofDocument document ∧ IsRead codec.floats document ∧
      Formats.JsonText.nesting document ≤ codec.limit := by
  rw [Codec.loads] at h
  split at h
  · cases h
  · split at h
    · rename_i document hread
      cases h
      exact ⟨document, rfl, isRead_read hread⟩
    · cases h
    · cases h

/-! ### Receiving, and reading again -/

section Endpoint

variable (codec storing) (endpoint : Endpoint)

/-- What a task begins with: `provider.parse_webhook(payload=json.dumps(record.payload).encode())`. -/
def reread (record : WebhookEvent PyValue) : Except PyException endpoint.Body := do
  let payload ← codec.dumps record.payload
  endpoint.parseWebhook (codec.python storing) payload

/-- The record holds what a signed delivery was parsed as: its task reads it again, as `jsonb` keeps it. -/
def Carries (kept : endpoint.Body → endpoint.Body) (delivery : Delivery) (record : WebhookEvent PyValue) : Prop :=
  Signed endpoint delivery ∧ ∃ body, endpoint.parseWebhook (codec.python storing) delivery.content = .ok body ∧
    reread codec storing endpoint record = .ok (kept body)

end Endpoint

variable {endpoint : Endpoint} {newPk : Uuid} {delivery : Delivery} {s s' : State} {status : Nat}

theorem insert_eq_ok {pk : Uuid} {provider : String} {eventId eventType payload : PyValue}
    {events events' : List (WebhookEvent PyValue)}
    (h : storing.insert pk provider eventId eventType payload events = .ok events') :
    storing.takes payload = true ∧
      ∃ record, events' = events ++ [record] ∧ record.pk = pk ∧ record.payload = storing.normal payload := by
  simp only [Storing.insert, bind_eq_ok, require_eq_ok] at h
  obtain ⟨id, -, type, -, -, hpayload, hinsert⟩ := h
  refine ⟨hpayload, ?_⟩
  unfold Storing.insertRow at hinsert
  split at hinsert
  · rename_i id type
    split at hinsert
    · rename_i created hcreate
      cases hinsert
      obtain ⟨-, -, rfl⟩ := create_ok.mp hcreate
      exact ⟨_, rfl, rfl, rfl⟩
    · cases hinsert
    · cases hinsert
  · cases hinsert

theorem signed_of_verifyWebhook {u : Unit} (h : endpoint.verifyWebhook delivery.content delivery.signature = .ok u) :
    Signed endpoint delivery := by
  simp only [Endpoint.verifyWebhook, compareDigest, bind_eq_ok, require_eq_ok, pure_eq_ok] at h
  obtain ⟨same, ⟨-, -, hsame⟩, htrue⟩ := h
  rw [htrue] at hsame
  show delivery.signature = _
  exact of_decide_eq_true hsame.symm

/-- A receiver that changes anything has recorded what a signed delivery was parsed as, and queued its task. -/
theorem post_changes {python : Python} (h : endpoint.post python newPk delivery s = .ok (status, s')) : s' = s ∨
    Signed endpoint delivery ∧ ∃ body eventId eventType payload events,
      endpoint.parseWebhook python delivery.content = .ok body ∧
      endpoint.arguments body = .ok (eventId, eventType, payload) ∧
      python.insert newPk endpoint.provider eventId eventType payload s.events = .ok events ∧
      s' = { events, queue := s.queue ++ [(endpoint.task, newPk)] } := by
  rw [Endpoint.post] at h
  obtain ⟨content, hcontent, h⟩ := bind_eq_ok.mp h
  have hbody : content = delivery.content := by
    rw [requestBody] at hcontent
    obtain ⟨-, -, hreturn⟩ := bind_eq_ok.mp hcontent
    exact pure_eq_ok.mp hreturn
  subst hbody
  split at h
  · cases h
    exact .inl rfl
  · cases h
  · rename_i hverify
    split at h
    · cases h
      exact .inl rfl
    · cases h
      exact .inl rfl
    · cases h
    · rename_i body hparse
      split at h
      · cases h
        exact .inl rfl
      · cases h
      · rename_i events hrecord
        cases h
        obtain ⟨⟨eventId, eventType, payload⟩, harguments, hinsert⟩ := bind_eq_ok.mp hrecord
        exact .inr ⟨signed_of_verifyWebhook hverify, body, eventId, eventType, payload, events, hparse, harguments, hinsert, rfl⟩

/-- The parser reads of what `jsonb` gives back what it read of the document, as `jsonb` keeps it. -/
def Keeps (storing : Storing) (endpoint : Endpoint) (kept : endpoint.Body → endpoint.Body) : Prop :=
  ∀ value body, endpoint.parse value = .ok body → endpoint.parse (storing.normal value) = .ok (kept body)

theorem reread_of_normal (h : codec.IsFaithful) (hjsonb : IsJsonb codec storing) {document : JsonDocument}
    (hread : IsRead codec.floats document) (hnesting : Formats.JsonText.nesting document ≤ codec.limit)
    (htakes : storing.takes (ofDocument document) = true) {kept : endpoint.Body → endpoint.Body}
    (hkeeps : Keeps storing endpoint kept) {body : endpoint.Body} (hbody : endpoint.parse (ofDocument document) = .ok body)
    {record : WebhookEvent PyValue} (hrecord : record.payload = storing.normal (ofDocument document)) :
    reread codec storing endpoint record = .ok (kept body) := by
  obtain ⟨stored, hstored, hreadable, hdeep⟩ := hjsonb.readable document hread hnesting htakes
  obtain ⟨content, hdumps, hagain⟩ := loads_dumps h hreadable hdeep
  rw [reread, hrecord, hstored, hdumps]
  show endpoint.parseWebhook (codec.python storing) content = _
  rw [parseWebhook_of_loads ((python_loads codec storing content).trans hagain), ← hstored]
  exact hkeeps _ _ hbody

theorem carries_of_post (h : codec.IsFaithful) (hjsonb : IsJsonb codec storing) (shape : Shape endpoint)
    {kept : endpoint.Body → endpoint.Body} (hkeeps : Keeps storing endpoint kept)
    (hpost : endpoint.post (codec.python storing) newPk delivery s = .ok (status, s')) : s' = s ∨
    ∃ record, s'.events = s.events ++ [record] ∧ s'.queue = s.queue ++ [(endpoint.task, record.pk)] ∧
      Carries codec storing endpoint kept delivery record := by
  obtain hsame | ⟨hsigned, body, eventId, eventType, payload, events, hparse, harguments, hinsert, rfl⟩ := post_changes hpost
  · exact .inl hsame
  · right
    obtain ⟨value, hloads, hbody⟩ := bind_eq_ok.mp hparse
    have hvalue : codec.loads delivery.content = .ok value := (mapError_eq_ok).mp hloads
    obtain ⟨document, rfl, hread, hnesting⟩ := exists_document_of_loads hvalue
    have hpayload : payload = ofDocument document :=
      ((shape.reads_iff _ body hbody eventId eventType payload).mp harguments).2
    subst hpayload
    obtain ⟨htakes, record, rfl, hpk, hrecord⟩ := insert_eq_ok hinsert
    exact ⟨record, rfl, by rw [hpk], hsigned, body, hparse, reread_of_normal h hjsonb hread hnesting htakes hkeeps hbody hrecord⟩

/-! ### Runs -/

inductive Provider
  | video
  | transcription
  deriving DecidableEq, Repr

/-- The signers of the two providers. -/
structure Signers where
  video : Signer
  transcription : Signer

/-- One request to one of the receivers. -/
structure Post where
  provider : Provider
  newPk : Uuid
  delivery : Delivery

section Receivers

variable (codec storing) (signers : Signers)

def endpointOf : Provider → Endpoint
  | .video => videoWebhookView signers.video
  | .transcription => transcriptionWebhookView (codec.python storing) signers.transcription

def shapeOf : (provider : Provider) → Shape (endpointOf codec storing signers provider)
  | .video => videoShape signers.video
  | .transcription => transcriptionShape (codec.python storing) signers.transcription

/-- What is kept of the values of a body. -/
def keptOf : (provider : Provider) →
    (endpointOf codec storing signers provider).Body → (endpointOf codec storing signers provider).Body
  | .video => VideoBody.map storing.normal
  | .transcription => TranscriptionBody.map storing.normal

/-- A request that raises leaves everything as it was. -/
def step (s : State) (post : Post) : State :=
  match (endpointOf codec storing signers post.provider).post (codec.python storing) post.newPk post.delivery s with
  | .ok (_, s') => s'
  | .error _ => s

/-- A queued task finds its record, and reads of it what one of the deliveries was parsed as, as `jsonb` keeps it. -/
def CanRead (run : List Post) (s : State) (entry : Task × Uuid) : Prop :=
  ∃ post ∈ run, entry.1 = (endpointOf codec storing signers post.provider).task ∧ ∃ record ∈ s.events, record.pk = entry.2 ∧
    Carries codec storing (endpointOf codec storing signers post.provider) (keptOf codec storing signers post.provider)
      post.delivery record

end Receivers

variable {signers : Signers} {run run' : List Post} {entry : Task × Uuid}

theorem CanRead.mono (h : CanRead codec storing signers run s entry) (hrun : run ⊆ run') (hevents : s.events ⊆ s'.events) :
    CanRead codec storing signers run' s' entry := by
  obtain ⟨post, hpost, htask, record, hrecord, hcarries⟩ := h
  exact ⟨post, hrun hpost, htask, record, hevents hrecord, hcarries⟩

theorem keeps_keptOf (hjsonb : IsJsonb codec storing) (signers : Signers) : (provider : Provider) →
    Keeps storing (endpointOf codec storing signers provider) (keptOf codec storing signers provider)
  | .video => fun _ _ hparse => hjsonb.parseVideo_normal hparse
  | .transcription => fun _ _ hparse => hjsonb.parseTranscription_normal hparse

theorem step_carries (h : codec.IsFaithful) (hjsonb : IsJsonb codec storing) (signers : Signers) (s : State) (post : Post) :
    step codec storing signers s post = s ∨
      ∃ record, (step codec storing signers s post).events = s.events ++ [record] ∧
        (step codec storing signers s post).queue =
          s.queue ++ [((endpointOf codec storing signers post.provider).task, record.pk)] ∧
        Carries codec storing (endpointOf codec storing signers post.provider) (keptOf codec storing signers post.provider)
          post.delivery record := by
  rw [step]
  split
  · rename_i status s' hpost
    exact carries_of_post h hjsonb (shapeOf codec storing signers post.provider) (keeps_keptOf hjsonb signers post.provider) hpost
  · exact .inl rfl

/-- Whatever is delivered, in whatever order and however often: each task that was queued finds a record, whose document is
written and parsed without raising, and what comes out is what a signed delivery was parsed as, as `jsonb` keeps it. -/
theorem tasks_read_what_was_signed (h : codec.IsFaithful) (hjsonb : IsJsonb codec storing) (signers : Signers)
    (run : List Post) :
    ∀ entry ∈ (final (step codec storing signers) ⟨[], []⟩ run).queue,
      CanRead codec storing signers run (final (step codec storing signers) ⟨[], []⟩ run) entry := by
  induction run using List.reverseRecOn with
  | nil => exact fun entry hentry => absurd hentry List.not_mem_nil
  | append_singleton run post ih =>
    have hearlier : run ⊆ run ++ [post] := List.subset_append_left run [post]
    intro entry hentry
    rw [final_append, final_cons, final_nil] at hentry ⊢
    obtain hsame | ⟨record, hevents, hqueue, hcarries⟩ :=
      step_carries h hjsonb signers (final (step codec storing signers) ⟨[], []⟩ run) post
    · rw [hsame] at hentry ⊢
      exact (ih entry hentry).mono hearlier (List.Subset.refl _)
    · rw [hqueue] at hentry
      obtain hold | hnew := List.mem_append.mp hentry
      · refine (ih entry hold).mono hearlier ?_
        rw [hevents]
        exact List.subset_append_left _ _
      · rw [List.mem_singleton.mp hnew]
        refine ⟨post, List.mem_append_right _ List.mem_cons_self, rfl, record, ?_, rfl, hcarries⟩
        rw [hevents]
        exact List.mem_append_right _ List.mem_cons_self

/-- A reader of ASCII that has no floats. -/
def asciiCodec : Codec where
  floats := ⟨fun _ => points "NaN", fun _ => none⟩
  limit := 100
  decode content :=
    if (content.all fun byte => byte.toNat < 128) = true then some (content.map fun byte => Fin.ofNat _ byte.toNat) else none

theorem asciiCodec_isFaithful : asciiCodec.IsFaithful where
  decode_encode text htext := by
    have hbyte : ∀ c ∈ text, (UInt8.ofNat c.val).toNat = c.val := by
      intro c hc
      have hc := htext c hc
      exact Nat.mod_eq_of_lt (Nat.lt_of_le_of_lt hc.2 (by decide))
    have hascii : ((encode text).all fun byte => byte.toNat < 128) = true := by
      refine List.all_eq_true.mpr fun byte hmem => decide_eq_true ?_
      obtain ⟨c, hc, rfl⟩ := List.mem_map.mp hmem
      rw [hbyte c hc]
      exact Nat.lt_of_le_of_lt (htext c hc).2 (by decide)
    rw [asciiCodec]
    dsimp only
    rw [if_pos hascii, encode, List.map_map]
    congr 1
    conv_rhs => rw [← List.map_id text]
    refine List.map_congr_left fun c hc => ?_
    rw [Function.comp_apply, hbyte c hc, ofNat_val, id_eq]
  spells := by
    intro word value h
    cases h
  printable := fun _ => printable_points (by decide)

end EPlatform.Webhooks.Rereading
