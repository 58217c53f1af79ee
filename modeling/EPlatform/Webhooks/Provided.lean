import EPlatform.Webhooks.Rereading

/-!
# The events the providers send

`build_webhook` of the two providers: the bytes of an event and their signature. Delivered once or often, an event is recorded
once, and its worker reads what the provider meant.
-/

namespace EPlatform.Webhooks.Provided

open Runs Formats.JsonText FailClosed Rereading Transcripts

/-! ### Ordinary documents -/

mutual

/-- Texts without NUL and without surrogates, and numbers that are finite. -/
def isStorable : JsonDocument → Bool
  | .float value => value.isSome
  | .str text => (decode text).isSome
  | .list items => areStorable items
  | .dict fields => fieldsStorable fields
  | _ => true

def areStorable : List JsonDocument → Bool
  | [] => true
  | item :: items => isStorable item && areStorable items

def fieldsStorable : List (Text × JsonDocument) → Bool
  | [] => true
  | (key, item) :: fields => (decode key).isSome && isStorable item && fieldsStorable fields

end

/-- What is known of the columns. A `varchar` keeps an ordinary text that is no longer than it is, and `jsonb` takes a document
of ordinary texts and finite numbers down to some depth. -/
structure TakesOrdinary (codec : Codec) (storing : Storing) (depth : Nat) : Prop where
  varchar : ∀ maxLength text decoded, decode text = some decoded → decoded.length ≤ maxLength →
    storing.varchar maxLength text = some decoded
  jsonb : ∀ document, IsReadable codec.floats document → isStorable document = true →
    Formats.JsonText.nesting document ≤ depth → storing.takes (ofDocument document) = true

section Ordinary

variable {codec : Codec}

theorem wellPaired_of_decode {text : PyString} (h : (decode text).isSome) : WellPaired text := by
  rw [decode] at h
  split_ifs at h with hall
  · refine wellPaired_of_isValidChar fun c hc => ?_
    exact (of_decide_eq_true (List.all_eq_true.mp hall c hc)).2
  · cases h

mutual

theorem isReadable_of_isStorable (h : codec.IsFaithful) : (document : JsonDocument) → IsRead codec.floats document →
    isStorable document = true → IsReadable codec.floats document
  | .null, _, _ | .bool _, _, _ => trivial
  | .int _, hread, _ => hread
  | .float none, _, hstorable => by cases hstorable
  | .float (some value), hread, _ => by
    obtain ⟨word, hword⟩ := hread
    exact h.spells word value hword
  | .str _, _, hstorable => wellPaired_of_decode hstorable
  | .list items, hread, hstorable => areReadable_of_areStorable h items hread hstorable
  | .dict fields, hread, hstorable => ⟨fieldsReadable_of_fieldsStorable h fields hread.1 hstorable, hread.2⟩

theorem areReadable_of_areStorable (h : codec.IsFaithful) : (items : List JsonDocument) → AreRead codec.floats items →
    areStorable items = true → AreReadable codec.floats items
  | [], _, _ => trivial
  | item :: items, hread, hstorable => by
    obtain ⟨hitem, hitems⟩ := Bool.and_eq_true_iff.mp hstorable
    exact ⟨isReadable_of_isStorable h item hread.1 hitem, areReadable_of_areStorable h items hread.2 hitems⟩

theorem fieldsReadable_of_fieldsStorable (h : codec.IsFaithful) : (fields : List (Text × JsonDocument)) →
    FieldsRead codec.floats fields → fieldsStorable fields = true → FieldsReadable codec.floats fields
  | [], _, _ => trivial
  | (key, item) :: fields, hread, hstorable => by
    obtain ⟨hfirst, hfields⟩ := Bool.and_eq_true_iff.mp hstorable
    obtain ⟨hkey, hitem⟩ := Bool.and_eq_true_iff.mp hfirst
    exact ⟨wellPaired_of_decode hkey, isReadable_of_isStorable h item hread.1 hitem,
      fieldsReadable_of_fieldsStorable h fields hread.2 hfields⟩

end

end Ordinary

/-- Columns that take ordinary texts and documents and nothing else, and keep them as they are. -/
def plainStoring : Storing where
  repr _ := []
  lower := List.map fun c => if 65 ≤ c.val ∧ c.val ≤ 90 then Fin.ofNat _ (c.val + 32) else c
  varchar maxLength text := (decode text).filter (·.length ≤ maxLength)
  varchar_length h := of_decide_eq_true (Option.filter_eq_some_iff.mp h).2
  takes value := isStorable (toDocument value) && decide (Formats.JsonText.nesting (toDocument value) ≤ 100)
  normal value := ofDocument (toDocument value)

theorem get_ofFields_toFields (fields : List (PyString × PyValue)) (key : String) :
    PyValue.get (ofFields (toFields fields)) key = (PyValue.get fields key).map plainStoring.normal := by
  induction fields with
  | nil => rfl
  | cons field fields ih =>
    obtain ⟨name, item⟩ := field
    rw [toFields, ofFields, PyValue.get, PyValue.get, List.find?_cons, List.find?_cons]
    rw [PyValue.get, PyValue.get] at ih
    by_cases hname : name = pyString key
    · rw [decide_eq_true hname]
      rfl
    · rw [decide_eq_false hname]
      exact ih

theorem ofDocuments_toDocuments (items : List PyValue) : ofDocuments (toDocuments items) = items.map plainStoring.normal := by
  induction items with
  | nil => rfl
  | cons item items ih =>
    rw [toDocuments, ofDocuments, List.map_cons, ih]
    rfl

theorem plainStoring_isJsonb {codec : Codec} (h : codec.IsFaithful) : IsJsonb codec plainStoring where
  readable document hread hnesting htakes := by
    obtain ⟨hstorable, -⟩ := Bool.and_eq_true_iff.mp htakes
    rw [toDocument_ofDocument] at hstorable
    refine ⟨document, ?_, isReadable_of_isStorable h document hread hstorable, hnesting⟩
    show ofDocument (toDocument (ofDocument document)) = _
    rw [toDocument_ofDocument]
  field value key _ := by
    cases value with
    | dict fields => exact get_ofFields_toFields fields key
    | _ => rfl
  list items := congrArg PyValue.list (ofDocuments_toDocuments items)
  tuple items := congrArg PyValue.list (ofDocuments_toDocuments items)
  noFields := rfl
  text _ _ := rfl
  int _ := rfl
  null := rfl

theorem plainStoring_takes (codec : Codec) : TakesOrdinary codec plainStoring 100 where
  varchar maxLength text decoded h hlength := Option.filter_eq_some_iff.mpr ⟨h, decide_eq_true hlength⟩
  jsonb document _ hstorable hnesting := by
    refine Bool.and_eq_true_iff.mpr ?_
    rw [toDocument_ofDocument]
    exact ⟨hstorable, decide_eq_true hnesting⟩

theorem TakesOrdinary.mono {codec : Codec} {storing : Storing} {depth more : Nat} (h : TakesOrdinary codec storing more)
    (hdepth : depth ≤ more) : TakesOrdinary codec storing depth :=
  ⟨h.varchar, fun document hreadable hstorable hnesting => h.jsonb document hreadable hstorable (Nat.le_trans hnesting hdepth)⟩

/-! ### Any event -/

section Deliver

variable (codec : Codec) (endpoint : Endpoint) (document : JsonDocument)

/-- `json.dumps(body).encode()`, of a body that can be written. -/
def payload : List UInt8 := encode (write codec.floats document)

/-- What a provider returns and sends. -/
def delivery : Delivery := ⟨payload codec document, some (endpoint.signer.signWebhook (payload codec document))⟩

end Deliver

section Deliveries

variable {codec : Codec} {storing : Storing} {endpoint : Endpoint} {document : JsonDocument} {newPk : Uuid} {s : State}
  {eventId eventType : PyValue} {id type : String}

/-- The record of an event. -/
def recordOf (storing : Storing) (endpoint : Endpoint) (newPk : Uuid) (id type : String) (document : JsonDocument) :
    WebhookEvent PyValue :=
  ⟨newPk, endpoint.provider, id, type, storing.normal (ofDocument document), none⟩

/-- An event that can be written, stored, and read by its receiver, with the values of its two columns. -/
structure Deliverable (codec : Codec) (storing : Storing) (shape : Shape endpoint) (document : JsonDocument) (id type : String) :
    Prop where
  readable : IsReadable codec.floats document
  takes : storing.takes (ofDocument document) = true
  limit : Formats.JsonText.nesting document ≤ codec.limit
  size : (payload codec document).length ≤ DATA_UPLOAD_MAX_MEMORY_SIZE
  complete : shape.IsComplete (ofDocument document)
  reads : ∃ eventId eventType, shape.Reads (ofDocument document) eventId eventType ∧
    storing.column 255 eventId = .ok (some id) ∧ storing.column 100 eventType = .ok (some type)

theorem insert_of_columns (htakes : storing.takes (ofDocument document) = true)
    (hid : storing.column 255 eventId = .ok (some id)) (htype : storing.column 100 eventType = .ok (some type))
    (events : List (WebhookEvent PyValue)) :
    storing.insert newPk endpoint.provider eventId eventType (ofDocument document) events =
      if ∀ other ∈ events, ¬ (recordOf storing endpoint newPk id type document).Clashes other then
        .ok (events ++ [recordOf storing endpoint newPk id type document]) else .error .integrityError := by
  have hfits : (recordOf storing endpoint newPk id type document).Fits :=
    ⟨endpoint.provider_fits, Storing.length_le_of_column hid, Storing.length_le_of_column htype⟩
  rw [Storing.insert, hid, htype]
  simp only [bind, Except.bind, require, if_pos htakes, Storing.insertRow]
  split_ifs with hclash
  · have hcreate : create (recordOf storing endpoint newPk id type document) events =
        .ok (events ++ [recordOf storing endpoint newPk id type document]) := create_ok.mpr ⟨hfits, hclash, rfl⟩
    rw [recordOf] at hcreate
    rw [hcreate]
    rfl
  · have hcreate : create (recordOf storing endpoint newPk id type document) events = .error .integrityError := by
      rw [create, require_bind_of hfits, require_bind_of_not hclash]
    rw [recordOf] at hcreate
    rw [hcreate]

/-- A delivery of the event is recorded unless something clashes, and answered 200 in any case. -/
theorem post_delivery (h : codec.IsFaithful) {shape : Shape endpoint} (hevent : Deliverable codec storing shape document id type)
    (newPk : Uuid) (s : State) : endpoint.post (codec.python storing) newPk (delivery codec endpoint document) s =
      if ∀ other ∈ s.events, ¬ (recordOf storing endpoint newPk id type document).Clashes other then
        .ok (200, ⟨s.events ++ [recordOf storing endpoint newPk id type document], s.queue ++ [(endpoint.task, newPk)]⟩)
      else .ok (200, s) := by
  obtain ⟨eventId, eventType, hreads, hid, htype⟩ := hevent.reads
  have hloads : (codec.python storing).loads (delivery codec endpoint document).content = .ok (ofDocument document) :=
    (python_loads codec storing _).trans (loads_write h hevent.readable hevent.limit)
  have hinsert : (codec.python storing).insert newPk endpoint.provider eventId eventType (ofDocument document) s.events = _ :=
    insert_of_columns hevent.takes hid htype s.events
  have hsigned : Signed endpoint (delivery codec endpoint document) := rfl
  rw [post_of_complete shape hevent.size hsigned hloads hevent.complete hreads, hinsert]
  split_ifs
  · rfl
  · rfl

/-- The state a delivery leaves. -/
def deliver (codec : Codec) (storing : Storing) (endpoint : Endpoint) (document : JsonDocument) (s : State) (newPk : Uuid) :
    State × Nat :=
  match endpoint.post (codec.python storing) newPk (delivery codec endpoint document) s with
  | .ok (status, s') => (s', status)
  | .error _ => (s, 500)

/-- The record of an event that was delivered, and its task. -/
def recorded (storing : Storing) (endpoint : Endpoint) (newPk : Uuid) (id type : String) (document : JsonDocument)
    (s : State) : State :=
  ⟨s.events ++ [recordOf storing endpoint newPk id type document], s.queue ++ [(endpoint.task, newPk)]⟩

/-- However often an event is delivered, it is answered 200 each time, recorded once, and has one task. -/
theorem delivered_once (h : codec.IsFaithful) {shape : Shape endpoint} (hevent : Deliverable codec storing shape document id type)
    (hfresh : ∀ other ∈ s.events, ¬ (recordOf storing endpoint newPk id type document).Clashes other) (again : List Uuid) :
    final (fun s pk => (deliver codec storing endpoint document s pk).1) s (newPk :: again) =
        recorded storing endpoint newPk id type document s ∧
      replies (deliver codec storing endpoint document) s (newPk :: again) = List.replicate (again.length + 1) 200 := by
  have hfirst : deliver codec storing endpoint document s newPk = (recorded storing endpoint newPk id type document s, 200) := by
    rw [deliver, post_delivery h hevent, if_pos hfresh]
    rfl
  have hagain : ∀ pk, deliver codec storing endpoint document (recorded storing endpoint newPk id type document s) pk =
      (recorded storing endpoint newPk id type document s, 200) := by
    intro pk
    rw [deliver, post_delivery h hevent, if_neg]
    intro hnone
    exact hnone (recordOf storing endpoint newPk id type document) (List.mem_append_right _ List.mem_cons_self) (.inr ⟨rfl, rfl⟩)
  rw [final_cons, replies, hfirst]
  dsimp only
  induction again with
  | nil => exact ⟨rfl, rfl⟩
  | cons pk again ih =>
    rw [final_cons, replies, hagain pk]
    exact ⟨ih.1, congrArg (List.cons 200) ih.2⟩

theorem reread_recordOf (h : codec.IsFaithful) (hjsonb : IsJsonb codec storing) {shape : Shape endpoint}
    (hevent : Deliverable codec storing shape document id type) {kept : endpoint.Body → endpoint.Body}
    (hkeeps : Keeps storing endpoint kept) {body : endpoint.Body} (hbody : endpoint.parse (ofDocument document) = .ok body)
    (newPk : Uuid) : reread codec storing endpoint (recordOf storing endpoint newPk id type document) = .ok (kept body) := by
  obtain ⟨hread, -⟩ := isRead_read (read_write hevent.readable hevent.limit)
  exact reread_of_normal h hjsonb hread hevent.limit hevent.takes hkeeps hbody rfl

end Deliveries

variable {codec : Codec} {storing : Storing}

/-! ### The video provider -/

/-- What `build_webhook` is given, its event id chosen. -/
structure VideoEvent where
  eventId : PyString
  assetId : PyString
  status : PyString
  durationSeconds : Option Int

namespace VideoEvent

variable (event : VideoEvent)

def eventType : String := if event.status = pyString "READY" then "video.asset.ready" else "video.asset.errored"

def body : JsonDocument :=
  .dict [(points "id", .str event.eventId), (points "type", .str (points event.eventType)),
    (points "asset_id", .str event.assetId), (points "status", .str event.status),
    (points "duration_seconds", match event.durationSeconds with
      | some seconds => .int seconds
      | none => .null)]

/-- What its worker should read. -/
def meaning : VideoBody :=
  ⟨.str event.eventId, .str (points event.eventType), .str event.assetId, .str event.status,
    match event.durationSeconds with
    | some seconds => .int seconds
    | none => .none, ofDocument event.body⟩

theorem parseVideo_body : parseVideo (ofDocument event.body) = .ok event.meaning := by
  cases hduration : event.durationSeconds with
  | none => simp only [body, meaning, hduration]; rfl
  | some seconds => simp only [body, meaning, hduration]; rfl

/-- What its worker reads: what was meant, on the document that is stored. -/
def stored (storing : Storing) : VideoBody := { event.meaning with payload := storing.normal (ofDocument event.body) }

end VideoEvent

/-- `json` and the database take the texts and the numbers of the event. -/
structure VideoEvent.Fits (codec : Codec) (event : VideoEvent) (id : String) : Prop where
  eventId : decode event.eventId = some id
  length : id.length ≤ 255
  assetId : (decode event.assetId).isSome
  status : (decode event.status).isSome
  duration : ∀ seconds, event.durationSeconds = some seconds → FitsInt seconds
  limit : 1 ≤ codec.limit
  size : (payload codec event.body).length ≤ DATA_UPLOAD_MAX_MEMORY_SIZE

theorem eventType_facts (event : VideoEvent) : WellPaired (points event.eventType) ∧
    (decode (points event.eventType)) = some event.eventType ∧ event.eventType.length ≤ 100 := by
  unfold VideoEvent.eventType
  split_ifs
  · exact ⟨wellPaired_points _, by rfl, by decide⟩
  · exact ⟨wellPaired_points _, by rfl, by decide⟩

theorem column_str {depth maxLength : Nat} (htakes : TakesOrdinary codec storing depth) {text : PyString} {decoded : String}
    (h : decode text = some decoded) (hlength : decoded.length ≤ maxLength) :
    storing.column maxLength (.str text) = .ok (some decoded) := by
  rw [Storing.column]
  · simp only [PyValue.toStr, htakes.varchar maxLength text decoded h hlength]
  · intro hnone
    cases hnone

namespace VideoEvent.Fits

variable {event : VideoEvent} {id : String}

theorem isReadable (h : event.Fits codec id) : IsReadable codec.floats event.body := by
  have hid : WellPaired event.eventId := wellPaired_of_decode (by rw [h.eventId]; rfl)
  refine ⟨⟨wellPaired_points _, hid, wellPaired_points _, (eventType_facts event).1,
    wellPaired_points _, wellPaired_of_decode h.assetId, wellPaired_points _,
    wellPaired_of_decode h.status, wellPaired_points _, ?_, trivial⟩, ?_⟩
  · cases hduration : event.durationSeconds with
    | none => trivial
    | some seconds => exact h.duration seconds hduration
  · show ([points "id", points "type", points "asset_id", points "status", points "duration_seconds"]).Nodup
    decide

theorem isStorable (h : event.Fits codec id) : isStorable event.body = true := by
  have htype := (eventType_facts event).2.1
  cases hduration : event.durationSeconds with
  | none =>
    simp only [body, hduration, Provided.isStorable, fieldsStorable, h.eventId, h.assetId, h.status, htype]
    rfl
  | some seconds =>
    simp only [body, hduration, Provided.isStorable, fieldsStorable, h.eventId, h.assetId, h.status, htype]
    rfl

theorem deliverable (h : event.Fits codec id) (htakes : TakesOrdinary codec storing 1) (signer : Signer) :
    Deliverable codec storing (videoShape signer) event.body id event.eventType := by
  obtain ⟨-, htype, htypeLength⟩ := eventType_facts event
  have hnesting : Formats.JsonText.nesting event.body = 1 := by
    cases hduration : event.durationSeconds with
    | none => simp only [body, hduration]; rfl
    | some seconds => simp only [body, hduration]; rfl
  refine ⟨h.isReadable, htakes.jsonb _ h.isReadable h.isStorable (Nat.le_of_eq hnesting), ?_, h.size, ?_, ?_⟩
  · rw [hnesting]
    exact h.limit
  · exact exists_parseVideo.mp ⟨_, event.parseVideo_body⟩
  · exact ⟨.str event.eventId, .str (points event.eventType), ⟨rfl, rfl⟩, column_str htakes h.eventId h.length,
      column_str htakes htype htypeLength⟩

/-- `jsonb` leaves what was meant as it is. -/
theorem meaning_map (h : event.Fits codec id) (hjsonb : IsJsonb codec storing) :
    event.meaning.map storing.normal = event.stored storing := by
  have hid : storing.normal (.str event.eventId) = .str event.eventId := hjsonb.text _ (by rw [h.eventId]; rfl)
  have htype : storing.normal (.str (points event.eventType)) = .str (points event.eventType) :=
    hjsonb.text _ (by rw [(eventType_facts event).2.1]; rfl)
  rw [stored, meaning, VideoBody.map, hid, htype, hjsonb.text _ h.assetId, hjsonb.text _ h.status]
  cases event.durationSeconds with
  | none => rw [hjsonb.null]
  | some seconds => rw [hjsonb.int]

end VideoEvent.Fits

/-- An event of the video provider is recorded once, and its worker reads what the provider meant. -/
theorem video_event_arrives (h : codec.IsFaithful) (hjsonb : IsJsonb codec storing) (htakes : TakesOrdinary codec storing 1)
    (signer : Signer) {event : VideoEvent} {id : String} (hfits : event.Fits codec id) (newPk : Uuid) (s : State)
    (again : List Uuid)
    (hfresh : ∀ other ∈ s.events,
      ¬ (recordOf storing (videoWebhookView signer) newPk id event.eventType event.body).Clashes other) :
    final (fun s pk => (deliver codec storing (videoWebhookView signer) event.body s pk).1) s (newPk :: again) =
        recorded storing (videoWebhookView signer) newPk id event.eventType event.body s ∧
      replies (deliver codec storing (videoWebhookView signer) event.body) s (newPk :: again) =
        List.replicate (again.length + 1) 200 ∧
      reread codec storing (videoWebhookView signer)
        (recordOf storing (videoWebhookView signer) newPk id event.eventType event.body) = .ok (event.stored storing) := by
  have hevent := hfits.deliverable htakes signer
  obtain ⟨hfinal, hreplies⟩ := delivered_once h hevent hfresh again
  refine ⟨hfinal, hreplies, ?_⟩
  rw [← hfits.meaning_map hjsonb]
  exact reread_recordOf h hjsonb hevent (fun _ _ hparse => hjsonb.parseVideo_normal hparse) event.parseVideo_body newPk

def readyEvent : VideoEvent := ⟨pyString "fakeevt_1", pyString "fakeasset_1", pyString "READY", some 42⟩

theorem readyEvent_fits : readyEvent.Fits asciiCodec "fakeevt_1" where
  eventId := by rfl
  length := by decide
  assetId := by rfl
  status := by rfl
  duration seconds h := by
    cases h
    decide
  limit := by decide
  size := by decide +kernel

theorem plainStoring_isJsonb_ascii : IsJsonb asciiCodec plainStoring := plainStoring_isJsonb asciiCodec_isFaithful

theorem plainStoring_takes_flat : TakesOrdinary asciiCodec plainStoring 1 := (plainStoring_takes asciiCodec).mono (by decide)

theorem readyEvent_arrives : reread asciiCodec plainStoring (videoWebhookView zeroSigner)
    (recordOf plainStoring (videoWebhookView zeroSigner) 1 "fakeevt_1" readyEvent.eventType readyEvent.body) =
    .ok (readyEvent.stored plainStoring) :=
  (video_event_arrives asciiCodec_isFaithful plainStoring_isJsonb_ascii plainStoring_takes_flat zeroSigner readyEvent_fits 1
    ⟨[], []⟩ [] fun _ h => absurd h List.not_mem_nil).2.2

/-- The event, delivered twice. -/
def readyRun : List Post :=
  [⟨.video, 1, delivery asciiCodec (videoWebhookView zeroSigner) readyEvent.body⟩,
    ⟨.video, 2, delivery asciiCodec (videoWebhookView zeroSigner) readyEvent.body⟩]

theorem readyRun_queue : (final (step asciiCodec plainStoring ⟨zeroSigner, zeroSigner⟩) ⟨[], []⟩ readyRun).queue =
    [((videoWebhookView zeroSigner).task, 1)] := by
  have hstep : ∀ pk s, step asciiCodec plainStoring ⟨zeroSigner, zeroSigner⟩ s
      ⟨.video, pk, delivery asciiCodec (videoWebhookView zeroSigner) readyEvent.body⟩ =
      (deliver asciiCodec plainStoring (videoWebhookView zeroSigner) readyEvent.body s pk).1 := by
    intro pk s
    have hpost := post_delivery asciiCodec_isFaithful (readyEvent_fits.deliverable plainStoring_takes_flat zeroSigner) pk s
    unfold step deliver
    simp only [endpointOf, hpost]
    split_ifs
    · rfl
    · rfl
  have hfresh : ∀ other ∈ (⟨[], []⟩ : State).events,
      ¬ (recordOf plainStoring (videoWebhookView zeroSigner) 1 "fakeevt_1" readyEvent.eventType readyEvent.body).Clashes other :=
    fun _ h => absurd h List.not_mem_nil
  obtain ⟨hfinal, -⟩ :=
    delivered_once asciiCodec_isFaithful (readyEvent_fits.deliverable plainStoring_takes_flat zeroSigner) hfresh [2]
  simp only [final_cons, final_nil] at hfinal
  rw [readyRun, final_cons, final_cons, final_nil, hstep 1, hstep 2, hfinal]
  rfl

theorem readyRun_is_read : CanRead asciiCodec plainStoring ⟨zeroSigner, zeroSigner⟩ readyRun
    (final (step asciiCodec plainStoring ⟨zeroSigner, zeroSigner⟩) ⟨[], []⟩ readyRun)
    ((videoWebhookView zeroSigner).task, 1) := by
  refine tasks_read_what_was_signed asciiCodec_isFaithful plainStoring_isJsonb_ascii ⟨zeroSigner, zeroSigner⟩ readyRun _ ?_
  rw [readyRun_queue]
  exact List.mem_cons_self

/-! ### The transcription provider -/

/-- What the provider hears, over and over. -/
def UTTERANCES : List String :=
  ["Buenos días, ¿cómo estás?", "Me llamo Ana y soy profesora.", "Hoy vamos a aprender los saludos.",
    "Repite después de mí, por favor.", "Muy bien, eso es todo por hoy."]

def MS_PER_WORD : Nat := 380

def GAP_MS : Nat := 120

/-- `len(text.split())`. -/
def wordCount (text : String) : Nat := ((text.toList.splitOnP isWhitespace).filter (· ≠ [])).length

def utterance (index : Nat) : String := UTTERANCES.getD (index % UTTERANCES.length) ""

def duration (index : Nat) : Nat := wordCount (utterance index) * MS_PER_WORD

/-- The rest of the loop of `segments`: so many more, from an index and a cursor on. -/
def segmentsFrom (index cursor : Nat) : Nat → List TranscribedSegment
  | 0 => []
  | count + 1 => ⟨index + 1, cursor, cursor + duration index, utterance index⟩ ::
      segmentsFrom (index + 1) (cursor + duration index + GAP_MS) count

def segments (count : Nat) : List TranscribedSegment := segmentsFrom 0 0 count

theorem utterance_facts (index : Nat) : (4 ≤ wordCount (utterance index) ∧ wordCount (utterance index) ≤ 7) ∧
    (decode (points (utterance index))).isSome := by
  have hall : ∀ i < 5, (4 ≤ wordCount (UTTERANCES.getD i "") ∧ wordCount (UTTERANCES.getD i "") ≤ 7) ∧
      (decode (points (UTTERANCES.getD i ""))).isSome := by decide
  exact hall (index % 5) (Nat.mod_lt _ (by decide))

/-- No cue is empty, and none is longer than the longest utterance. -/
theorem duration_bounds (index : Nat) : 0 < duration index ∧ duration index ≤ 2660 := by
  have hwords := (utterance_facts index).1
  unfold duration MS_PER_WORD
  omega

/-- A cue after another begins where the gap behind it ends. -/
def Follows (cue next : TranscribedSegment) : Prop := next.position = cue.position + 1 ∧ next.startMs = cue.endMs + GAP_MS

theorem segmentsFrom_bounds (count index cursor : Nat) : ∀ cue ∈ segmentsFrom index cursor count,
    (index : Int) < cue.position ∧ cue.position ≤ index + count ∧ (cursor : Int) ≤ cue.startMs ∧ cue.startMs < cue.endMs ∧
      cue.endMs ≤ cursor + count * 2780 ∧ (decode (points cue.text)).isSome := by
  induction count generalizing index cursor with
  | zero => exact fun cue h => absurd h List.not_mem_nil
  | succ count ih =>
    obtain ⟨hpositive, hbound⟩ := duration_bounds index
    intro cue hcue
    obtain rfl | hcue := List.mem_cons.mp hcue
    · refine ⟨?_, ?_, ?_, ?_, ?_, (utterance_facts index).2⟩ <;> dsimp only <;> push_cast <;> omega
    · obtain ⟨hposition, hlast, hstart, hspan, hend, htext⟩ := ih (index + 1) (cursor + duration index + GAP_MS) cue hcue
      unfold GAP_MS at hstart hend
      push_cast at hposition hlast hstart hend ⊢
      refine ⟨?_, ?_, ?_, hspan, ?_, htext⟩ <;> omega

theorem segmentsFrom_chain (count index cursor : Nat) : (segmentsFrom index cursor count).IsChain Follows := by
  induction count generalizing index cursor with
  | zero => exact List.isChain_nil
  | succ count ih =>
    refine List.isChain_cons.mpr ⟨fun next hnext => ?_, ih _ _⟩
    cases count with
    | zero => cases hnext
    | succ count =>
      obtain rfl := Option.some.inj hnext
      refine ⟨?_, ?_⟩ <;> dsimp only <;> push_cast <;> rfl

theorem length_segmentsFrom (count index cursor : Nat) : (segmentsFrom index cursor count).length = count := by
  induction count generalizing index cursor with
  | zero => rfl
  | succ count ih => exact congrArg (· + 1) (ih _ _)

def segmentDocument (cue : TranscribedSegment) : JsonDocument :=
  .dict [(points "position", .int cue.position), (points "start_ms", .int cue.startMs), (points "end_ms", .int cue.endMs),
    (points "text", .str (points cue.text))]

/-- What `build_webhook` is given. -/
structure TranscriptionEvent where
  jobId : PyString
  status : PyString
  confidence : Option ℚ
  count : Nat

namespace TranscriptionEvent

variable (event : TranscriptionEvent)

def cues : List TranscribedSegment := if event.status = pyString "COMPLETED" then segments event.count else []

def body : JsonDocument :=
  .dict [(points "job_id", .str event.jobId), (points "status", .str event.status),
    (points "confidence", match event.confidence with
      | some confidence => .float (some confidence)
      | none => .null),
    (points "segments", .list (event.cues.map segmentDocument))]

/-- What its worker should read. -/
def meaning : TranscriptionBody :=
  ⟨.str event.jobId, .str event.status,
    match event.confidence with
    | some confidence => .float (some confidence)
    | none => .none,
    event.cues.map fun cue => ⟨.int cue.position, .int cue.startMs, .int cue.endMs, .str (points cue.text)⟩,
    ofDocument event.body⟩

theorem mapM_parseSegment (cues : List TranscribedSegment) :
    (ofDocuments (cues.map segmentDocument)).mapM parseSegment =
      .ok (cues.map fun cue => ⟨.int cue.position, .int cue.startMs, .int cue.endMs, .str (points cue.text)⟩) := by
  induction cues with
  | nil => rfl
  | cons cue cues ih =>
    rw [List.map_cons, ofDocuments, List.mapM_cons, ih]
    rfl

theorem parseTranscription_body : parseTranscription (ofDocument event.body) = .ok event.meaning := by
  have hjob : (ofDocument event.body).index "job_id" = .ok (.str event.jobId) := rfl
  have hstatus : (ofDocument event.body).index "status" = .ok (.str event.status) := rfl
  have hsegments : segmentsOf (ofDocument event.body) = .list (ofDocuments (event.cues.map segmentDocument)) := rfl
  rw [parseTranscription, hjob, hstatus, hsegments]
  simp only [PyValue.iterate, bind, Except.bind, mapM_parseSegment]
  cases hconfidence : event.confidence with
  | none => simp only [body, meaning, hconfidence]; rfl
  | some confidence => simp only [body, meaning, hconfidence]; rfl

/-- What its worker reads: what was meant, on the document that is stored. -/
def stored (storing : Storing) : TranscriptionBody :=
  { event.meaning with payload := storing.normal (ofDocument event.body) }

end TranscriptionEvent

/-- `json` and the database take the texts and the confidence of the event; `type` is its type, in lower case. -/
structure TranscriptionEvent.Fits (codec : Codec) (storing : Storing) (event : TranscriptionEvent) (id type : String) : Prop where
  jobId : decode event.jobId = some id
  jobIdLength : id.length ≤ 255
  status : (decode event.status).isSome
  eventType : decode (pyString "transcription." ++ storing.lower event.status) = some type
  typeLength : type.length ≤ 100
  confidence : ∀ confidence, event.confidence = some confidence → codec.floats.Spells (some confidence) ∧
    storing.normal (.float (some confidence)) = .float (some confidence)
  limit : 3 ≤ codec.limit
  size : (payload codec event.body).length ≤ DATA_UPLOAD_MAX_MEMORY_SIZE

section Segments

variable {floats : FloatText (Option ℚ)} {cues : List TranscribedSegment}

/-- The text of a list has a letter for each of its items. -/
theorem length_le_writeItems (items : List JsonDocument) : items.length ≤ (write floats (.list items)).length := by
  have hmore : ∀ items : List JsonDocument, items.length ≤ (writeMoreItems floats items).length := by
    intro items
    induction items with
    | nil => exact Nat.le_refl _
    | cons item items ih =>
      simp only [writeMoreItems, List.length_cons, List.length_append]
      omega
  cases items with
  | nil => exact Nat.zero_le _
  | cons item items =>
    have hitems := hmore items
    simp only [write, writeItems, List.length_cons, List.length_append]
    omega

theorem length_cues (event : TranscriptionEvent) : event.cues.length ≤ (payload codec event.body).length := by
  have hitems : _ ≤ (write codec.floats (.list (event.cues.map segmentDocument))).length := length_le_writeItems _
  rw [List.length_map] at hitems
  rw [payload, encode, List.length_map]
  simp only [TranscriptionEvent.body, write, writeFields, writeMoreFields, List.length_cons, List.length_append]
  simp only [write, List.length_cons, List.length_append] at hitems
  omega

/-- A cue whose numbers and text can be written and read. -/
def Legible (cue : TranscribedSegment) : Prop :=
  FitsInt cue.position ∧ FitsInt cue.startMs ∧ FitsInt cue.endMs ∧ (decode (points cue.text)).isSome

theorem areReadable_segments (h : ∀ cue ∈ cues, Legible cue) : AreReadable floats (cues.map segmentDocument) := by
  induction cues with
  | nil => trivial
  | cons cue cues ih =>
    obtain ⟨hposition, hstart, hend, htext⟩ := h cue List.mem_cons_self
    refine ⟨⟨⟨wellPaired_points _, hposition, wellPaired_points _, hstart, wellPaired_points _,
      hend, wellPaired_points _, wellPaired_of_decode htext, trivial⟩, ?_⟩,
      ih fun cue hcue => h cue (List.mem_cons_of_mem _ hcue)⟩
    show ([points "position", points "start_ms", points "end_ms", points "text"]).Nodup
    decide

theorem areStorable_segments (h : ∀ cue ∈ cues, Legible cue) : areStorable (cues.map segmentDocument) = true := by
  induction cues with
  | nil => rfl
  | cons cue cues ih =>
    have hcue : isStorable (segmentDocument cue) = true := by
      simp only [segmentDocument, isStorable, fieldsStorable, (h cue List.mem_cons_self).2.2.2]
      rfl
    rw [List.map_cons, areStorable, hcue, ih fun cue hcue => h cue (List.mem_cons_of_mem _ hcue)]
    rfl

theorem nesting_segments (cues : List TranscribedSegment) : itemsNesting (cues.map segmentDocument) ≤ 1 := by
  induction cues with
  | nil => exact Nat.zero_le _
  | cons cue cues ih => exact max_le (Nat.le_refl _) ih

theorem fitsInt_of_lt {n : Int} (h : 0 ≤ n) (hsmall : n < 10 ^ 12) : FitsInt n := by
  refine Nat.le_trans ((Nat.length_toDigits_le_iff (by decide) (k := 12) (by decide)).mpr ?_) (by decide)
  omega

end Segments

namespace TranscriptionEvent.Fits

variable {event : TranscriptionEvent} {id type : String}

theorem legible (h : event.Fits codec storing id type) : ∀ cue ∈ event.cues, Legible cue := by
  intro cue hcue
  have hlength : event.cues.length ≤ DATA_UPLOAD_MAX_MEMORY_SIZE := Nat.le_trans (length_cues event) h.size
  rw [cues] at hcue hlength
  split_ifs at hcue hlength with hcompleted
  · rw [segments, length_segmentsFrom] at hlength
    obtain ⟨hposition, hlast, hstart, hspan, hend, htext⟩ := segmentsFrom_bounds event.count 0 0 cue hcue
    unfold DATA_UPLOAD_MAX_MEMORY_SIZE at hlength
    refine ⟨fitsInt_of_lt ?_ ?_, fitsInt_of_lt ?_ ?_, fitsInt_of_lt ?_ ?_, htext⟩ <;> omega
  · cases hcue

theorem isReadable (h : event.Fits codec storing id type) : IsReadable codec.floats event.body := by
  have hjob : WellPaired event.jobId := wellPaired_of_decode (by rw [h.jobId]; rfl)
  refine ⟨⟨wellPaired_points _, hjob, wellPaired_points _, wellPaired_of_decode h.status,
    wellPaired_points _, ?_, wellPaired_points _, areReadable_segments h.legible, trivial⟩, ?_⟩
  · cases hconfidence : event.confidence with
    | none => trivial
    | some confidence => exact (h.confidence confidence hconfidence).1
  · show ([points "job_id", points "status", points "confidence", points "segments"]).Nodup
    decide

theorem isStorable (h : event.Fits codec storing id type) : isStorable event.body = true := by
  cases hconfidence : event.confidence with
  | none =>
    simp only [body, hconfidence, Provided.isStorable, fieldsStorable, h.jobId, h.status, areStorable_segments h.legible]
    rfl
  | some confidence =>
    simp only [body, hconfidence, Provided.isStorable, fieldsStorable, h.jobId, h.status, areStorable_segments h.legible]
    rfl

theorem nesting_body (event : TranscriptionEvent) : Formats.JsonText.nesting event.body ≤ 3 := by
  have hcues := nesting_segments event.cues
  have hbody : Formats.JsonText.nesting event.body = itemsNesting (event.cues.map segmentDocument) + 2 := by
    cases hconfidence : event.confidence with
    | none => simp only [body, hconfidence, Formats.JsonText.nesting, Formats.JsonText.fieldsNesting]; omega
    | some confidence => simp only [body, hconfidence, Formats.JsonText.nesting, Formats.JsonText.fieldsNesting]; omega
  omega

theorem deliverable (h : event.Fits codec storing id type) (htakes : TakesOrdinary codec storing 3) (signer : Signer) :
    Deliverable codec storing (transcriptionShape (codec.python storing) signer) event.body id type := by
  refine ⟨h.isReadable, htakes.jsonb _ h.isReadable h.isStorable (nesting_body event),
    Nat.le_trans (nesting_body event) h.limit, h.size, ?_, ?_⟩
  · exact exists_parseTranscription.mp ⟨_, event.parseTranscription_body⟩
  · exact ⟨.str event.jobId, .str (pyString "transcription." ++ storing.lower event.status),
      ⟨rfl, .str event.status, rfl, rfl⟩, column_str htakes h.jobId h.jobIdLength, column_str htakes h.eventType h.typeLength⟩

/-- `jsonb` leaves what was meant as it is. -/
theorem meaning_map (h : event.Fits codec storing id type) (hjsonb : IsJsonb codec storing) :
    event.meaning.map storing.normal = event.stored storing := by
  have hjob : storing.normal (.str event.jobId) = .str event.jobId := hjsonb.text _ (by rw [h.jobId]; rfl)
  have hcues : (event.cues.map fun cue : TranscribedSegment =>
      (⟨.int cue.position, .int cue.startMs, .int cue.endMs, .str (points cue.text)⟩ : SegmentBody).map storing.normal) =
      event.cues.map fun cue => ⟨.int cue.position, .int cue.startMs, .int cue.endMs, .str (points cue.text)⟩ := by
    refine List.map_congr_left fun cue hcue => ?_
    rw [SegmentBody.map, hjsonb.int, hjsonb.int, hjsonb.int, hjsonb.text _ (h.legible cue hcue).2.2.2]
  rw [stored, meaning, TranscriptionBody.map, hjob, hjsonb.text _ h.status, List.map_map]
  dsimp only
  rw [← hcues]
  cases hconfidence : event.confidence with
  | none =>
    dsimp only
    rw [hjsonb.null]
    rfl
  | some confidence =>
    dsimp only
    rw [(h.confidence confidence hconfidence).2]
    rfl

end TranscriptionEvent.Fits

/-- A callback of the transcription provider is recorded once, and its worker reads what the provider meant: cues in order, each
of some length, one gap apart. -/
theorem transcription_event_arrives (h : codec.IsFaithful) (hjsonb : IsJsonb codec storing)
    (htakes : TakesOrdinary codec storing 3) (signer : Signer) {event : TranscriptionEvent} {id type : String}
    (hfits : event.Fits codec storing id type) (newPk : Uuid) (s : State) (again : List Uuid)
    (hfresh : ∀ other ∈ s.events,
      ¬ (recordOf storing (transcriptionWebhookView (codec.python storing) signer) newPk id type event.body).Clashes other) :
    final (fun s pk => (deliver codec storing (transcriptionWebhookView (codec.python storing) signer) event.body s pk).1) s
          (newPk :: again) =
        recorded storing (transcriptionWebhookView (codec.python storing) signer) newPk id type event.body s ∧
      replies (deliver codec storing (transcriptionWebhookView (codec.python storing) signer) event.body) s (newPk :: again) =
        List.replicate (again.length + 1) 200 ∧
      reread codec storing (transcriptionWebhookView (codec.python storing) signer)
          (recordOf storing (transcriptionWebhookView (codec.python storing) signer) newPk id type event.body) =
        .ok (event.stored storing) ∧
      event.cues.IsChain Follows ∧
      ∀ cue ∈ event.cues, 1 ≤ cue.position ∧ cue.position ≤ event.count ∧ 0 ≤ cue.startMs ∧ cue.startMs < cue.endMs := by
  have hevent := hfits.deliverable htakes signer
  obtain ⟨hfinal, hreplies⟩ := delivered_once h hevent hfresh again
  refine ⟨hfinal, hreplies, ?_, ?_, ?_⟩
  · rw [← hfits.meaning_map hjsonb]
    exact reread_recordOf h hjsonb hevent (fun _ _ hparse => hjsonb.parseTranscription_normal hparse)
      event.parseTranscription_body newPk
  · rw [TranscriptionEvent.cues]
    split_ifs
    · exact segmentsFrom_chain event.count 0 0
    · exact List.isChain_nil
  · intro cue hcue
    rw [TranscriptionEvent.cues] at hcue
    split_ifs at hcue
    · obtain ⟨hposition, hlast, hstart, hspan, -, -⟩ := segmentsFrom_bounds event.count 0 0 cue hcue
      refine ⟨?_, ?_, ?_, hspan⟩ <;> omega
    · cases hcue

/-- Two cues, and nothing about how sure the provider is. -/
def completedEvent : TranscriptionEvent := ⟨pyString "fakejob_1", pyString "COMPLETED", none, 2⟩

theorem completedEvent_fits : completedEvent.Fits asciiCodec plainStoring "fakejob_1" "transcription.completed" where
  jobId := by rfl
  jobIdLength := by decide
  status := by rfl
  eventType := by rfl
  typeLength := by decide
  confidence confidence h := by cases h
  limit := by decide
  size := by decide +kernel

theorem completedEvent_arrives :
    reread asciiCodec plainStoring (transcriptionWebhookView (asciiCodec.python plainStoring) zeroSigner)
      (recordOf plainStoring (transcriptionWebhookView (asciiCodec.python plainStoring) zeroSigner) 1 "fakejob_1"
        "transcription.completed" completedEvent.body) = .ok (completedEvent.stored plainStoring) :=
  (transcription_event_arrives asciiCodec_isFaithful plainStoring_isJsonb_ascii ((plainStoring_takes asciiCodec).mono (by decide))
    zeroSigner completedEvent_fits 1 ⟨[], []⟩ [] fun _ h => absurd h List.not_mem_nil).2.2.1

end EPlatform.Webhooks.Provided
