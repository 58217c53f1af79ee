import EPlatform.Core.PyValue
import EPlatform.Core.WebhookEvent

/-!
# What a receiver reads of a body

`parse_webhook` of the two providers on any value `json.loads` may return, and the row the receivers insert for it. A field
may hold anything: what it is asked for decides what raises.
-/

namespace EPlatform.Webhooks

open Runs

/-! ### Parsing -/

structure VideoBody where
  eventId : PyValue
  eventType : PyValue
  assetId : PyValue
  status : PyValue
  durationSeconds : PyValue
  payload : PyValue

structure SegmentBody where
  position : PyValue
  startMs : PyValue
  endMs : PyValue
  text : PyValue

structure TranscriptionBody where
  jobId : PyValue
  status : PyValue
  confidence : PyValue
  segments : List SegmentBody
  payload : PyValue

/-- A body with each of its values changed alike. -/
def VideoBody.map (f : PyValue → PyValue) (event : VideoBody) : VideoBody :=
  ⟨f event.eventId, f event.eventType, f event.assetId, f event.status, f event.durationSeconds, f event.payload⟩

def SegmentBody.map (f : PyValue → PyValue) (cue : SegmentBody) : SegmentBody :=
  ⟨f cue.position, f cue.startMs, f cue.endMs, f cue.text⟩

def TranscriptionBody.map (f : PyValue → PyValue) (result : TranscriptionBody) : TranscriptionBody :=
  ⟨f result.jobId, f result.status, f result.confidence, result.segments.map (·.map f), f result.payload⟩

/-- `body.get(key)`, on a body that was indexed before. -/
def field (body : PyValue) (key : String) : Option PyValue := body.fields.bind (PyValue.get · key)

/-- `FakeVideoProvider.parse_webhook`. -/
def parseVideo (body : PyValue) : Except PyException VideoBody := do
  let eventId ← body.index "id"
  let eventType ← body.index "type"
  let assetId ← body.index "asset_id"
  let status ← body.index "status"
  return ⟨eventId, eventType, assetId, status, (field body "duration_seconds").getD .none, body⟩

def parseSegment (segment : PyValue) : Except PyException SegmentBody := do
  let position ← segment.index "position"
  let startMs ← segment.index "start_ms"
  let endMs ← segment.index "end_ms"
  let text ← segment.index "text"
  return ⟨position, startMs, endMs, text⟩

/-- `body.get("segments", ())`. -/
def segmentsOf (body : PyValue) : PyValue := (field body "segments").getD (.tuple [])

/-- `FakeTranscriptionProvider.parse_webhook`. -/
def parseTranscription (body : PyValue) : Except PyException TranscriptionBody := do
  let jobId ← body.index "job_id"
  let status ← body.index "status"
  let items ← (segmentsOf body).iterate
  let segments ← items.mapM parseSegment
  return ⟨jobId, status, (field body "confidence").getD .none, segments, body⟩

/-! ### Inserting -/

/-- What is beyond the source: `str` of a value that is no string, `str.lower`, what a `varchar` stores of a text, and which
values `jsonb` takes and what it gives back of them. -/
structure Storing where
  repr : PyValue → PyString
  lower : PyString → PyString
  varchar : Nat → PyString → Option String
  varchar_length : ∀ {maxLength text stored}, varchar maxLength text = some stored → stored.length ≤ maxLength
  takes : PyValue → Bool
  normal : PyValue → PyValue

namespace Storing

variable (storing : Storing)

/-- A `CharField`, which takes `str(value)` of anything but null. -/
def column (maxLength : Nat) (value : PyValue) : Except PyException (Option String) :=
  match value with
  | .none => .ok none
  | value =>
    match storing.varchar maxLength (value.toStr storing.repr) with
    | none => .error .dataError
    | some text => .ok (some text)

/-- The row, which no column but `processed_at` may leave null. -/
def insertRow (pk : Uuid) (provider : String) (payload : PyValue) (events : List (WebhookEvent PyValue)) :
    Option String → Option String → Except PyException (List (WebhookEvent PyValue))
  | some providerEventId, some eventType =>
    match create { pk, provider, providerEventId, eventType, payload, processedAt := none } events with
    | .ok events => .ok events
    | .error .integrityError => .error .integrityError
    | .error .dataError => .error .dataError
  | _, _ => .error .integrityError

/-- `WebhookEvent.objects.create(...)`. The values are converted before a constraint is asked. -/
def insert (pk : Uuid) (provider : String) (eventId eventType payload : PyValue) (events : List (WebhookEvent PyValue)) :
    Except PyException (List (WebhookEvent PyValue)) := do
  let eventId ← storing.column 255 eventId
  let eventType ← storing.column 100 eventType
  require (storing.takes payload = true) .dataError
  insertRow pk provider (storing.normal payload) events eventId eventType

/-- `f"transcription.{status.lower()}"`, which asks the status to be a string. -/
def transcriptionType (status : PyValue) : Except PyException PyValue :=
  match status with
  | .str text => .ok (.str (pyString "transcription." ++ storing.lower text))
  | _ => .error .attributeError

/-- The columns take the two texts and the document. -/
structure Fits (eventId eventType payload : PyValue) : Prop where
  eventId : ∃ text, storing.column 255 eventId = .ok text
  eventType : ∃ text, storing.column 100 eventType = .ok text
  payload : storing.takes payload = true

variable {storing} {maxLength : Nat} {value : PyValue}

theorem column_error {exc : PyException} (h : storing.column maxLength value = .error exc) : exc = .dataError := by
  unfold column at h
  split at h
  · cases h
  · split at h
    · exact (Except.error.inj h).symm
    · cases h

theorem length_le_of_column {text : String} (h : storing.column maxLength value = .ok (some text)) :
    text.length ≤ maxLength := by
  unfold column at h
  split at h
  · cases h
  · split at h
    · cases h
    · rename_i hstored
      cases h
      exact storing.varchar_length hstored

variable {pk : Uuid} {provider : String} {eventId eventType payload : PyValue} {events : List (WebhookEvent PyValue)}

/-- What the columns hold is inserted or refused by a constraint. -/
theorem insert_of_fits (hprovider : provider.length ≤ 32) (h : storing.Fits eventId eventType payload) :
    (∃ events', storing.insert pk provider eventId eventType payload events = .ok events') ∨
      storing.insert pk provider eventId eventType payload events = .error .integrityError := by
  obtain ⟨⟨id, hid⟩, ⟨type, htype⟩, hpayload⟩ := h
  have hinsert : storing.insert pk provider eventId eventType payload events =
      insertRow pk provider (storing.normal payload) events id type := by
    rw [insert, hid, htype]
    simp only [bind, Except.bind, require, if_pos hpayload]
  rw [hinsert]
  cases id with
  | none => exact .inr rfl
  | some id =>
    cases type with
    | none => exact .inr rfl
    | some type =>
      let record : WebhookEvent PyValue := ⟨pk, provider, id, type, storing.normal payload, none⟩
      have hfits : record.Fits := ⟨hprovider, length_le_of_column hid, length_le_of_column htype⟩
      by_cases hclash : ∀ other ∈ events, ¬ record.Clashes other
      · left
        refine ⟨events ++ [record], ?_⟩
        have hcreate : create record events = .ok (events ++ [record]) := create_ok.mpr ⟨hfits, hclash, rfl⟩
        simp only [insertRow, record] at hcreate ⊢
        simp only [hcreate]
      · right
        have hrefused : create record events = .error .integrityError := by
          rw [create, require_bind_of hfits, require_bind_of_not hclash]
        simp only [insertRow, record] at hrefused ⊢
        simp only [hrefused]

theorem insert_of_not_fits (h : ¬ storing.Fits eventId eventType payload) :
    storing.insert pk provider eventId eventType payload events = .error .dataError := by
  rw [insert]
  cases hid : storing.column 255 eventId with
  | error exc => rw [column_error hid]; rfl
  | ok id =>
    cases htype : storing.column 100 eventType with
    | error exc => rw [column_error htype]; rfl
    | ok type =>
      have hpayload : ¬ storing.takes payload = true := fun hpayload => h ⟨⟨id, hid⟩, ⟨type, htype⟩, hpayload⟩
      simp only [bind, Except.bind, require, if_neg hpayload]

end Storing

/-! ### What a parser raises -/

/-- Nothing but what the receivers catch. -/
def Caught {α : Type} (x : Except PyException α) : Prop := ∀ exc, x = .error exc → exc = .keyError ∨ exc = .valueError

section Caught

variable {α β : Type} {x : Except PyException α} {f : α → Except PyException β} {value : PyValue} {key : String}

theorem caught_bind : Caught (x >>= f) ↔ Caught x ∧ ∀ a, x = .ok a → Caught (f a) := by
  cases x with
  | error exc => simp [Caught, bind, Except.bind]
  | ok a => simp [Caught, bind, Except.bind]

theorem caught_pure (a : α) : Caught (pure a) := by
  rintro exc ⟨⟩

theorem exists_bind_eq_ok : (∃ b, (x >>= f) = .ok b) ↔ ∃ a, x = .ok a ∧ ∃ b, f a = .ok b := by
  simp only [bind_eq_ok]
  tauto

theorem index_eq_ok {item : PyValue} : value.index key = .ok item ↔ field value key = some item := by
  cases value with
  | dict fields =>
    simp only [PyValue.index, field, PyValue.fields, Option.bind_some]
    cases PyValue.get fields key <;> simp
  | _ => simp [PyValue.index, field, PyValue.fields]

theorem caught_index : Caught (value.index key) ↔ value.fields.isSome := by
  cases value with
  | dict fields =>
    simp only [PyValue.index, PyValue.fields, Option.isSome_some, iff_true]
    cases PyValue.get fields key <;> simp [Caught]
  | _ => simp [PyValue.index, PyValue.fields, Caught]

end Caught

/-! ### What a body holds -/

/-- The fields are there. -/
def Has (keys : List String) (value : PyValue) : Prop := ∀ key ∈ keys, (field value key).isSome

def VIDEO_FIELDS : List String := ["id", "type", "asset_id", "status"]

def TRANSCRIPTION_FIELDS : List String := ["job_id", "status"]

def SEGMENT_FIELDS : List String := ["position", "start_ms", "end_ms", "text"]

/-- The segments up to the first that lacks a field are objects. -/
def SegmentsLegible : List PyValue → Prop
  | [] => True
  | segment :: segments => segment.fields.isSome ∧ (Has SEGMENT_FIELDS segment → SegmentsLegible segments)

variable {body segment : PyValue} {items : List PyValue}

theorem parseVideo_reads {event : VideoBody} (h : parseVideo body = .ok event) :
    field body "id" = some event.eventId ∧ field body "type" = some event.eventType ∧ event.payload = body := by
  simp only [parseVideo, bind_eq_ok, index_eq_ok, pure_eq_ok] at h
  obtain ⟨eventId, hid, eventType, htype, assetId, -, status, -, rfl⟩ := h
  exact ⟨hid, htype, rfl⟩

theorem exists_parseVideo : (∃ event, parseVideo body = .ok event) ↔ Has VIDEO_FIELDS body := by
  simp only [parseVideo, exists_bind_eq_ok, index_eq_ok, pure_eq_ok, Has, VIDEO_FIELDS, List.forall_mem_cons,
    Option.isSome_iff_exists]
  simp

theorem caught_parseVideo : Caught (parseVideo body) ↔ body.fields.isSome := by
  simp only [parseVideo, caught_bind, caught_index, caught_pure]
  simp +contextual

theorem exists_parseSegment : (∃ cue, parseSegment segment = .ok cue) ↔ Has SEGMENT_FIELDS segment := by
  simp only [parseSegment, exists_bind_eq_ok, index_eq_ok, pure_eq_ok, Has, SEGMENT_FIELDS, List.forall_mem_cons,
    Option.isSome_iff_exists]
  simp

theorem caught_parseSegment : Caught (parseSegment segment) ↔ segment.fields.isSome := by
  simp only [parseSegment, caught_bind, caught_index, caught_pure]
  simp +contextual

theorem caught_parseSegments : Caught (items.mapM parseSegment) ↔ SegmentsLegible items := by
  induction items with
  | nil => exact iff_of_true (caught_pure []) trivial
  | cons segment segments ih =>
    rw [List.mapM_cons, caught_bind, caught_parseSegment, SegmentsLegible, ← exists_parseSegment, ← ih]
    simp only [caught_bind, caught_pure, implies_true, and_true]
    simp

theorem parseTranscription_reads {result : TranscriptionBody} (h : parseTranscription body = .ok result) :
    field body "job_id" = some result.jobId ∧ field body "status" = some result.status ∧ result.payload = body := by
  simp only [parseTranscription, bind_eq_ok, index_eq_ok, pure_eq_ok] at h
  obtain ⟨jobId, hid, status, hstatus, items, -, segments, -, rfl⟩ := h
  exact ⟨hid, hstatus, rfl⟩

theorem has_transcriptionFields : Has TRANSCRIPTION_FIELDS body ↔
    (∃ jobId, field body "job_id" = some jobId) ∧ ∃ status, field body "status" = some status := by
  simp [Has, TRANSCRIPTION_FIELDS, Option.isSome_iff_exists]

theorem exists_parseTranscription : (∃ result, parseTranscription body = .ok result) ↔
    Has TRANSCRIPTION_FIELDS body ∧
      ∃ items, (segmentsOf body).iterate = .ok items ∧ ∀ segment ∈ items, Has SEGMENT_FIELDS segment := by
  have hsegments : ∀ items : List PyValue, (∃ cues, items.mapM parseSegment = .ok cues) ↔
      ∀ segment ∈ items, Has SEGMENT_FIELDS segment := by
    intro items
    rw [exists_mapM_eq_ok]
    exact forall₂_congr fun segment _ => exists_parseSegment
  simp only [parseTranscription, exists_bind_eq_ok, index_eq_ok, has_transcriptionFields, pure_eq_ok]
  simp [and_assoc, hsegments]

theorem caught_parseTranscription : Caught (parseTranscription body) ↔
    body.fields.isSome ∧ (Has TRANSCRIPTION_FIELDS body →
      ∃ items, (segmentsOf body).iterate = .ok items ∧ SegmentsLegible items) := by
  have hiterate : ∀ value : PyValue, Caught value.iterate ↔ ∃ items, value.iterate = .ok items := by
    intro value
    cases value <;> simp [PyValue.iterate, Caught]
  simp only [parseTranscription, caught_bind, caught_index, caught_pure, index_eq_ok, hiterate, caught_parseSegments,
    has_transcriptionFields, implies_true, and_true]
  constructor
  · rintro ⟨hfields, hjob⟩
    refine ⟨hfields, ?_⟩
    rintro ⟨⟨jobId, hid⟩, status, hstatus⟩
    obtain ⟨⟨items, hitems⟩, hlegible⟩ := (hjob jobId hid).2 status hstatus
    exact ⟨items, hitems, hlegible items hitems⟩
  · rintro ⟨hfields, hsegments⟩
    refine ⟨hfields, fun jobId hid => ⟨hfields, fun status hstatus => ?_⟩⟩
    obtain ⟨items, hitems, hlegible⟩ := hsegments ⟨⟨jobId, hid⟩, status, hstatus⟩
    refine ⟨⟨items, hitems⟩, fun items' hitems' => ?_⟩
    obtain rfl := Except.ok.inj (hitems'.symm.trans hitems)
    exact hlegible

end EPlatform.Webhooks
