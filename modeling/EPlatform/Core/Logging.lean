import EPlatform.Formats.JsonRoundTrip
import EPlatform.Formats.Lines

/-!
# The lines of the log

What `JsonFormatter` makes of a record and what the handler writes, one object to a line, and the ids of requests.
-/

namespace EPlatform.Logging

open Formats Formats.JsonText

/-! ### Request ids -/

def MAX_REQUEST_ID_LENGTH : Nat := 200

/-- `[A-Za-z0-9._:-]`. -/
def IsSafeCharacter (c : Point) : Prop :=
  (65 ≤ c.val ∧ c.val ≤ 90) ∨ (97 ≤ c.val ∧ c.val ≤ 122) ∨ (48 ≤ c.val ∧ c.val ≤ 58) ∨ c.val = 45 ∨ c.val = 46 ∨ c.val = 95

instance : DecidablePred IsSafeCharacter := fun c => inferInstanceAs (Decidable
  ((65 ≤ c.val ∧ c.val ≤ 90) ∨ (97 ≤ c.val ∧ c.val ≤ 122) ∨ (48 ≤ c.val ∧ c.val ≤ 58) ∨ c.val = 45 ∨ c.val = 46 ∨ c.val = 95))

/-- `_SAFE_REQUEST_ID`. -/
def IsSafe (id : Text) : Prop := (1 ≤ id.length ∧ id.length ≤ MAX_REQUEST_ID_LENGTH) ∧ ∀ c ∈ id, IsSafeCharacter c

instance : DecidablePred IsSafe := fun id => inferInstanceAs
  (Decidable ((1 ≤ id.length ∧ id.length ≤ MAX_REQUEST_ID_LENGTH) ∧ ∀ c ∈ id, IsSafeCharacter c))

/-- `new_request_id()`: hexadecimal digits and dashes. -/
structure FreshId where
  text : Text
  safe : IsSafe text

/-- `sanitise_request_id`, and what it mints if it does. -/
def sanitiseRequestId (candidate : Option Text) (fresh : FreshId) : Text :=
  match candidate with
  | some candidate => if IsSafe candidate then candidate else fresh.text
  | none => fresh.text

def NO_REQUEST : Text := points "-"

/-- What `RequestIDFilter` puts on a record. -/
def requestIdOf (current : Text) : Text := if current = [] then NO_REQUEST else current

theorem isSafe_noRequest : IsSafe NO_REQUEST := by
  refine ⟨⟨by decide, by decide⟩, fun c hc => ?_⟩
  rw [List.mem_singleton.mp hc]
  decide

theorem isSafe_sanitiseRequestId (candidate : Option Text) (fresh : FreshId) : IsSafe (sanitiseRequestId candidate fresh) := by
  cases candidate with
  | none => exact fresh.safe
  | some candidate =>
    rw [sanitiseRequestId]
    split_ifs with hsafe
    · exact hsafe
    · exact fresh.safe

theorem sanitiseRequestId_of_isSafe {id : Text} (h : IsSafe id) (fresh : FreshId) : sanitiseRequestId (some id) fresh = id :=
  if_pos h

theorem requestIdOf_of_isSafe {id : Text} (h : IsSafe id) : requestIdOf id = id := by
  refine if_neg ?_
  rintro rfl
  exact absurd h.1.1 (by decide)

/-! ### Records -/

variable {F : Type}

/-- A record: `attributes` is its `__dict__`, in its order. An attribute that JSON does not have stands as its `str`. -/
structure LogRecord (F : Type) where
  timestamp : Text
  levelname : Text
  name : Text
  message : Text
  attributes : List (Text × Document F)
  exception : Option Text

def STANDARD_RECORD_FIELDS : List Text :=
  ["name", "msg", "args", "levelname", "levelno", "pathname", "filename", "module", "exc_info", "exc_text", "stack_info",
    "lineno", "funcName", "created", "msecs", "relativeCreated", "thread", "threadName", "processName", "process", "message",
    "asctime", "taskName", "request_id"].map points

namespace LogRecord

variable (record : LogRecord F) (requestId : Text)

/-- What was passed through `extra=`. -/
def extra : List (Text × Document F) := record.attributes.filter fun field => field.1 ∉ STANDARD_RECORD_FIELDS

def standardFields : List (Text × Document F) :=
  [(points "timestamp", .str record.timestamp), (points "level", .str record.levelname), (points "logger", .str record.name),
    (points "message", .str record.message), (points "request_id", .str requestId)]

/-- `payload`, where what comes later takes the place of what has its key. -/
def payload : Document F :=
  .dict (ofPairs (record.standardFields requestId ++ record.extra ++
    record.exception.toList.map fun exception => (points "exception", .str exception)))

end LogRecord

/-- No text of the record has the halves of a character in it one by one, and its attributes can be read again. -/
structure LogRecord.IsLegible (floats : FloatText F) (record : LogRecord F) : Prop where
  timestamp : WellPaired record.timestamp
  levelname : WellPaired record.levelname
  name : WellPaired record.name
  message : WellPaired record.message
  attributes : ∀ field ∈ record.attributes, WellPaired field.1 ∧ IsReadable floats field.2
  exception : ∀ exception, record.exception = some exception → WellPaired exception

/-! ### Fields -/

/-- `fields.get(key)`. -/
def fieldOf (key : Text) : Document F → Option (Document F)
  | .dict fields => (fields.find? (·.1 = key)).map Prod.snd
  | _ => none

section PutField

variable {α : Type} {key : Text} {fields pairs : List (Text × α)} {field : Text × α}

theorem find?_putField (hne : field.1 ≠ key) :
    ((putField fields field).find? (·.1 = key)).map Prod.snd = (fields.find? (·.1 = key)).map Prod.snd := by
  unfold putField
  split_ifs with hmem
  · rw [List.find?_map]
    have hkeys : ((fun other : Text × α => decide (other.1 = key)) ∘
        fun other => if other.1 = field.1 then field else other) = fun other => decide (other.1 = key) := by
      funext other
      simp only [Function.comp_apply]
      split_ifs with heq
      · rw [heq]
      · rfl
    rw [hkeys, Option.map_map]
    cases hfind : fields.find? fun other => decide (other.1 = key) with
    | none => rfl
    | some found =>
      have hfound : found.1 = key := by simpa using List.find?_some hfind
      simp only [Option.map_some, Function.comp_apply]
      rw [if_neg fun heq => hne (heq.symm.trans hfound)]
  · rw [List.find?_append, List.find?_singleton]
    simp [hne]

/-- Later fields of other keys leave a field as it is. -/
theorem find?_foldl_putField (h : ∀ pair ∈ pairs, pair.1 ≠ key) :
    ((pairs.foldl putField fields).find? (·.1 = key)).map Prod.snd = (fields.find? (·.1 = key)).map Prod.snd := by
  induction pairs generalizing fields with
  | nil => rfl
  | cons pair pairs ih =>
    rw [List.foldl_cons, ih fun other hother => h other (List.mem_cons_of_mem _ hother),
      find?_putField (h pair List.mem_cons_self)]

end PutField

variable {record : LogRecord F} {requestId : Text}

/-- Neither what is passed as extra nor an exception takes the place of a field the formatter keeps to itself. -/
theorem fieldOf_payload {key : Text} (hstandard : key ∈ STANDARD_RECORD_FIELDS) (hexception : key ≠ points "exception") :
    fieldOf key (record.payload requestId) = fieldOf key (.dict (ofPairs (record.standardFields requestId))) := by
  have hlater : ∀ pair ∈ record.extra ++ record.exception.toList.map (fun exception =>
      (points "exception", (Document.str exception : Document F))), pair.1 ≠ key := by
    intro pair hpair
    obtain hextra | hexc := List.mem_append.mp hpair
    · have hother := (List.mem_filter.mp hextra).2
      rintro rfl
      simp [hstandard] at hother
    · obtain ⟨exception, -, rfl⟩ := List.mem_map.mp hexc
      exact hexception.symm
  rw [LogRecord.payload, List.append_assoc, ofPairs, List.foldl_append, fieldOf, find?_foldl_putField hlater]
  rfl

theorem fieldOf_message : fieldOf (points "message") (record.payload requestId) = some (.str record.message) := by
  rw [fieldOf_payload (by decide) (by decide)]
  rfl

theorem fieldOf_requestId : fieldOf (points "request_id") (record.payload requestId) = some (.str requestId) := by
  rw [fieldOf_payload (by decide) (by decide)]
  rfl

theorem IsSafe.printable {id : Text} (h : IsSafe id) : Printable id := by
  intro c hc
  have hc := h.2 c hc
  unfold IsSafeCharacter at hc
  exact ⟨by omega, by omega⟩

theorem isReadable_payload {floats : FloatText F} (h : record.IsLegible floats) (hid : IsSafe requestId) :
    IsReadable floats (record.payload requestId) := by
  refine ⟨fieldsReadable_iff.mpr fun field hfield => ?_, (ofPairs_facts _).2⟩
  obtain hfield | hfield := List.mem_append.mp ((ofPairs_facts _).1 field hfield)
  · obtain hfield | hfield := List.mem_append.mp hfield
    · simp only [LogRecord.standardFields, List.mem_cons, List.not_mem_nil, or_false] at hfield
      obtain rfl | rfl | rfl | rfl | rfl := hfield
      · exact ⟨wellPaired_points _, h.timestamp⟩
      · exact ⟨wellPaired_points _, h.levelname⟩
      · exact ⟨wellPaired_points _, h.name⟩
      · exact ⟨wellPaired_points _, h.message⟩
      · exact ⟨wellPaired_points _, hid.printable.wellPaired⟩
    · exact h.attributes field (List.mem_of_mem_filter hfield)
  · obtain ⟨exception, hexception, rfl⟩ := List.mem_map.mp hfield
    exact ⟨wellPaired_points _, h.exception exception (by simpa using hexception)⟩

end EPlatform.Logging
