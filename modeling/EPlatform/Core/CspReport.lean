import EPlatform.Core.PyValue

/-!
# Violation reports

`csp_report`, which anyone may post to. It answers or it raises, and it may log one line.
-/

namespace EPlatform.CspReport

def MAX_REPORT_BYTES : Nat := 8192

def MAX_FIELD_LENGTH : Nat := 200

def REPORTED_FIELDS : List String := ["document-uri", "violated-directive", "effective-directive", "blocked-uri"]

/-- `json.loads`, which raises a `ValueError` where it has no value, and `str` of a value that is no string. Both are any. -/
structure Python where
  loads : List UInt8 → Option PyValue
  repr : PyValue → PyString

/-- What is attached to a line of the log. -/
abbrev LogExtra := List (String × PyString)

structure HttpResponse where
  status : Nat
  logged : Option LogExtra

namespace Python

variable (python : Python)

/-- `json.loads(request.body or b"{}")`. -/
def payload (body : List UInt8) : Option PyValue :=
  python.loads (if body = [] then pyBytes "{}" else body)

/-- `payload.get("csp-report", payload)`, which only a dictionary has. -/
def getReport (payload : PyValue) : Except PyException PyValue :=
  match payload with
  | .dict fields => .ok ((PyValue.get fields "csp-report").getD payload)
  | _ => .error .attributeError

/-- The fields of the report. -/
def parse (body : List UInt8) : Except PyException (List (PyString × PyValue)) := do
  match python.payload body with
  | none => .error .valueError
  | some payload =>
    match (← getReport payload) with
    | .dict fields => .ok fields
    | _ => .error .valueError

/-- `field.replace("-", "_")`. -/
def extraKey (field : String) : String := field.map fun c => if c = '-' then '_' else c

/-- `str(report.get(field, ""))[:MAX_FIELD_LENGTH]`. -/
def reported (report : List (PyString × PyValue)) (field : String) : PyString :=
  (((PyValue.get report field).getD (.str [])).toStr python.repr).take MAX_FIELD_LENGTH

def extra (report : List (PyString × PyValue)) : LogExtra :=
  ("event", pyString "csp_violation") ::
    REPORTED_FIELDS.map fun field => (extraKey field, python.reported report field)

def cspReport (content : List UInt8) : Except PyException HttpResponse := do
  let body ← requestBody content
  if body.length > MAX_REPORT_BYTES then return ⟨204, none⟩
  match python.parse body with
  | .error .valueError => return ⟨204, none⟩
  | .error exc => throw exc
  | .ok report => return ⟨204, some (python.extra report)⟩

/-! ### What the endpoint promises -/

/-- The value under `csp-report`, or the whole payload where that key is absent. -/
def reportOf (payload : PyValue) : PyValue := (payload.fields.bind (PyValue.get · "csp-report")).getD payload

/-- The body is not too large, and its report is an object. -/
def IsReport (content : List UInt8) (report : List (PyString × PyValue)) : Prop :=
  content.length ≤ MAX_REPORT_BYTES ∧ ∃ payload ∈ python.payload content, (reportOf payload).fields = some report

/-- It is answered 204, and a line is logged exactly for a report: the declared fields, each cut to its length. -/
structure AnswersQuietly (content : List UInt8) (result : Except PyException HttpResponse) : Prop where
  answers : ∃ response, result = .ok response ∧ response.status = 204
  logs : ∀ response, result = .ok response → ∀ extra, response.logged = some extra ↔
    ∃ report, python.IsReport content report ∧ extra = python.extra report
  fields : ∀ response, result = .ok response → ∀ extra ∈ response.logged,
    extra.map Prod.fst = "event" :: REPORTED_FIELDS.map extraKey ∧ ∀ field ∈ extra, field.2.length ≤ MAX_FIELD_LENGTH

/-- The body can be read, and what it holds, if it is not too large and holds anything, is an object. -/
def HoldsObject (content : List UInt8) : Prop :=
  content.length ≤ DATA_UPLOAD_MAX_MEMORY_SIZE ∧
    (content.length ≤ MAX_REPORT_BYTES → ∀ payload ∈ python.payload content, payload.fields.isSome)

/-! ### What the endpoint does -/

variable {python} {content : List UInt8}

theorem length_extra (report : List (PyString × PyValue)) :
    (python.extra report).map Prod.fst = "event" :: REPORTED_FIELDS.map extraKey ∧
      ∀ field ∈ python.extra report, field.2.length ≤ MAX_FIELD_LENGTH := by
  refine ⟨rfl, ?_⟩
  intro field hfield
  rcases List.mem_cons.mp hfield with rfl | hreported
  · decide
  · obtain ⟨name, -, rfl⟩ := List.mem_map.mp hreported
    exact List.length_take_le _ _

/-- Nothing is logged of what is no report. -/
theorem answersQuietly_of_silent (h : ∀ report, ¬ python.IsReport content report) :
    python.AnswersQuietly content (.ok ⟨204, none⟩) := by
  refine ⟨⟨_, rfl, rfl⟩, ?_, ?_⟩
  · rintro response ⟨⟩ extra
    refine iff_of_false (by simp) ?_
    rintro ⟨report, hreport, -⟩
    exact h report hreport
  · rintro response ⟨⟩
    simp

theorem answersQuietly_of_report {report : List (PyString × PyValue)} (h : python.IsReport content report) :
    python.AnswersQuietly content (.ok ⟨204, some (python.extra report)⟩) := by
  have honly : ∀ report', python.IsReport content report' → report' = report := by
    rintro report' ⟨-, payload', hpayload', hreport'⟩
    obtain ⟨-, payload, hpayload, hreport⟩ := h
    obtain rfl := Option.mem_unique hpayload' hpayload
    exact Option.some.inj (hreport'.symm.trans hreport)
  refine ⟨⟨_, rfl, rfl⟩, ?_, ?_⟩
  · rintro response ⟨⟩ extra
    constructor
    · rintro ⟨⟩
      exact ⟨report, h, rfl⟩
    · rintro ⟨report', hreport', rfl⟩
      rw [honly report' hreport']
  · rintro response ⟨⟩ extra ⟨⟩
    exact length_extra report

theorem not_answersQuietly (content : List UInt8) (exc : PyException) : ¬ python.AnswersQuietly content (.error exc) := by
  rintro ⟨⟨response, hresponse, -⟩, -, -⟩
  cases hresponse

theorem getReport_of_fields {payload : PyValue} (h : payload.fields.isSome) : getReport payload = .ok (reportOf payload) := by
  cases payload with
  | dict fields => rfl
  | _ => simp [PyValue.fields] at h

theorem getReport_of_no_fields {payload : PyValue} (h : ¬ payload.fields.isSome) :
    getReport payload = .error .attributeError := by
  cases payload with
  | dict fields => simp [PyValue.fields] at h
  | _ => rfl

theorem parse_of_object {payload : PyValue} (hpayload : python.payload content = some payload)
    (h : payload.fields.isSome) : python.parse content =
      match (reportOf payload).fields with
      | some report => .ok report
      | none => .error .valueError := by
  rw [parse, hpayload]
  simp only [getReport_of_fields h]
  cases reportOf payload <;> rfl

theorem cspReport_of_readable (h : content.length ≤ DATA_UPLOAD_MAX_MEMORY_SIZE) : python.cspReport content =
    if content.length > MAX_REPORT_BYTES then .ok ⟨204, none⟩
    else
      match python.parse content with
      | .error .valueError => .ok ⟨204, none⟩
      | .error exc => .error exc
      | .ok report => .ok ⟨204, some (python.extra report)⟩ := by
  rw [cspReport, requestBody_of_le h]
  rfl

theorem answersQuietly_of_holdsObject (h : python.HoldsObject content) :
    python.AnswersQuietly content (python.cspReport content) := by
  obtain ⟨hread, hobject⟩ := h
  rw [cspReport_of_readable hread]
  split
  · rename_i hlarge
    exact answersQuietly_of_silent fun report hreport => absurd hreport.1 (Nat.not_le.mpr hlarge)
  · rename_i hsmall
    have hle : content.length ≤ MAX_REPORT_BYTES := Nat.le_of_not_gt hsmall
    cases hpayload : python.payload content with
    | none =>
      have hparse : python.parse content = .error .valueError := by
        rw [parse, hpayload]
      rw [hparse]
      refine answersQuietly_of_silent ?_
      rintro report ⟨-, payload, hin, -⟩
      exact absurd (hpayload.symm.trans hin) (by simp)
    | some payload =>
      rw [parse_of_object hpayload (hobject hle payload hpayload)]
      cases hreport : (reportOf payload).fields with
      | none =>
        refine answersQuietly_of_silent ?_
        rintro report ⟨-, payload', hin, hfields⟩
        obtain rfl := Option.mem_unique hin hpayload
        exact absurd (hreport.symm.trans hfields) (by simp)
      | some report => exact answersQuietly_of_report ⟨hle, payload, hpayload, hreport⟩

theorem holdsObject_of_answersQuietly (h : python.AnswersQuietly content (python.cspReport content)) :
    python.HoldsObject content := by
  by_cases hread : content.length ≤ DATA_UPLOAD_MAX_MEMORY_SIZE
  · refine ⟨hread, fun hle payload hpayload => ?_⟩
    by_contra hfields
    have hparse : python.parse content = .error .attributeError := by
      rw [parse, hpayload]
      simp only [getReport_of_no_fields hfields]
      rfl
    rw [cspReport_of_readable hread, if_neg (Nat.not_lt.mpr hle), hparse] at h
    exact not_answersQuietly content _ h
  · have hraises : python.cspReport content = .error .requestDataTooBig := by
      rw [cspReport, requestBody_of_not_le hread]
      rfl
    rw [hraises] at h
    exact absurd h (not_answersQuietly content _)

/-- The endpoint keeps its promise exactly where its body can be read and, if it is small and holds anything, holds an
object. -/
theorem answersQuietly_iff (python : Python) (content : List UInt8) :
    python.AnswersQuietly content (python.cspReport content) ↔ python.HoldsObject content :=
  ⟨holdsObject_of_answersQuietly, answersQuietly_of_holdsObject⟩

/-- `json.loads` on the bodies `[]` and `{}`, and `repr` on nothing. -/
def emptyBodies : Python where
  loads := fun body =>
    if body = pyBytes "[]" then some (.list []) else if body = pyBytes "{}" then some (.dict []) else none
  repr := fun _ => []

/-- An array raises. -/
theorem array_raises : ¬ emptyBodies.AnswersQuietly (pyBytes "[]") (emptyBodies.cspReport (pyBytes "[]")) := by
  intro hquiet
  have hobject := (holdsObject_of_answersQuietly hquiet).2 (by decide) (.list []) (by rfl)
  cases hobject

end Python

end EPlatform.CspReport
