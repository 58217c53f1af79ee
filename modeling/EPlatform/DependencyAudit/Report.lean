import EPlatform.Catalog.Filters
import EPlatform.Runs.Transaction
import Mathlib.Data.List.Perm.Subperm
import Mathlib.Data.Rat.Defs

/-!
# Reading an audit report and its exceptions

The two validators of `assert-dependency-audit.mjs`, over any JSON. A property that is not there is `none`.
-/

namespace EPlatform.DependencyAudit

open Runs

/-- What is beyond the source: the number of a JSON literal, `value > 0`, and the text of a value that is no string. -/
structure JavaScript where
  number : Int → Int → ℚ
  isPositive : Option Json → Bool
  toText : Json → String

inductive AuditError
  | invalid (message : String)
  | typeError
  | outOfFuel
  | runsForever
  deriving DecidableEq, Repr

/-- The code raises it. -/
def AuditError.IsRaised : AuditError → Prop
  | .invalid _ => True
  | .typeError => True
  | .outOfFuel => False
  | .runsForever => False

def requireValid (condition : Prop) [Decidable condition] (message : String) : Except AuditError Unit :=
  require condition (.invalid message)

/-! ### Properties -/

/-- A property of an object's own. -/
def own : Json → String → Option Json
  | .obj fields, key => (fields.find? (·.1 = key)).map (·.2)
  | _, _ => none

/-- `value?.key`. -/
def member (value : Option Json) (key : String) : Option Json := value.bind (own · key)

/-- `value[name]` for any name. The only object that is inherited is `__proto__`, and it has no properties. -/
def lookup (value : Json) (name : String) : Option Json :=
  (own value name).or (if name = "__proto__" then some (.obj []) else none)

/-- `Object.entries`. -/
def entries : Option Json → List (String × Json)
  | some (.obj fields) => fields
  | _ => []

def utf16Length (text : String) : Nat :=
  text.toList.foldl (fun length c => length + if 0xffff < c.toNat then 2 else 1) 0

/-- `Object.keys`, of a value that is spread. -/
def keys : Option Json → List String
  | some (.obj fields) => fields.map (·.1)
  | some (.arr items) => (List.range items.length).map Nat.repr
  | some (.str text) => (List.range (utf16Length text)).map Nat.repr
  | _ => []

/-- `Object.hasOwn(value ?? {}, name)`. -/
def hasOwn (value : Option Json) (name : String) : Bool :=
  match value with
  | some (.arr _) => name ∈ keys value || name = "length"
  | some (.str _) => name ∈ keys value || name = "length"
  | value => name ∈ keys value

/-- `object(value)`. -/
def isObject : Option Json → Bool
  | some (.obj _) => true
  | _ => false

def isString (value : Option Json) : Option String := value.bind Json.text

/-- `text(value)`. -/
def isText (value : Option Json) : Bool := (isString value).any fun text => Catalog.trim text ≠ ""

def items : Option Json → List Json
  | some (.arr items) => items
  | _ => []

def LEVELS : List String := ["info", "low", "moderate", "high", "critical"]

def isLevel (severity : Option Json) : Bool := (isString severity).any (· ∈ LEVELS)

/-- `levels.indexOf(severity) >= 3`. -/
def isHigh (severity : Option Json) : Bool := (isString severity).any (· ∈ LEVELS.drop 3)

namespace JavaScript

variable (js : JavaScript)

def isTruthy : Option Json → Bool
  | none => false
  | some .null => false
  | some (.bool value) => value
  | some (.num mantissa exponent) => js.number mantissa exponent ≠ 0
  | some (.str text) => text ≠ ""
  | some (.arr _) => true
  | some (.obj _) => true

/-- `value === n`. -/
def isNumber (value : Option Json) (n : Nat) : Bool :=
  match value with
  | some (.num mantissa exponent) => js.number mantissa exponent = n
  | _ => false

/-- `${value}`. -/
def textOf : Option Json → String
  | none => "undefined"
  | some (.str text) => text
  | some value => js.toText value

/-! ### The report -/

def validateVia (vulnerabilities : Json) (via : Json) : Except AuditError Unit :=
  match via with
  | .str name => requireValid (isObject (lookup vulnerabilities name) = true) "Audit transitive cause is missing."
  | via =>
    requireValid (isObject (some via) = true ∧ isLevel (own via "severity") = true ∧ isText (own via "url") = true ∧
      isText (own via "title") = true) "Invalid audit advisory."

def validateFinding (vulnerabilities : Json) (entry : String × Json) : Except AuditError Unit := do
  let (name, finding) := entry
  requireValid (isObject (some finding) = true ∧ isString (own finding "name") = some name ∧
    isLevel (own finding "severity") = true) "Invalid audit finding."
  requireValid ((items (own finding "nodes")).length > 0 ∧ (items (own finding "nodes")).all (isText ·) = true)
    "Audit finding has no installed nodes."
  requireValid ((items (own finding "via")).length > 0) "Audit finding has no cause."
  (items (own finding "via")).forM (validateVia vulnerabilities)

/-- `causes`. The walk is cut off by `fuel`, which it never spends. -/
def causes (vulnerabilities : Json) : Nat → String → List String → Except AuditError (List Json)
  | 0, _, _ => .error .outOfFuel
  | fuel + 1, name, stack => do
    requireValid (name ∉ stack) "Audit cause cycle."
    match member (lookup vulnerabilities name) "via" with
    | some (.arr via) =>
      let found ← via.mapM fun via =>
        match via with
        | .str cause => causes vulnerabilities fuel cause (stack ++ [name])
        | via => .ok [via]
      return found.flatten
    | _ => .error .typeError

def validateCause (vulnerabilities : Json) (entry : String × Json) : Except AuditError Unit :=
  if isHigh (own entry.2 "severity") then do
    let found ← causes vulnerabilities ((entries (some vulnerabilities)).length + 1) entry.1 []
    requireValid (found.any (fun via => isHigh (own via "severity")) = true)
      "Audit severity has no matching advisory cause."
  else .ok ()

def validateReport (report : Json) : Except AuditError Unit := do
  let vulnerabilities := own report "vulnerabilities"
  requireValid (isObject (some report) = true ∧ js.isTruthy (own report "error") = false ∧
    js.isNumber (own report "auditReportVersion") 2 = true ∧ isObject vulnerabilities = true) "Invalid audit report."
  let counts := member (own report "metadata") "vulnerabilities"
  requireValid (isObject counts = true ∧
    js.isPositive (member (member (own report "metadata") "dependencies") "total") = true)
    "Invalid audit metadata or empty dependency inventory."
  (entries vulnerabilities).forM (validateFinding (vulnerabilities.getD .null))
  let actual (level : String) : Nat :=
    ((entries vulnerabilities).filter fun entry => isString (own entry.2 "severity") = some level).length
  requireValid ((LEVELS.all fun level => js.isNumber (member counts level) (actual level)) = true ∧
    js.isNumber (member counts "total") (entries vulnerabilities).length = true) "Audit counts disagree with findings."
  (entries vulnerabilities).forM (validateCause (vulnerabilities.getD .null))

end JavaScript

/-! ### Exceptions -/

def isLowerAlphanumeric (c : Char) : Bool := ('a' ≤ c && c ≤ 'z') || c.isDigit

/-- `/^GHSA-[a-z0-9]{4}-[a-z0-9]{4}-[a-z0-9]{4}$/`. -/
def isAdvisoryId (text : String) : Bool :=
  match text.toList.splitOn '-' with
  | [prefixed, first, second, third] =>
    prefixed = "GHSA".toList && [first, second, third].all fun part => part.length = 4 && part.all isLowerAlphanumeric
  | _ => false

/-- The numbers of `/^\d{4}-\d{2}-\d{2}$/`. -/
def dateParts (text : String) : Option (Nat × Nat × Nat) :=
  match text.toList.splitOn '-' with
  | [year, month, day] =>
    if year.length = 4 ∧ month.length = 2 ∧ day.length = 2 ∧ (year ++ month ++ day).all Char.isDigit then
      some (Nat.ofDigitChars 10 year 0, Nat.ofDigitChars 10 month 0, Nat.ofDigitChars 10 day 0)
    else none
  | _ => none

def isLeap (year : Nat) : Bool := year % 4 = 0 && (year % 100 ≠ 0 || year % 400 = 0)

def daysInMonth (year month : Nat) : Nat :=
  [31, if isLeap year then 29 else 28, 31, 30, 31, 30, 31, 31, 30, 31, 30, 31].getD (month - 1) 0

/-- `new Date("...T23:59:59.999Z")` in milliseconds, for a day the calendar has. -/
def deadlineOf (reviewBy : String) : Option Int :=
  match dateParts reviewBy with
  | some (year, month, day) =>
    if 1 ≤ month ∧ month ≤ 12 ∧ 1 ≤ day ∧ day ≤ daysInMonth year month then
      let daysBefore : Nat := 365 * year + (year + 3) / 4 - (year + 99) / 100 + (year + 399) / 400 +
        (List.range (month - 1)).foldl (fun days before => days + daysInMonth year (before + 1)) 0 + (day - 1)
      some (((daysBefore : Int) - 719528 + 1) * 86400000 - 1)
    else none
  | none => none

/-- The strings of an exception's `path`. -/
def pathOf (entry : Json) : List String := (items (own entry "path")).filterMap Json.text

namespace JavaScript

variable (js : JavaScript)

def validateException (now : Int) (entry : Json) : Except AuditError String := do
  let parts := items (own entry "path")
  let advisory := js.textOf (own entry "advisory")
  let reviewBy := js.textOf (own entry "reviewBy")
  requireValid (isObject (some entry) = true ∧ isAdvisoryId advisory = true ∧ parts.length > 0 ∧
    (parts.all fun part => isText (some part) &&
      (isString (some part)).any fun text => '>' ∉ text.toList && '*' ∉ text.toList) = true ∧
    isText (own entry "reason") = true ∧ isText (own entry "triager") = true ∧ (dateParts reviewBy).isSome = true)
    "Invalid exception: advisory, exact path, reason, triager and reviewBy are required."
  requireValid ((deadlineOf reviewBy).isSome = true) "Invalid exception review date."
  requireValid (∀ deadline ∈ deadlineOf reviewBy, now ≤ deadline)
    ("Expired exception: " ++ advisory ++ "; review with " ++ js.textOf (own entry "triager") ++ ".")
  return advisory ++ "|" ++ ">".intercalate (pathOf entry)

def validateExceptions (exceptions : Json) (now : Int) : Except AuditError Unit :=
  match exceptions with
  | .arr exceptions => do
    -- one after the other, each before the next is looked at
    let _ ← exceptions.foldlM (fun (seen : List String) entry => do
      let key ← js.validateException now entry
      requireValid (key ∉ seen) "Duplicate exception."
      return key :: seen) []
  | _ => requireValid False "Invalid exception list."

end JavaScript

/-! ### The walk over causes ends -/

theorem mem_entries_of_own {value : Json} {name : String} {found : Json} (h : own value name = some found) :
    name ∈ (entries (some value)).map (·.1) := by
  cases value with
  | obj fields =>
    obtain ⟨entry, hentry, -⟩ := Option.map_eq_some_iff.mp h
    have hname : entry.1 = name := by simpa using List.find?_some hentry
    exact List.mem_map.mpr ⟨entry, List.mem_of_find?_eq_some hentry, hname⟩
  | _ => cases h

/-- What has a property was found under a name of the object's own. -/
theorem mem_entries_of_lookup {value : Json} {name key : String} {found : Json}
    (h : member (lookup value name) key = some found) : name ∈ (entries (some value)).map (·.1) := by
  cases hown : own value name with
  | some finding => exact mem_entries_of_own hown
  | none =>
    rw [lookup, hown, Option.none_or] at h
    by_cases hproto : name = "__proto__"
    · rw [if_pos hproto] at h
      cases h
    · rw [if_neg hproto] at h
      cases h

theorem requireValid_raises {condition : Prop} [Decidable condition] {message : String} :
    RaisesOnly AuditError.IsRaised (requireValid condition message) := RaisesOnly.require trivial

theorem requireValid_bind_raises {α : Type} {condition : Prop} [Decidable condition] {message : String}
    {k : PUnit → Except AuditError α} (h : condition → RaisesOnly AuditError.IsRaised (k ⟨⟩)) :
    RaisesOnly AuditError.IsRaised (requireValid condition message >>= k) :=
  requireValid_raises.bind fun _ hcondition => h (require_eq_ok.mp hcondition)

namespace JavaScript

variable {js : JavaScript}

/-- The names on the stack are different names of findings, so that there is fuel for all of them. -/
theorem causes_raises {vulnerabilities : Json} {fuel : Nat} {name : String} {stack : List String} (hnodup : stack.Nodup)
    (hstack : stack ⊆ (entries (some vulnerabilities)).map (·.1))
    (hfuel : (entries (some vulnerabilities)).length < fuel + stack.length) :
    RaisesOnly AuditError.IsRaised (causes vulnerabilities fuel name stack) := by
  induction fuel generalizing name stack with
  | zero =>
    have hle := (List.subperm_of_subset hnodup hstack).length_le
    rw [List.length_map] at hle
    omega
  | succ fuel ih =>
    rw [causes]
    apply requireValid_bind_raises
    intro hname
    split
    · rename_i via hvia
      have hcauses : ∀ cause, RaisesOnly AuditError.IsRaised (causes vulnerabilities fuel cause (stack ++ [name])) := by
        intro cause
        apply ih
        · exact List.nodup_append.mpr ⟨hnodup, List.nodup_singleton name, by
            intro other hother _ hlast heq
            exact hname (List.mem_singleton.mp hlast ▸ heq ▸ hother)⟩
        · exact List.append_subset.mpr
            ⟨hstack, fun other hother => List.mem_singleton.mp hother ▸ mem_entries_of_lookup hvia⟩
        · rw [List.length_append, List.length_singleton]
          omega
      refine RaisesOnly.bind (RaisesOnly.mapM fun cause _ => ?_) fun _ _ => RaisesOnly.ok _
      split
      · exact hcauses _
      · exact RaisesOnly.ok _
    · intro e he
      cases he
      trivial

theorem validateFinding_raises (vulnerabilities : Json) (entry : String × Json) :
    RaisesOnly AuditError.IsRaised (validateFinding vulnerabilities entry) := by
  apply requireValid_bind_raises
  intro _
  apply requireValid_bind_raises
  intro _
  apply requireValid_bind_raises
  intro _
  apply RaisesOnly.forM
  intro via _
  unfold validateVia
  split
  · exact requireValid_raises
  · exact requireValid_raises

theorem validateCause_raises (vulnerabilities : Json) (entry : String × Json) :
    RaisesOnly AuditError.IsRaised (validateCause vulnerabilities entry) := by
  unfold validateCause
  split
  · apply RaisesOnly.bind
    · exact causes_raises List.nodup_nil (List.nil_subset _) (Nat.lt_succ_self _)
    · exact fun _ _ => requireValid_raises
  · exact RaisesOnly.ok _

theorem validateReport_raises (report : Json) : RaisesOnly AuditError.IsRaised (js.validateReport report) := by
  apply requireValid_bind_raises
  intro _
  apply requireValid_bind_raises
  intro _
  apply RaisesOnly.bind (RaisesOnly.forM fun entry _ => validateFinding_raises _ entry)
  intro _ _
  apply requireValid_bind_raises
  intro _
  exact RaisesOnly.forM fun entry _ => validateCause_raises _ entry

theorem validateException_raises (now : Int) (entry : Json) :
    RaisesOnly AuditError.IsRaised (js.validateException now entry) := by
  apply requireValid_bind_raises
  intro _
  apply requireValid_bind_raises
  intro _
  apply requireValid_bind_raises
  intro _
  exact RaisesOnly.ok _

theorem validateExceptions_raises (exceptions : Json) (now : Int) :
    RaisesOnly AuditError.IsRaised (js.validateExceptions exceptions now) := by
  unfold validateExceptions
  split
  · rename_i exceptions
    refine RaisesOnly.bind (RaisesOnly.foldlM ?_ []) fun _ _ => RaisesOnly.ok _
    intro seen entry _
    apply RaisesOnly.bind (validateException_raises now entry)
    intro key _
    exact requireValid_bind_raises fun _ => RaisesOnly.ok _
  · exact requireValid_raises

/-! ### What has been validated -/

theorem exists_of_isText {value : Option Json} (h : isText value = true) : ∃ text, value = some (.str text) := by
  cases value with
  | none => cases h
  | some value =>
    cases value with
    | str text => exact ⟨text, rfl⟩
    | _ => cases h

/-- An advisory object of a finding has a URL. -/
theorem url_of_validateReport {report : Json} (h : js.validateReport report = .ok ⟨⟩) {entry : String × Json}
    (hentry : entry ∈ entries (own report "vulnerabilities")) {advisory : Json}
    (hadvisory : advisory ∈ items (own entry.2 "via")) (hobject : isObject (some advisory) = true) :
    ∃ url, own advisory "url" = some (.str url) := by
  simp only [validateReport, bind_eq_ok] at h
  obtain ⟨_, _, _, _, _, hfindings, _⟩ := h
  have hfinding := forM_eq_ok.mp hfindings entry hentry
  simp only [validateFinding, bind_eq_ok] at hfinding
  obtain ⟨_, _, _, _, _, _, hvias⟩ := hfinding
  have hvia := forM_eq_ok.mp hvias advisory hadvisory
  cases advisory with
  | obj fields => exact exists_of_isText (require_eq_ok.mp hvia).2.2.1
  | _ => cases hobject

theorem map_str_filterMap {parts : List Json} (h : ∀ part ∈ parts, ∃ text, part = .str text) :
    (parts.filterMap Json.text).map Json.str = parts := by
  induction parts with
  | nil => rfl
  | cons part parts ih =>
    obtain ⟨text, rfl⟩ := h part List.mem_cons_self
    rw [List.filterMap_cons_some (show Json.text (.str text) = some text from rfl), List.map_cons,
      ih fun part hpart => h part (List.mem_cons_of_mem _ hpart)]

/-- An exception names an advisory, has a path of texts without the character they are joined with, and is not
expired. -/
theorem path_of_validateExceptions {exceptions : Json} {now : Int} (h : js.validateExceptions exceptions now = .ok ⟨⟩)
    {entry : Json} (hentry : entry ∈ items (some exceptions)) : own entry "advisory" ≠ none ∧
      own entry "path" = some (.arr ((pathOf entry).map Json.str)) ∧ pathOf entry ≠ [] ∧
      (∀ name ∈ pathOf entry, '>' ∉ name.toList) ∧
      ∃ deadline, deadlineOf (js.textOf (own entry "reviewBy")) = some deadline ∧ now ≤ deadline := by
  cases exceptions with
  | arr exceptions =>
    simp only [validateExceptions, bind_eq_ok] at h
    obtain ⟨_, hfold, _⟩ := h
    obtain ⟨_, _, hvalid⟩ := exists_of_foldlM_eq_ok hfold hentry
    simp only [validateException, requireValid, bind_eq_ok, require_eq_ok, exists_const] at hvalid
    obtain ⟨_, ⟨⟨-, hadvisory, hparts, hall, -⟩, hdate, hreview, -⟩, -⟩ := hvalid
    rw [List.all_eq_true] at hall
    have htexts : ∀ part ∈ items (own entry "path"), ∃ text, part = .str text ∧ '>' ∉ text.toList := by
      intro part hpart
      have hpart := hall part hpart
      rw [Bool.and_eq_true] at hpart
      obtain ⟨text, htext⟩ := exists_of_isText hpart.1
      cases htext
      have hfree := hpart.2
      simp only [isString, Json.text, Option.bind_some, Option.any_some, Bool.and_eq_true, decide_eq_true_eq] at hfree
      exact ⟨text, rfl, hfree.1⟩
    have hmap : (pathOf entry).map Json.str = items (own entry "path") :=
      map_str_filterMap fun part hpart => (htexts part hpart).imp fun _ h => h.1
    refine ⟨?_, ?_, ?_, ?_, ?_⟩
    · intro hnone
      rw [hnone] at hadvisory
      exact absurd hadvisory (show ¬ isAdvisoryId "undefined" = true by decide)
    · cases hpath : own entry "path" with
      | none =>
        rw [hpath] at hparts
        exact absurd hparts (Nat.lt_irrefl 0)
      | some path =>
        cases path with
        | arr parts =>
          rw [hpath] at hmap
          rw [hmap]
          rfl
        | _ =>
          rw [hpath] at hparts
          exact absurd hparts (Nat.lt_irrefl 0)
    · intro hnil
      rw [hnil] at hmap
      rw [← hmap] at hparts
      exact absurd hparts (Nat.lt_irrefl 0)
    · intro name hname
      obtain ⟨text, heq, hfree⟩ := htexts (.str name) (hmap ▸ List.mem_map_of_mem hname)
      cases heq
      exact hfree
    · obtain ⟨deadline, hdeadline⟩ := Option.isSome_iff_exists.mp hdate
      exact ⟨deadline, hdeadline, hreview deadline hdeadline⟩
  | _ => cases hentry

end JavaScript

end EPlatform.DependencyAudit
