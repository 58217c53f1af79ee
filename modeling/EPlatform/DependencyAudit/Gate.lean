import EPlatform.DependencyAudit.Lockfile

/-!
# The dependency gate fails closed

`evaluateAudit`, and what follows when it returns without a failure: nothing high or critical is installed but by paths
that are for development only and excepted one by one.
-/

namespace EPlatform.DependencyAudit

open Runs Formats Graphs

/-- What one advisory comes to on one path. An exception is known by its advisory and path, which no other repeats. -/
inductive Verdict
  | failure (message : String)
  | suppressed (key message : String)

def Verdict.isFailure : Verdict → Option String
  | .failure message => some message
  | .suppressed _ _ => none

structure Audit where
  failures : List String
  suppressed : List String
  stale : List String

def ADVISORIES : String := "https://github.com/advisories/"

/-- `/^https:\/\/github\.com\/advisories\/(GHSA-[a-z0-9-]+)$/.exec(url)?.[1]`. -/
def advisoryId (url : String) : Option String :=
  let id := url.toList.drop ADVISORIES.length
  let tail := id.drop 5
  if url.toList.take ADVISORIES.length = ADVISORIES.toList ∧ id.take 5 = "GHSA-".toList ∧ tail ≠ [] ∧
      (tail.all fun c => isLowerAlphanumeric c || c = '-') then
    some (String.ofList id)
  else none

def joined (names : List String) : String := ">".intercalate names

/-- `exceptions.filter((entry) => entry.advisory === id)`. -/
def candidatesFor (exceptions : List Json) (id : Option String) : List Json :=
  exceptions.filter fun entry =>
    match id with
    | some id => isString (own entry "advisory") = some id
    | none => (own entry "advisory").isNone

namespace JavaScript

variable (js : JavaScript)

def keyOf (entry : Json) : String := js.textOf (own entry "advisory") ++ "|" ++ joined (pathOf entry)

def judgePath (label : String) (candidates : List Json) (path : InstalledPath) : Verdict :=
  let label := label ++ "|" ++ joined path.names
  match candidates.find? fun entry => joined (pathOf entry) = joined path.names with
  | some entry =>
    if path.dev then
      .suppressed (js.keyOf entry) (label ++ " — triager: " ++ js.textOf (own entry "triager") ++ "; review by " ++
        js.textOf (own entry "reviewBy") ++ "; " ++ js.textOf (own entry "reason"))
    else .failure (label ++ " (not development-only)")
  | none => .failure (label ++ if path.dev then "" else " (not development-only)")

def judgeNode (packages : Option Json) (edges : List Edge) (label : String) (candidates : List Json) (node : String) :
    Except AuditError (List Verdict) :=
  (pathsTo packages edges node).map fun paths => paths.map (js.judgePath label candidates)

def judgeAdvisory (packages : Option Json) (edges : List Edge) (exceptions : List Json) (nodes : List String)
    (advisory : Json) : Except AuditError (List Verdict) :=
  if (isString (some advisory)).isSome ∨ isHigh (own advisory "severity") = false then .ok []
  else
    let url := js.textOf (own advisory "url")
    let id := advisoryId url
    let candidates := candidatesFor exceptions id
    if candidates = [] then .ok [.failure (id.getD url ++ ": " ++ js.textOf (own advisory "title"))]
    else (nodes.mapM (js.judgeNode packages edges (id.getD "undefined") candidates)).map List.flatten

def nodesOf (finding : Json) : List String := (items (own finding "nodes")).filterMap Json.text

def judgeFinding (packages : Option Json) (edges : List Edge) (exceptions : List Json) (entry : String × Json) :
    Except AuditError (List Verdict) :=
  ((items (own entry.2 "via")).mapM (js.judgeAdvisory packages edges exceptions (nodesOf entry.2))).map List.flatten

/-- The last lines of `evaluateAudit`. -/
def summarise (exceptions : List Json) (verdicts : List Verdict) : Audit where
  failures := (verdicts.filterMap Verdict.isFailure).eraseDups
  suppressed := (verdicts.filterMap fun verdict =>
    match verdict with
    | .suppressed _ message => some message
    | .failure _ => none).eraseDups
  stale := (exceptions.map js.keyOf).filter fun key => verdicts.all fun verdict =>
    match verdict with
    | .suppressed used _ => used ≠ key
    | .failure _ => true

def evaluateAudit (report lock exceptions : Json) (now : Int) : Except AuditError Audit := do
  js.validateReport report
  js.validateExceptions exceptions now
  let edges ← js.installedPaths lock
  let verdicts ← (entries (own report "vulnerabilities")).mapM
    (js.judgeFinding (own lock "packages") edges (items (some exceptions)))
  return js.summarise (items (some exceptions)) verdicts.flatten

end JavaScript

/-! ### What the gate promises -/

/-- An exception for the advisory that lists exactly these names and is still to be reviewed. -/
structure Excepts (js : JavaScript) (now : Int) (advisory : Json) (names : List String) (entry : Json) : Prop where
  advisory : ∃ id, own entry "advisory" = some (.str id) ∧ own advisory "url" = some (.str (ADVISORIES ++ id))
  path : own entry "path" = some (.arr (names.map Json.str))
  reviewBy : ∃ deadline, deadlineOf (js.textOf (own entry "reviewBy")) = some deadline ∧ now ≤ deadline

/-- The node is reached from the root, and only for development and as excepted. -/
structure AccountedFor (js : JavaScript) (lock exceptions : Json) (now : Int) (advisory : Json) (node : String) : Prop where
  installed : ∃ steps, PathTo lock node steps
  developmentOnly : ∀ steps, PathTo lock node steps → DevelopmentOnly (own lock "packages") steps
  excepted : ∀ steps, PathTo lock node steps →
    ∃ entry ∈ items (some exceptions), Excepts js now advisory (namesOf steps) entry

/-- No name of a dependency has the character paths are joined with. -/
def NamesFree (lock : Json) : Prop :=
  ∀ entry ∈ entries (own lock "packages"), ∀ name ∈ dependencyNames entry.1 entry.2, '>' ∉ name.toList

/-! ### Joined names -/

theorem joined_injective {names names' : List String} (hne : names ≠ []) (hne' : names' ≠ [])
    (hfree : ∀ name ∈ names, '>' ∉ name.toList) (hfree' : ∀ name ∈ names', '>' ∉ name.toList)
    (h : joined names = joined names') : names = names' := by
  have hsplit : ∀ names : List String, names ≠ [] → (∀ name ∈ names, '>' ∉ name.toList) →
      (joined names).toList.splitOn '>' = names.map String.toList := by
    intro names hne hfree
    rw [joined, String.toList_intercalate]
    apply List.splitOn_intercalate
    · intro part hpart
      obtain ⟨name, hname, rfl⟩ := List.mem_map.mp hpart
      exact hfree name hname
    · exact fun hnil => hne (List.map_eq_nil_iff.mp hnil)
  have hmap := hsplit names hne hfree
  rw [h, hsplit names' hne' hfree'] at hmap
  exact (List.map_injective_iff.mpr fun _ _ => String.toList_injective) hmap.symm

theorem namesOf_free {lock : Json} (hnames : NamesFree lock) {node : String} {steps : List (String × String)}
    (h : PathTo lock node steps) : ∀ name ∈ namesOf steps, '>' ∉ name.toList := by
  have hdeclared : ∀ edge, Declares lock edge → '>' ∉ edge.name.toList := by
    intro edge hedge
    obtain ⟨pkg, hentry, hname, -⟩ := hedge
    exact hnames _ hentry _ hname
  induction h with
  | root hdeclares =>
    intro name hname
    rw [List.mem_singleton.mp hname]
    exact hdeclared _ hdeclares
  | step hdeclares _ _ ih =>
    intro name hname
    rw [namesOf, List.map_append, List.mem_append] at hname
    rcases hname with hname | hname
    · exact ih name hname
    · rw [List.mem_singleton.mp hname]
      exact hdeclared _ hdeclares

theorem advisoryId_eq_some {url id : String} (h : advisoryId url = some id) : url = ADVISORIES ++ id := by
  unfold advisoryId at h
  dsimp only at h
  split at h
  · rename_i hparts
    cases h
    apply String.toList_injective
    rw [String.toList_append, String.toList_ofList, ← hparts.1, List.take_append_drop]
  · cases h

/-! ### No failure -/

namespace JavaScript

variable {js : JavaScript}

theorem judgePath_excepted {label : String} {candidates : List Json} {path : InstalledPath}
    (h : (js.judgePath label candidates path).isFailure = none) :
    path.dev = true ∧ ∃ entry ∈ candidates, joined (pathOf entry) = joined path.names := by
  unfold judgePath at h
  dsimp only at h
  split at h
  · rename_i entry hentry
    split at h
    · rename_i hdev
      have hjoined := List.find?_some hentry
      exact ⟨hdev, entry, List.mem_of_find?_eq_some hentry, of_decide_eq_true hjoined⟩
    · cases h
  · cases h

theorem mem_candidatesFor {exceptions : Json} {now : Int} (h : js.validateExceptions exceptions now = .ok ⟨⟩)
    {url : String} {entry : Json} (hentry : entry ∈ candidatesFor (items (some exceptions)) (advisoryId url)) :
    entry ∈ items (some exceptions) ∧ ∃ id, own entry "advisory" = some (.str id) ∧ url = ADVISORIES ++ id := by
  obtain ⟨hmem, hid⟩ := List.mem_filter.mp hentry
  refine ⟨hmem, ?_⟩
  cases hadvisory : advisoryId url with
  | none =>
    rw [hadvisory] at hid
    exact absurd (Option.isNone_iff_eq_none.mp hid) (path_of_validateExceptions h hmem).1
  | some id =>
    rw [hadvisory] at hid
    refine ⟨id, ?_, advisoryId_eq_some hadvisory⟩
    have htext := of_decide_eq_true hid
    cases hown : own entry "advisory" with
    | none =>
      rw [hown] at htext
      cases htext
    | some value =>
      rw [hown] at htext
      cases value with
      | str text =>
        cases htext
        rfl
      | _ => cases htext

/-- An advisory without a failure is accounted for at each of its nodes. -/
theorem judgeAdvisory_accounted {lock exceptions : Json} {edges : List Edge} {now : Int} {nodes : List String}
    {advisory : Json} {url : String} {verdicts : List Verdict} (hnames : NamesFree lock)
    (hexceptions : js.validateExceptions exceptions now = .ok ⟨⟩) (hedges : ∀ e, e ∈ edges ↔ Declares lock e)
    (hurl : own advisory "url" = some (.str url)) (hobject : isObject (some advisory) = true)
    (hhigh : isHigh (own advisory "severity") = true)
    (h : js.judgeAdvisory (own lock "packages") edges (items (some exceptions)) nodes advisory = .ok verdicts)
    (hpassed : ∀ verdict ∈ verdicts, verdict.isFailure = none) {node : String} (hnode : node ∈ nodes) :
    AccountedFor js lock exceptions now advisory node := by
  have hstring : (isString (some advisory)).isSome = false := by
    cases advisory with
    | obj fields => rfl
    | _ => cases hobject
  rw [judgeAdvisory, if_neg (by rw [hstring, hhigh]; decide), hurl] at h
  dsimp only [textOf] at h
  split at h
  · cases h
    cases hpassed _ (List.mem_singleton_self _)
  obtain ⟨judged, hjudged, rfl⟩ := map_eq_ok.mp h
  obtain ⟨ofNode, hof, hnodeVerdicts⟩ := exists_of_mapM_eq_ok hjudged hnode
  obtain ⟨paths, hpaths, rfl⟩ := map_eq_ok.mp hnodeVerdicts
  obtain ⟨hinstalled, hlisted⟩ := pathsTo_ok hedges hpaths
  have hverdict : ∀ steps, PathTo lock node steps → DevelopmentOnly (own lock "packages") steps ∧
      ∃ entry ∈ candidatesFor (items (some exceptions)) (advisoryId url),
        joined (pathOf entry) = joined (namesOf steps) := by
    intro steps hsteps
    obtain ⟨path, hpath, hpathNames, hdev⟩ := hlisted steps hsteps
    have hpassedPath := hpassed _ (List.mem_flatten_of_mem hof (List.mem_map_of_mem hpath))
    obtain ⟨hpathDev, entry, hentry, hjoined⟩ := judgePath_excepted hpassedPath
    exact ⟨hdev.mp hpathDev, entry, hentry, hpathNames ▸ hjoined⟩
  refine ⟨hinstalled, fun steps hsteps => (hverdict steps hsteps).1, fun steps hsteps => ?_⟩
  obtain ⟨entry, hentry, hjoined⟩ := (hverdict steps hsteps).2
  obtain ⟨hmem, id, hid, hurlId⟩ := mem_candidatesFor hexceptions hentry
  obtain ⟨-, hpath, hne, hfree, hreview⟩ := path_of_validateExceptions hexceptions hmem
  have hsame : pathOf entry = namesOf steps := by
    apply joined_injective hne _ hfree (namesOf_free hnames hsteps) hjoined
    exact fun hnil => pathTo_ne_nil hsteps (List.map_eq_nil_iff.mp hnil)
  exact ⟨entry, hmem, ⟨id, hid, hurlId ▸ hurl⟩, hsame ▸ hpath, hreview⟩

theorem evaluateAudit_raises (report lock exceptions : Json) (now : Int) :
    RaisesOnly (RaisesOrRuns lock) (js.evaluateAudit report lock exceptions now) := by
  unfold evaluateAudit
  refine RaisesOnly.bind ((validateReport_raises report).mono fun _ => .inl) fun _ _ => ?_
  refine RaisesOnly.bind ((validateExceptions_raises exceptions now).mono fun _ => .inl) fun _ _ => ?_
  refine RaisesOnly.bind (installedPaths_raises lock) fun edges _ => ?_
  refine RaisesOnly.bind (RaisesOnly.mapM fun entry _ => ?_) fun _ _ => RaisesOnly.ok _
  refine RaisesOnly.map (RaisesOnly.mapM fun advisory _ => ?_)
  unfold judgeAdvisory
  split
  · exact RaisesOnly.ok _
  · dsimp only
    split
    · exact RaisesOnly.ok _
    · refine RaisesOnly.map (RaisesOnly.mapM fun node _ => ?_)
      exact RaisesOnly.map (pathsTo_raises.mono fun _ => .inl)

end JavaScript

/-- The gate fails closed. An audit without a failure accounts for every high or critical advisory at every node of its
finding. Neither walk runs out: what is raised is an error of the code's own, or the loop over directories goes on for
ever at an absolute location. -/
theorem fails_closed (js : JavaScript) (report lock exceptions : Json) (now : Int) (hnames : NamesFree lock) :
    (∀ audit, js.evaluateAudit report lock exceptions now = .ok audit → audit.failures = [] →
      ∀ entry ∈ entries (own report "vulnerabilities"), ∀ advisory ∈ items (own entry.2 "via"),
        isObject (some advisory) = true → isHigh (own advisory "severity") = true →
          ∀ node, .str node ∈ items (own entry.2 "nodes") → AccountedFor js lock exceptions now advisory node) ∧
    (∀ vulnerabilities name,
      JavaScript.causes vulnerabilities ((entries (some vulnerabilities)).length + 1) name [] ≠ .error .outOfFuel) ∧
    (∀ packages edges node, pathsTo packages edges node ≠ .error .outOfFuel) ∧
    RaisesOnly (RaisesOrRuns lock) (js.evaluateAudit report lock exceptions now) := by
  refine ⟨?_, ?_, ?_, JavaScript.evaluateAudit_raises report lock exceptions now⟩
  · intro audit haudit hfailures entry hentry advisory hadvisory hobject hhigh node hnode
    simp only [JavaScript.evaluateAudit, bind_eq_ok, pure_eq_ok] at haudit
    obtain ⟨_, hreport, _, hexceptions, edges, hedges, verdicts, hverdicts, rfl⟩ := haudit
    have hpassed : ∀ verdict ∈ verdicts.flatten, verdict.isFailure = none := by
      intro verdict hverdict
      cases hfailure : verdict.isFailure with
      | none => rfl
      | some message =>
        have hmem : message ∈ (js.summarise (items (some exceptions)) verdicts.flatten).failures :=
          List.mem_eraseDups.mpr (List.mem_filterMap.mpr ⟨verdict, hverdict, hfailure⟩)
        rw [hfailures] at hmem
        cases hmem
    obtain ⟨ofFinding, hofFinding, hfinding⟩ := exists_of_mapM_eq_ok hverdicts hentry
    obtain ⟨judged, hjudged, rfl⟩ := map_eq_ok.mp hfinding
    obtain ⟨ofAdvisory, hofAdvisory, hadvisoryVerdicts⟩ := exists_of_mapM_eq_ok hjudged hadvisory
    obtain ⟨url, hurl⟩ := JavaScript.url_of_validateReport hreport hentry hadvisory hobject
    apply JavaScript.judgeAdvisory_accounted hnames hexceptions (mem_installedPaths hedges) hurl hobject hhigh
      hadvisoryVerdicts
    · intro verdict hverdict
      exact hpassed verdict (List.mem_flatten_of_mem hofFinding (List.mem_flatten_of_mem hofAdvisory hverdict))
    · exact List.mem_filterMap.mpr ⟨_, hnode, rfl⟩
  · intro vulnerabilities name h
    exact JavaScript.causes_raises List.nodup_nil (List.nil_subset _) (Nat.lt_succ_self _) _ h
  · intro packages edges node h
    exact pathsTo_raises _ h

section Braces

def exactNumbers : JavaScript where
  number mantissa exponent := mantissa * 10 ^ exponent.toNat / 10 ^ (-exponent).toNat
  isPositive value :=
    match value with
    | some (.num mantissa _) => 0 < mantissa
    | _ => false
  toText
    | .bool value => toString value
    | .null => "null"
    | _ => "[object Object]"

def bracesAdvisory : Json :=
  .obj [("title", .str "braces"), ("url", .str "https://github.com/advisories/GHSA-vfj7-8cjw-p6xm"),
    ("severity", .str "high")]

/-- An advisory for `braces`, which `micromatch` depends on. -/
def bracesReport : Json :=
  .obj [("auditReportVersion", .num 2 0),
    ("vulnerabilities", .obj
      [("braces", .obj [("name", .str "braces"), ("severity", .str "high"), ("via", .arr [bracesAdvisory]),
        ("nodes", .arr [.str "node_modules/braces"])]),
      ("micromatch", .obj [("name", .str "micromatch"), ("severity", .str "high"), ("via", .arr [.str "braces"]),
        ("nodes", .arr [.str "node_modules/micromatch"])])]),
    ("metadata", .obj
      [("vulnerabilities", .obj [("info", .num 0 0), ("low", .num 0 0), ("moderate", .num 0 0), ("high", .num 2 0),
        ("critical", .num 0 0), ("total", .num 2 0)]),
      ("dependencies", .obj [("total", .num 2 0)])])]

/-- `micromatch` for development, and `braces` that depends on these. -/
def bracesLock (dependencies : List (String × Json)) : Json :=
  .obj [("lockfileVersion", .num 3 0), ("packages", .obj
    [("", .obj [("devDependencies", .obj [("micromatch", .str "4.0.8")])]),
    ("node_modules/micromatch", .obj [("dev", .bool true), ("dependencies", .obj [("braces", .str "^3.0.3")])]),
    ("node_modules/braces", .obj [("dev", .bool true), ("dependencies", .obj dependencies)])])]

def bracesExceptions : Json :=
  .arr [.obj [("advisory", .str "GHSA-vfj7-8cjw-p6xm"), ("path", .arr [.str "micromatch", .str "braces"]),
    ("triager", .str "project owner"), ("reviewBy", .str "2026-11-07"), ("reason", .str "Build tooling only.")]]

/-- The eighth of October 2026. -/
def bracesNow : Int := 1791417600000

theorem braces_accounted : (exactNumbers.evaluateAudit bracesReport (bracesLock []) bracesExceptions bracesNow).map
      (·.failures) = .ok [] ∧
    NamesFree (bracesLock []) ∧
    AccountedFor exactNumbers (bracesLock []) bracesExceptions bracesNow bracesAdvisory "node_modules/braces" := by
  have hpasses : (exactNumbers.evaluateAudit bracesReport (bracesLock []) bracesExceptions bracesNow).map
      (·.failures) = .ok [] := by decide +kernel
  have hnames : NamesFree (bracesLock []) := by
    unfold NamesFree
    decide +kernel
  obtain ⟨audit, haudit, hfailures⟩ := map_eq_ok.mp hpasses
  refine ⟨hpasses, hnames, ?_⟩
  exact (fails_closed exactNumbers bracesReport (bracesLock []) bracesExceptions bracesNow hnames).1 audit haudit hfailures
    _ List.mem_cons_self _ List.mem_cons_self rfl (by decide +kernel) _ List.mem_cons_self

/-- A cycle is refused. -/
example : (exactNumbers.evaluateAudit bracesReport (bracesLock [("micromatch", .str "4.0.8")]) bracesExceptions
    bracesNow).map (·.failures) =
      .error (.invalid "Lockfile dependency cycle; cannot safely exempt this path.") := by
  decide +kernel

end Braces

end EPlatform.DependencyAudit
