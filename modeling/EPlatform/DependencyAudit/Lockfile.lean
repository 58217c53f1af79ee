import EPlatform.DependencyAudit.Report
import EPlatform.Formats.PosixPath
import EPlatform.Graphs.Ancestry

/-!
# Installed paths

Where each declared dependency is installed, by going up from the package that declares it, and every path by which an
installed package is reached from the root.
-/

namespace EPlatform.DependencyAudit

open Runs Formats Graphs

/-- An entry of `parents`: the package at `location` declares `name` and finds it at `target`. -/
structure Edge where
  target : String
  location : String
  name : String
  deriving DecidableEq, Repr

/-- `posix.join(directory, "node_modules", name)`. -/
def candidate (directory name : String) : String := PosixPath.join [directory, "node_modules", name]

/-- The directory the next turn of the loop looks in. -/
def parentOf (directory : String) : String :=
  let parent := PosixPath.dirname directory
  if parent = "." then "" else parent

/-- The `while (true)` of `installedPaths`, as far as `fuel` lasts. -/
def findTarget (packages : Option Json) (name : String) : Nat → String → Except AuditError (Option String)
  | 0, _ => .error .runsForever
  | fuel + 1, directory =>
    if hasOwn packages (candidate directory name) then .ok (some (candidate directory name))
    else if directory = "" then .ok none
    else findTarget packages name fuel (parentOf directory)

/-- The keys of the spread dependencies of a package. -/
def dependencyNames (location : String) (pkg : Json) : List String :=
  (keys (own pkg "dependencies") ++ keys (own pkg "optionalDependencies") ++ keys (own pkg "peerDependencies") ++
    if location = "" then keys (own pkg "devDependencies") else []).eraseDups

def resolveName (packages : Option Json) (location : String) (pkg : Json) (name : String) :
    Except AuditError (Option Edge) := do
  let target ← findTarget packages name (location.length + 1) location
  match target with
  | some target => return some ⟨target, location, name⟩
  | none =>
    requireValid (hasOwn (own pkg "optionalDependencies") name = true ∨ hasOwn (own pkg "peerDependencies") name = true)
      ("Incomplete lockfile dependency: " ++ location ++ ">" ++ name)
    return none

namespace JavaScript

variable (js : JavaScript)

def resolvePackage (packages : Option Json) (entry : String × Json) : Except AuditError (List Edge) := do
  let (location, pkg) := entry
  requireValid (isObject (some pkg) = true ∧ js.isTruthy (own pkg "link") = false)
    "Unsupported linked package in lockfile."
  let edges ← (dependencyNames location pkg).mapM (resolveName packages location pkg)
  return edges.filterMap id

/-- `installedPaths` up to the function it returns, which needs the packages and the edges. -/
def installedPaths (lock : Json) : Except AuditError (List Edge) := do
  let packages := own lock "packages"
  requireValid (isObject (some lock) = true ∧ js.isNumber (own lock "lockfileVersion") 3 = true ∧
    isObject packages = true ∧ isObject (member packages "") = true)
    "Invalid lockfile; version 3 with a root package is required."
  let edges ← (entries packages).mapM (js.resolvePackage packages)
  return edges.flatten

end JavaScript

/-! ### Paths -/

structure InstalledPath where
  names : List String
  dev : Bool
  deriving DecidableEq, Repr

/-- `packages[current].dev === true`. -/
def isDev (packages : Option Json) (current : String) : Bool :=
  match member (member packages current) "dev" with
  | some (.bool value) => value
  | _ => false

def isDevRoot (packages : Option Json) (name : String) : Bool :=
  let root := member packages ""
  hasOwn (member root "devDependencies") name && !hasOwn (member root "dependencies") name &&
    !hasOwn (member root "optionalDependencies") name && !hasOwn (member root "peerDependencies") name

/-- The edges into each package, and what `walk` makes of a path. -/
def ancestry (packages : Option Json) (edges : List Edge) : Ancestry String String InstalledPath where
  root := ""
  isNode := fun current => isObject (member packages current)
  edges := fun current => (edges.filter (·.target = current)).map fun edge => (edge.location, edge.name)
  start := fun current name => ⟨[name], isDev packages current && isDevRoot packages name⟩
  extend := fun path current name => ⟨path.names ++ [name], path.dev && isDev packages current⟩

def PATH_LIMIT : Nat := 10000

def walkError : WalkError String → AuditError
  | .limit => .invalid "Lockfile path limit exceeded; manual review required."
  | .cycle => .invalid "Lockfile dependency cycle; cannot safely exempt this path."
  | .unresolved current => .invalid ("Unresolved lockfile node: " ++ current)
  | .outOfFuel => .outOfFuel

/-- What `installedPaths` returns, on one node. -/
def pathsTo (packages : Option Json) (edges : List Edge) (node : String) : Except AuditError (List InstalledPath) :=
  (((ancestry packages edges).walk PATH_LIMIT (PATH_LIMIT + 1) node [] 0).mapError walkError).map (·.1)

/-! ### Nested directories -/

/-- The package of a name that a package in `directory` finds: in the directory's own `node_modules`, or else in that of
the nearest directory above. -/
inductive Resolves (packages : Option Json) (name : String) : String → String → Prop
  | here {directory : String} : hasOwn packages (candidate directory name) = true →
      Resolves packages name directory (candidate directory name)
  | above {directory target : String} : hasOwn packages (candidate directory name) = false → directory ≠ "" →
      Resolves packages name (parentOf directory) target → Resolves packages name directory target

variable {packages : Option Json} {name : String}

theorem findTarget_ok {fuel : Nat} {directory : String} {found : Option String}
    (h : findTarget packages name fuel directory = .ok found) (target : String) :
    found = some target ↔ Resolves packages name directory target := by
  induction fuel generalizing directory with
  | zero => cases h
  | succ fuel ih =>
    rw [findTarget] at h
    split at h
    · rename_i hown
      cases h
      constructor
      · intro heq
        cases heq
        exact .here hown
      · intro hresolves
        cases hresolves with
        | here _ => rfl
        | above hnone _ _ => exact absurd (hown.symm.trans hnone) (by decide)
    · rename_i hown
      split at h
      · rename_i hempty
        cases h
        refine iff_of_false (by simp) fun hresolves => ?_
        cases hresolves with
        | here hfound => exact hown hfound
        | above _ hne _ => exact hne hempty
      · rename_i hne
        rw [ih h]
        constructor
        · exact .above (Bool.eq_false_iff.mpr hown) hne
        · intro hresolves
          cases hresolves with
          | here hfound => exact absurd hfound hown
          | above _ _ habove => exact habove

/-- Going up from a path that is not absolute. -/
theorem parentOf_relative {directory : String} (hne : directory ≠ "") (h : directory.toList.head? ≠ some '/') :
    (parentOf directory).length < directory.length ∧ (parentOf directory).toList.head? ≠ some '/' := by
  cases hchars : directory.toList with
  | nil => exact absurd (String.toList_injective hchars) hne
  | cons first rest =>
    have hfirst : first ≠ '/' := by
      intro heq
      rw [hchars, heq] at h
      exact h rfl
    have hlength : directory.length = rest.length + 1 := by
      rw [← String.length_toList, hchars, List.length_cons]
    have hempty : (parentOf directory = "" ∨ ∃ before, (parentOf directory).toList = first :: before ∧
        before.length < rest.length) := by
      unfold parentOf PosixPath.dirname
      rw [hchars]
      rcases PosixPath.dirnameChars_relative rest hfirst with hdot | ⟨before, hbefore, hshort⟩
      · rw [hdot]
        exact .inl rfl
      · rw [hbefore]
        by_cases hdot : String.ofList (first :: before) = "."
        · exact .inl (if_pos hdot)
        · refine .inr ⟨before, ?_, hshort⟩
          rw [if_neg hdot, String.toList_ofList]
    rcases hempty with hnone | ⟨before, hbefore, hshort⟩
    · rw [hnone, hlength]
      exact ⟨Nat.succ_pos _, by decide⟩
    · rw [← String.length_toList, hbefore, hlength, List.length_cons]
      refine ⟨Nat.succ_lt_succ hshort, ?_⟩
      rw [List.head?_cons]
      exact fun heq => hfirst (Option.some.inj heq)

/-- The loop ends where the path is not absolute. -/
theorem exists_findTarget {fuel : Nat} {directory : String} (hfuel : directory.length < fuel)
    (h : directory.toList.head? ≠ some '/') : ∃ found, findTarget packages name fuel directory = .ok found := by
  induction fuel generalizing directory with
  | zero => exact absurd hfuel (Nat.not_lt_zero _)
  | succ fuel ih =>
    rw [findTarget]
    split
    · exact ⟨_, rfl⟩
    · split
      · exact ⟨_, rfl⟩
      · rename_i hne
        obtain ⟨hshorter, hrelative⟩ := parentOf_relative hne h
        exact ih (by omega) hrelative

/-- Going up from an absolute path comes to `/` and stays there. -/
theorem parentOf_absolute {directory : String} (h : directory.toList.head? = some '/') :
    (parentOf directory).toList.head? = some '/' ∧
      ((parentOf directory).length < directory.length ∨ parentOf directory = directory) := by
  obtain ⟨rest, hchars⟩ := List.head?_eq_some_iff.mp h
  obtain ⟨before, hbefore, hshorter⟩ := PosixPath.dirnameChars_absolute rest
  have hparent : parentOf directory = String.ofList ('/' :: before) := by
    have hdot : String.ofList ('/' :: before) ≠ "." := by
      intro heq
      have hlist := congrArg String.toList heq
      rw [String.toList_ofList] at hlist
      exact absurd (List.cons.inj hlist).1 (by decide)
    rw [parentOf, PosixPath.dirname, hchars, hbefore]
    exact if_neg hdot
  rw [hparent]
  refine ⟨by rw [String.toList_ofList, List.head?_cons], ?_⟩
  rcases hshorter with hlt | ⟨rfl, rfl⟩
  · left
    rw [← String.length_toList, ← String.length_toList, String.toList_ofList, hchars, List.length_cons, List.length_cons]
    exact Nat.succ_lt_succ hlt
  · right
    rw [← hchars, String.ofList_toList]

/-- A loop that goes on for longer than the path goes on for ever, so that the fuel decides nothing. -/
theorem findTarget_runsForever {fuel : Nat} {directory : String} (hfuel : directory.length < fuel)
    (h : findTarget packages name fuel directory = .error .runsForever) (turns : Nat) :
    findTarget packages name turns directory = .error .runsForever := by
  by_cases hrelative : directory.toList.head? ≠ some '/'
  · obtain ⟨found, hfound⟩ := exists_findTarget hfuel hrelative
    cases hfound.symm.trans h
  rw [ne_eq, not_not] at hrelative
  induction fuel generalizing directory turns with
  | zero => exact absurd hfuel (Nat.not_lt_zero _)
  | succ fuel ih =>
    obtain ⟨habsolute, hup⟩ := parentOf_absolute hrelative
    rw [findTarget] at h
    split at h
    · cases h
    · rename_i hnone
      split at h
      · cases h
      · rename_i hne
        have hturn : ∀ turns, findTarget packages name (turns + 1) directory =
            findTarget packages name turns (parentOf directory) := by
          intro turns
          rw [findTarget, if_neg hnone, if_neg hne]
        rcases hup with hshorter | hstays
        · cases turns with
          | zero => rfl
          | succ turns =>
            rw [hturn]
            exact ih (by omega) h turns habsolute
        · -- the directory is `/`, which has been looked in
          induction turns with
          | zero => rfl
          | succ turns ihturns => rw [hturn, hstays, ihturns]

/-! ### Edges -/

/-- The package at the edge's location declares its name, and finds it at its target. -/
def Declares (lock : Json) (edge : Edge) : Prop :=
  ∃ pkg, (edge.location, pkg) ∈ entries (own lock "packages") ∧ edge.name ∈ dependencyNames edge.location pkg ∧
    Resolves (own lock "packages") edge.name edge.location edge.target

theorem resolveName_ok {location : String} {pkg : Json} {edge : Option Edge}
    (h : resolveName packages location pkg name = .ok edge) (e : Edge) :
    edge = some e ↔ e.location = location ∧ e.name = name ∧ Resolves packages name location e.target := by
  simp only [resolveName, bind_eq_ok] at h
  obtain ⟨found, hfound, h⟩ := h
  have hresolves := findTarget_ok hfound
  cases found with
  | none =>
    simp only [bind_eq_ok, pure_eq_ok] at h
    obtain ⟨_, _, rfl⟩ := h
    refine iff_of_false (by simp) ?_
    rintro ⟨-, -, htarget⟩
    cases (hresolves e.target).mpr htarget
  | some target =>
    cases h
    constructor
    · intro heq
      cases heq
      exact ⟨rfl, rfl, (hresolves target).mp rfl⟩
    · rintro ⟨rfl, rfl, htarget⟩
      cases (hresolves e.target).mpr htarget
      rfl

theorem mem_resolvePackage {js : JavaScript} {entry : String × Json} {edges : List Edge}
    (h : js.resolvePackage packages entry = .ok edges) (e : Edge) : e ∈ edges ↔
      e.location = entry.1 ∧ e.name ∈ dependencyNames entry.1 entry.2 ∧
        Resolves packages e.name e.location e.target := by
  simp only [JavaScript.resolvePackage, bind_eq_ok, pure_eq_ok] at h
  obtain ⟨_, _, found, hfound, rfl⟩ := h
  rw [List.mem_filterMap]
  constructor
  · rintro ⟨edge, hedge, heq⟩
    obtain ⟨name, hname, hresolved⟩ := (mem_of_mapM_eq_ok hfound edge).mp hedge
    obtain ⟨hlocation, rfl, htarget⟩ := (resolveName_ok hresolved e).mp heq
    exact ⟨hlocation, hname, by rwa [hlocation]⟩
  · rintro ⟨hlocation, hname, htarget⟩
    obtain ⟨edge, hedge, hresolved⟩ := exists_of_mapM_eq_ok hfound hname
    rw [hlocation] at htarget
    exact ⟨edge, hedge, (resolveName_ok hresolved e).mpr ⟨hlocation, rfl, htarget⟩⟩

theorem mem_installedPaths {js : JavaScript} {lock : Json} {edges : List Edge} (h : js.installedPaths lock = .ok edges)
    (e : Edge) : e ∈ edges ↔ Declares lock e := by
  simp only [JavaScript.installedPaths, bind_eq_ok, pure_eq_ok] at h
  obtain ⟨_, _, found, hfound, rfl⟩ := h
  rw [List.mem_flatten]
  constructor
  · rintro ⟨ofPackage, hof, hmem⟩
    obtain ⟨⟨location, pkg⟩, hentry, hresolved⟩ := (mem_of_mapM_eq_ok hfound ofPackage).mp hof
    obtain ⟨rfl, hname, htarget⟩ := (mem_resolvePackage hresolved e).mp hmem
    exact ⟨pkg, hentry, hname, htarget⟩
  · rintro ⟨pkg, hentry, hname, htarget⟩
    obtain ⟨ofPackage, hof, hresolved⟩ := exists_of_mapM_eq_ok hfound hentry
    exact ⟨ofPackage, hof, (mem_resolvePackage hresolved e).mpr ⟨rfl, hname, htarget⟩⟩

/-- Beyond what the code raises, the loop over directories goes on for ever where a package stands at an absolute
path. -/
def RaisesOrRuns (lock : Json) (e : AuditError) : Prop :=
  e.IsRaised ∨ e = .runsForever ∧
    ∃ entry ∈ entries (own lock "packages"), entry.1.toList.head? = some '/'

theorem findTarget_raises {fuel : Nat} {directory : String} :
    RaisesOnly (· = .runsForever) (findTarget packages name fuel directory) := by
  induction fuel generalizing directory with
  | zero =>
    intro e he
    cases he
    rfl
  | succ fuel ih =>
    rw [findTarget]
    split
    · exact RaisesOnly.ok _
    · split
      · exact RaisesOnly.ok _
      · exact ih

theorem resolveName_raises {lock : Json} {entry : String × Json} (hentry : entry ∈ entries (own lock "packages"))
    (name : String) : RaisesOnly (RaisesOrRuns lock) (resolveName packages entry.1 entry.2 name) := by
  unfold resolveName
  apply RaisesOnly.bind
  · intro e he
    by_cases hrelative : entry.1.toList.head? ≠ some '/'
    · obtain ⟨found, hfound⟩ := exists_findTarget (Nat.lt_succ_self _) hrelative
      cases hfound.symm.trans he
    · exact .inr ⟨findTarget_raises e he, entry, hentry, not_not.mp hrelative⟩
  · intro target _
    cases target with
    | some target => exact RaisesOnly.ok _
    | none => exact RaisesOnly.bind (requireValid_raises.mono fun _ => .inl) fun _ _ => RaisesOnly.ok _

theorem installedPaths_raises {js : JavaScript} (lock : Json) :
    RaisesOnly (RaisesOrRuns lock) (js.installedPaths lock) := by
  simp only [JavaScript.installedPaths]
  refine RaisesOnly.bind (requireValid_raises.mono fun _ => .inl) fun _ _ => ?_
  refine RaisesOnly.bind (RaisesOnly.mapM fun entry hentry => ?_) fun _ _ => RaisesOnly.ok _
  unfold JavaScript.resolvePackage
  refine RaisesOnly.bind (requireValid_raises.mono fun _ => .inl) fun _ _ => ?_
  exact RaisesOnly.bind (RaisesOnly.mapM fun name _ => resolveName_raises hentry name) fun _ _ => RaisesOnly.ok _

/-! ### Every path -/

/-- A path from the root package to a node: the packages it comes by with the names they are asked for under. -/
inductive PathTo (lock : Json) : String → List (String × String) → Prop
  | root {node name : String} : Declares lock ⟨node, "", name⟩ → PathTo lock node [(node, name)]
  | step {location node name : String} {steps : List (String × String)} : Declares lock ⟨node, location, name⟩ →
      location ≠ "" → PathTo lock location steps → PathTo lock node (steps ++ [(node, name)])

def namesOf (steps : List (String × String)) : List String := steps.map (·.2)

/-- Every package on the path is marked `dev`, and the first name is a development dependency of the root only. -/
structure DevelopmentOnly (packages : Option Json) (steps : List (String × String)) : Prop where
  marked : ∀ step ∈ steps, isDev packages step.1 = true
  root : ∀ step ∈ steps.head?, isDevRoot packages step.2 = true

section Walk

variable {lock : Json} {edges : List Edge} {node : String} {steps : List (String × String)} {path : InstalledPath}

theorem mem_ancestry_edges (hedges : ∀ e, e ∈ edges ↔ Declares lock e) {location name : String} :
    (location, name) ∈ (ancestry packages edges).edges node ↔ Declares lock ⟨node, location, name⟩ := by
  rw [← hedges]
  simp only [ancestry, List.mem_map, List.mem_filter, Prod.mk.injEq, decide_eq_true_eq]
  constructor
  · rintro ⟨⟨target, location, name⟩, ⟨hmem, rfl⟩, rfl, rfl⟩
    exact hmem
  · intro hmem
    exact ⟨_, ⟨hmem, rfl⟩, rfl, rfl⟩

theorem pathTo_ne_nil (h : PathTo lock node steps) : steps ≠ [] := by
  cases h <;> simp

theorem developmentOnly_append (hsteps : steps ≠ []) {step : String × String} :
    DevelopmentOnly packages (steps ++ [step]) ↔ DevelopmentOnly packages steps ∧ isDev packages step.1 = true := by
  have hhead : (steps ++ [step]).head? = steps.head? := List.head?_append_of_ne_nil _ hsteps
  constructor
  · intro h
    refine ⟨⟨fun s hs => h.marked s (List.mem_append_left _ hs), fun s hs => h.root s (hhead ▸ hs)⟩, ?_⟩
    exact h.marked step (List.mem_append_right _ (List.mem_singleton_self step))
  · rintro ⟨h, hstep⟩
    refine ⟨fun s hs => ?_, fun s hs => h.root s (hhead ▸ hs)⟩
    rcases List.mem_append.mp hs with hs | hs
    · exact h.marked s hs
    · rw [List.mem_singleton.mp hs]
      exact hstep

theorem pathTo_of_reaches (hedges : ∀ e, e ∈ edges ↔ Declares lock e)
    (h : (ancestry packages edges).Reaches node steps path) : PathTo lock node steps := by
  induction h with
  | start hedge => exact .root ((mem_ancestry_edges hedges).mp hedge)
  | step hedge hne _ ih => exact .step ((mem_ancestry_edges hedges).mp hedge) hne ih

/-- What the walk records of a path is its names, and whether it is for development only. -/
theorem reaches_of_pathTo (hedges : ∀ e, e ∈ edges ↔ Declares lock e) (h : PathTo lock node steps) :
    ∃ path, (ancestry packages edges).Reaches node steps path ∧ path.names = namesOf steps ∧
      (path.dev = true ↔ DevelopmentOnly packages steps) := by
  induction h with
  | @root node name hdeclares =>
    refine ⟨_, .start ((mem_ancestry_edges hedges).mpr hdeclares), rfl, ?_⟩
    change (isDev packages node && isDevRoot packages name) = true ↔ _
    rw [Bool.and_eq_true]
    constructor
    · rintro ⟨hmarked, hroot⟩
      exact ⟨by simpa using hmarked, by simpa using hroot⟩
    · intro hdev
      exact ⟨hdev.marked _ (List.mem_singleton_self _), hdev.root _ rfl⟩
  | @step location node name steps hdeclares hne hbefore ih =>
    obtain ⟨path, hreaches, hnames, hdev⟩ := ih
    refine ⟨_, .step ((mem_ancestry_edges hedges).mpr hdeclares) hne hreaches, ?_, ?_⟩
    · change path.names ++ [name] = _
      rw [hnames, namesOf, namesOf, List.map_append]
      rfl
    · change (path.dev && isDev packages node) = true ↔ _
      rw [Bool.and_eq_true, hdev, developmentOnly_append (pathTo_ne_nil hbefore)]

/-- A walk that returns lists a path, and every path there is. -/
theorem pathsTo_ok {paths : List InstalledPath} (hedges : ∀ e, e ∈ edges ↔ Declares lock e)
    (h : pathsTo packages edges node = .ok paths) : (∃ steps, PathTo lock node steps) ∧
      ∀ steps, PathTo lock node steps → ∃ path ∈ paths, path.names = namesOf steps ∧
        (path.dev = true ↔ DevelopmentOnly packages steps) := by
  obtain ⟨⟨found, visits⟩, hwalk, rfl⟩ := map_eq_ok.mp h
  rw [mapError_eq_ok] at hwalk
  have hmem := Ancestry.mem_walk hwalk
  constructor
  · obtain ⟨path, hpath⟩ := List.exists_mem_of_ne_nil _ (Ancestry.walk_ok hwalk).1
    obtain ⟨steps, hreaches⟩ := (hmem path).mp hpath
    exact ⟨steps, pathTo_of_reaches hedges hreaches⟩
  · intro steps hsteps
    obtain ⟨path, hreaches, hrecorded⟩ := reaches_of_pathTo hedges hsteps
    exact ⟨path, (hmem path).mpr ⟨steps, hreaches⟩, hrecorded⟩

theorem pathsTo_raises : RaisesOnly AuditError.IsRaised (pathsTo packages edges node) := by
  apply RaisesOnly.map
  intro e he
  cases hwalk : (ancestry packages edges).walk PATH_LIMIT (PATH_LIMIT + 1) node [] 0 with
  | ok found =>
    rw [hwalk] at he
    cases he
  | error e' =>
    rw [hwalk] at he
    cases he
    cases e' with
    | outOfFuel => exact absurd hwalk (Ancestry.walk_ne_outOfFuel (Nat.succ_pos _) (Nat.lt_succ_self _))
    | _ => trivial

end Walk

end EPlatform.DependencyAudit
