import EPlatform.Runs.Transaction

/-!
# Every path from the root

A graph given by the edges into each node, and the walk back along them that lists every path from the root. The walk
stops at a node it is already on and after so many visits. When it returns, the list is of all paths and is not empty. It
always stops.
-/

namespace Graphs

open Runs

variable {ν β π : Type*} [DecidableEq ν]

/-- Which nodes there are, the edges into each, as where they come from and a label, and what is recorded of a path. -/
structure Ancestry (ν β π : Type*) where
  root : ν
  isNode : ν → Bool
  edges : ν → List (ν × β)
  start : ν → β → π
  extend : π → ν → β → π

inductive WalkError (ν : Type*)
  | limit
  | cycle
  | unresolved (node : ν)
  | outOfFuel
  deriving DecidableEq

namespace Ancestry

variable (g : Ancestry ν β π)

/-- The paths over one edge into a node. `visit` lists those to where the edge comes from. -/
def along (visit : ν → Nat → Except (WalkError ν) (List π × Nat)) (current : ν) (edge : ν × β) (visits : Nat) :
    Except (WalkError ν) (List π × Nat) :=
  if edge.1 = g.root then .ok ([g.start current edge.2], visits)
  else (visit edge.1 visits).map fun found => (found.1.map fun path => g.extend path current edge.2, found.2)

def collect (visit : ν → Nat → Except (WalkError ν) (List π × Nat)) (current : ν) :
    List (ν × β) → Nat → Except (WalkError ν) (List π × Nat)
  | [], visits => .ok ([], visits)
  | edge :: edges, visits => do
    let here ← g.along visit current edge visits
    let more ← collect visit current edges here.2
    return (here.1 ++ more.1, more.2)

def walk (limit : Nat) : Nat → ν → List ν → Nat → Except (WalkError ν) (List π × Nat)
  | 0, _, _, _ => .error .outOfFuel
  | fuel + 1, current, stack, visits => do
    require (visits + 1 ≤ limit) .limit
    require (current ∉ stack) .cycle
    require (g.isNode current = true ∧ g.edges current ≠ []) (.unresolved current)
    g.collect (fun location visits => walk limit fuel location (stack ++ [current]) visits) current (g.edges current)
      (visits + 1)

/-- A path from the root to a node, as the nodes it comes by with the labels of the edges into them, and what is
recorded of it. -/
inductive Reaches : ν → List (ν × β) → π → Prop
  | start {node : ν} {label : β} : (g.root, label) ∈ g.edges node → Reaches node [(node, label)] (g.start node label)
  | step {location node : ν} {label : β} {steps : List (ν × β)} {path : π} : (location, label) ∈ g.edges node →
      location ≠ g.root → Reaches location steps path →
      Reaches node (steps ++ [(node, label)]) (g.extend path node label)

variable {g}

/-! ### Collecting -/

section Collect

variable {visit : ν → Nat → Except (WalkError ν) (List π × Nat)} {current : ν} {edges : List (ν × β)}
  {visits visits' : Nat} {paths : List π}

theorem along_ok {edge : ν × β} {found : List π × Nat} : g.along visit current edge visits = .ok found ↔
    (edge.1 = g.root ∧ found = ([g.start current edge.2], visits)) ∨
      (edge.1 ≠ g.root ∧ ∃ sub, visit edge.1 visits = .ok (sub, found.2) ∧
        found.1 = sub.map fun path => g.extend path current edge.2) := by
  unfold along
  by_cases hroot : edge.1 = g.root
  · rw [if_pos hroot, Except.ok.injEq]
    simp only [hroot, true_and, ne_eq, not_true_eq_false, false_and, or_false]
    exact eq_comm
  · rw [if_neg hroot, map_eq_ok]
    simp only [hroot, false_and, false_or, ne_eq, not_false_eq_true, true_and]
    constructor
    · rintro ⟨⟨sub, v⟩, hsub, rfl⟩
      exact ⟨sub, hsub, rfl⟩
    · rintro ⟨sub, hsub, hpaths⟩
      exact ⟨_, hsub, Prod.ext hpaths.symm rfl⟩

theorem mem_collect {found : ν → π → Prop}
    (hvisit : ∀ location v sub v', visit location v = .ok (sub, v') → ∀ q, q ∈ sub ↔ found location q)
    (h : g.collect visit current edges visits = .ok (paths, visits')) (p : π) :
    p ∈ paths ↔ ∃ edge ∈ edges, (edge.1 = g.root ∧ p = g.start current edge.2) ∨
      (edge.1 ≠ g.root ∧ ∃ q, found edge.1 q ∧ p = g.extend q current edge.2) := by
  induction edges generalizing visits paths with
  | nil =>
    cases h
    simp
  | cons edge edges ih =>
    simp only [collect, bind_eq_ok, pure_eq_ok] at h
    obtain ⟨here, hhere, more, hmore, heq⟩ := h
    obtain ⟨rfl, rfl⟩ := Prod.mk.inj heq
    rw [List.mem_append, ih hmore]
    simp only [List.mem_cons, exists_eq_or_imp]
    apply or_congr_left
    rcases along_ok.mp hhere with ⟨hroot, rfl⟩ | ⟨hroot, sub, hsub, hpaths⟩
    · simp [hroot]
    · rw [hpaths, List.mem_map]
      simp only [hvisit _ _ _ _ hsub, hroot, false_and, false_or, ne_eq, not_false_eq_true, true_and]
      exact exists_congr fun q => and_congr_right fun _ => eq_comm

/-- Every edge gives a path, and visits are counted on. -/
theorem collect_ok (hvisit : ∀ location v sub v', visit location v = .ok (sub, v') → sub ≠ [] ∧ v ≤ v')
    (h : g.collect visit current edges visits = .ok (paths, visits')) :
    (edges ≠ [] → paths ≠ []) ∧ visits ≤ visits' := by
  induction edges generalizing visits paths with
  | nil =>
    cases h
    simp
  | cons edge edges ih =>
    simp only [collect, bind_eq_ok, pure_eq_ok] at h
    obtain ⟨here, hhere, more, hmore, heq⟩ := h
    obtain ⟨rfl, rfl⟩ := Prod.mk.inj heq
    have hfirst : here.1 ≠ [] ∧ visits ≤ here.2 := by
      rcases along_ok.mp hhere with ⟨-, rfl⟩ | ⟨-, sub, hsub, hpaths⟩
      · simp
      · obtain ⟨hne, hle⟩ := hvisit _ _ _ _ hsub
        exact ⟨fun hnil => hne (List.map_eq_nil_iff.mp (hpaths.symm.trans hnil)), hle⟩
    exact ⟨fun _ hnil => hfirst.1 (List.append_eq_nil_iff.mp hnil).1, Nat.le_trans hfirst.2 (ih hmore).2⟩

/-- Collecting fails only as a visit does, after what has been counted. -/
theorem collect_error {e : WalkError ν}
    (hvisit : ∀ location v sub v', visit location v = .ok (sub, v') → sub ≠ [] ∧ v ≤ v')
    (h : g.collect visit current edges visits = .error e) : ∃ location v, visits ≤ v ∧ visit location v = .error e := by
  induction edges generalizing visits with
  | nil => cases h
  | cons edge edges ih =>
    rw [collect] at h
    cases hhere : g.along visit current edge visits with
    | error e' =>
      rw [hhere] at h
      cases h
      unfold along at hhere
      split at hhere
      · cases hhere
      · cases hsub : visit edge.1 visits with
        | error e' =>
          rw [hsub] at hhere
          cases hhere
          exact ⟨edge.1, visits, Nat.le_refl _, hsub⟩
        | ok sub =>
          rw [hsub] at hhere
          cases hhere
    | ok here =>
      have hle : visits ≤ here.2 := by
        rcases along_ok.mp hhere with ⟨-, rfl⟩ | ⟨-, sub, hsub, -⟩
        · exact Nat.le_refl _
        · exact (hvisit _ _ _ _ hsub).2
      rw [hhere] at h
      cases hmore : g.collect visit current edges here.2 with
      | error e' =>
        simp only [bind, Except.bind, hmore] at h
        cases h
        obtain ⟨location, v, hfrom, herror⟩ := ih hmore
        exact ⟨location, v, Nat.le_trans hle hfrom, herror⟩
      | ok more =>
        simp only [bind, Except.bind, hmore] at h
        cases h

end Collect

/-! ### Walking -/

variable {limit fuel : Nat} {current : ν} {stack : List ν} {visits visits' : Nat} {paths : List π}

theorem walk_ok (h : g.walk limit fuel current stack visits = .ok (paths, visits')) : paths ≠ [] ∧ visits ≤ visits' := by
  induction fuel generalizing current stack visits visits' paths with
  | zero => cases h
  | succ fuel ih =>
    simp only [walk, bind_eq_ok, require_eq_ok, exists_const] at h
    obtain ⟨-, -, hedges, hcollect⟩ := h
    obtain ⟨hne, hle⟩ := collect_ok (fun _ _ _ _ hsub => ih hsub) hcollect
    exact ⟨hne hedges.2, Nat.le_trans (Nat.le_succ _) hle⟩

/-- A walk that returns has found every path. -/
theorem mem_walk (h : g.walk limit fuel current stack visits = .ok (paths, visits')) (p : π) :
    p ∈ paths ↔ ∃ steps, g.Reaches current steps p := by
  induction fuel generalizing current stack visits visits' paths p with
  | zero => cases h
  | succ fuel ih =>
    simp only [walk, bind_eq_ok, require_eq_ok, exists_const] at h
    have hfound : ∀ location v sub v', g.walk limit fuel location (stack ++ [current]) v = .ok (sub, v') →
        ∀ q, q ∈ sub ↔ ∃ steps, g.Reaches location steps q := fun _ _ _ _ hsub q => ih hsub q
    rw [mem_collect hfound h.2.2.2 p]
    constructor
    · rintro ⟨⟨location, label⟩, hedge, ⟨rfl, rfl⟩ | ⟨hne, q, ⟨steps, hreaches⟩, rfl⟩⟩
      · exact ⟨_, .start hedge⟩
      · exact ⟨_, .step hedge hne hreaches⟩
    · rintro ⟨steps, hreaches⟩
      cases hreaches with
      | start hedge => exact ⟨_, hedge, .inl ⟨rfl, rfl⟩⟩
      | step hedge hne hbefore => exact ⟨_, hedge, .inr ⟨hne, _, ⟨_, hbefore⟩, rfl⟩⟩

/-- The walk stops: each visit is counted, so that the limit is met before the fuel is spent. -/
theorem walk_ne_outOfFuel (hpos : 0 < fuel) (h : limit < fuel + visits) :
    g.walk limit fuel current stack visits ≠ .error .outOfFuel := by
  induction fuel generalizing current stack visits with
  | zero => exact absurd hpos (Nat.lt_irrefl 0)
  | succ fuel ih =>
    intro herror
    rw [walk] at herror
    by_cases hlimit : visits + 1 ≤ limit
    · rw [require_bind_of hlimit] at herror
      by_cases hstack : current ∉ stack
      · rw [require_bind_of hstack] at herror
        by_cases hedges : g.isNode current = true ∧ g.edges current ≠ []
        · rw [require_bind_of hedges] at herror
          obtain ⟨location, v, hle, hvisit⟩ := collect_error (fun _ _ _ _ hsub => walk_ok hsub) herror
          exact ih (by omega) (by omega) hvisit
        · rw [require_bind_of_not hedges] at herror
          cases herror
      · rw [require_bind_of_not hstack] at herror
        cases herror
    · rw [require_bind_of_not hlimit] at herror
      cases herror

end Ancestry

end Graphs
