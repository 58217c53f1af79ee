import EPlatform.Deployments.Predeploy

/-!
# One deploy at a time

Over direct connections the lock is held by the deploy that is inside it, and by no other. So the deploys migrate one after
another, whatever their steps were interleaved with: each as far as it came, from where the one before it had left off.
-/

namespace EPlatform.Deployments

open Runs

/-- From the grant of the lock to its release. -/
def Stage.isInside : Stage → Bool
  | .confirming | .loading | .migrating _ | .recording _ _ | .unlocking _ => true
  | _ => false

variable {executor : Executor} {s : System} {db : Database} {d : Deploy} {number : Nat} {env : Env} {stage : Stage}

/-! ### The lock -/

/-- Who holds the lock is inside, and nobody else is. -/
structure Locked (s : System) : Prop where
  exclusive : SessionLock.Exclusive s.database.lock
  held : ∀ number, number ∈ s.database.lock ↔ ∃ d, s.deploys[number]? = some d ∧ d.stage.isInside = true

/-- What a step leaves of the lock, to the deploy itself and to the others. -/
structure KeepsLock (number : Nat) (before after : SessionLock Nat) (stage : Stage) : Prop where
  exclusive : SessionLock.Exclusive after
  own : number ∈ after ↔ stage.isInside = true
  others : ∀ other, other ≠ number → (other ∈ after ↔ other ∈ before)

section KeepsLock

variable {lock : SessionLock Nat} {outcome : Outcome}

theorem keepsLock_self (hexclusive : SessionLock.Exclusive lock) (hown : number ∈ lock ↔ stage.isInside = true) :
    KeepsLock number lock lock stage :=
  ⟨hexclusive, hown, fun _ _ => Iff.rfl⟩

theorem keepsLock_endSession {after : SessionLock Nat} (hexclusive : SessionLock.Exclusive lock) (hsubset : after ⊆ lock)
    (hothers : ∀ other, other ≠ number → other ∈ lock → other ∈ after) (hstage : stage.isInside = false) :
    KeepsLock number lock (SessionLock.endSession number after) stage where
  exclusive := hexclusive.of_subset (List.Subset.trans SessionLock.endSession_subset hsubset)
  own := by
    rw [SessionLock.mem_endSession, hstage]
    simp
  others other hother := by
    rw [SessionLock.mem_endSession]
    exact ⟨fun h => hsubset h.1, fun h => ⟨hothers other hother h, hother⟩⟩

theorem keepsLock_leave (hexclusive : SessionLock.Exclusive db.lock) :
    KeepsLock number db.lock (leave number outcome db).1.lock (leave number outcome db).2 :=
  keepsLock_endSession hexclusive (List.Subset.refl _) (fun _ _ h => h) rfl

theorem keepsLock_act (hexclusive : SessionLock.Exclusive db.lock) (hown : number ∈ db.lock ↔ d.stage.isInside = true)
    (hdirect : env.backend = number) :
    KeepsLock number db.lock (d.act executor number env db).1.lock (d.act executor number env db).2 := by
  unfold Deploy.act
  cases hstage : d.stage with
  | connecting deadline attempt =>
    simp only [waitForDatabase]
    rw [hstage] at hown
    split_ifs
    · exact keepsLock_self hexclusive hown
    · exact keepsLock_leave hexclusive
    · exact keepsLock_self hexclusive hown
  | planning =>
    simp only [plan]
    rw [hstage] at hown
    split_ifs
    · exact keepsLock_leave hexclusive
    · exact keepsLock_leave hexclusive
    · exact keepsLock_self hexclusive hown
  | locking deadline =>
    simp only [tryAdvisoryLock, hdirect]
    rw [hstage] at hown
    by_cases honly : SessionLock.OnlyOf number db.lock
    · rw [SessionLock.tryLock_of_onlyOf honly]
      refine ⟨honly.cons.exclusive, iff_of_true List.mem_cons_self rfl, fun other hother => ?_⟩
      simp [hother]
    · rw [SessionLock.tryLock_of_not_onlyOf honly]
      dsimp only
      split_ifs
      · exact keepsLock_leave hexclusive
      · exact keepsLock_self hexclusive hown
  | confirming =>
    have hheld : number ∈ db.lock := hown.mpr (by rw [hstage]; rfl)
    simp only [requireARealSession, hdirect, if_pos hheld]
    exact keepsLock_self hexclusive (iff_of_true hheld rfl)
  | loading =>
    have hheld : number ∈ db.lock := hown.mpr (by rw [hstage]; rfl)
    simp only [load]
    split_ifs <;> exact keepsLock_self hexclusive (iff_of_true hheld rfl)
  | migrating next =>
    have hheld : number ∈ db.lock := hown.mpr (by rw [hstage]; rfl)
    simp only [migrate]
    by_cases hsucceeds : env.succeeds = true
    · rw [if_neg (not_not.mpr hsucceeds)]
      cases next with
      | nil => exact keepsLock_self hexclusive (iff_of_true hheld rfl)
      | cons migration rest =>
        dsimp only
        split_ifs
        · exact keepsLock_self hexclusive (iff_of_true hheld rfl)
        · exact keepsLock_self hexclusive (iff_of_true hheld rfl)
    · rw [if_pos hsucceeds]
      exact keepsLock_self hexclusive (iff_of_true hheld rfl)
  | recording migration rest =>
    have hheld : number ∈ db.lock := hown.mpr (by rw [hstage]; rfl)
    simp only [recordApplied]
    split_ifs <;> exact keepsLock_self hexclusive (iff_of_true hheld rfl)
  | unlocking outcome =>
    refine keepsLock_endSession hexclusive List.erase_subset (fun other hother hheld => ?_) rfl
    rw [SessionLock.unlock, hdirect]
    exact (List.mem_erase_of_ne hother).mpr hheld
  | finished outcome =>
    rw [hstage] at hown
    exact keepsLock_self hexclusive hown
  | stopped =>
    rw [hstage] at hown
    exact keepsLock_self hexclusive hown

end KeepsLock

theorem Locked.put (h : Locked s) (hnumber : s.deploys[number]? = some d)
    (hkeeps : KeepsLock number s.database.lock db.lock stage) : Locked (s.put number d db stage) := by
  have hlength : number < s.deploys.length := (List.getElem?_eq_some_iff.mp hnumber).1
  refine ⟨hkeeps.exclusive, fun other => ?_⟩
  simp only [System.put, List.getElem?_set]
  by_cases hother : other = number
  · subst hother
    rw [hkeeps.own]
    simp [hlength]
  · rw [hkeeps.others other hother, h.held other, if_neg fun heq => hother heq.symm]

theorem Locked.step (executor : Executor) (h : Locked s) {event : Event} (hdirect : event.IsDirect) :
    Locked (step executor s event) := by
  cases event with
  | start release options now =>
    refine ⟨h.exclusive, fun number => (h.held number).trans (exists_congr fun d => ?_)⟩
    show _ ↔ (s.deploys ++ [_])[number]? = some d ∧ _
    rw [List.getElem?_append]
    split_ifs with hlength
    · exact Iff.rfl
    · rw [List.getElem?_eq_none (Nat.le_of_not_lt hlength), List.getElem?_singleton]
      split_ifs
      · refine iff_of_false (fun hnone => absurd hnone.1 (by simp)) fun hnew => ?_
        obtain ⟨hnew, hinside⟩ := hnew
        rw [← Option.some.inj hnew] at hinside
        cases hinside
      · exact Iff.rfl
  | act number env =>
    rw [Deployments.step]
    cases hnumber : s.deploys[number]? with
    | none => exact h
    | some d =>
      have hown : number ∈ s.database.lock ↔ d.stage.isInside = true := by
        rw [h.held number, hnumber]
        simp
      exact h.put hnumber (keepsLock_act h.exclusive hown hdirect)
  | stop number =>
    rw [Deployments.step]
    cases hnumber : s.deploys[number]? with
    | none => exact h
    | some d =>
      dsimp only
      split_ifs
      · exact h
      · exact h.put hnumber (keepsLock_endSession h.exclusive (List.Subset.refl _) (fun _ _ h => h) rfl)

end EPlatform.Deployments
