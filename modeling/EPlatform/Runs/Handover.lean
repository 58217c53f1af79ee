import EPlatform.Runs.Run

/-!
# Handing work over and hearing back

One party hands work to the outside world and then saves the id it was given. The outside world may report on that id
as soon as it has accepted the work; the report is received, looked up in the store, and applied by what the lookup
found. The two run side by side over one store, and what every finished run leaves depends on one thing only: whether
the lookup came after the save.
-/

namespace Runs

/-- `κ` is what a lookup finds. -/
structure Handover (σ κ : Type*) where
  save : σ → σ
  receive : σ → σ
  look : σ → κ
  write : κ → σ → σ

namespace Handover

/-- How far the report has come. -/
inductive Report (κ : Type*)
  | unsent
  | received
  | looked (found : κ)
  | applied
  deriving DecidableEq

structure State (σ κ : Type*) where
  store : σ
  accepted : Bool
  saved : Bool
  report : Report κ
  deriving DecidableEq

inductive Step
  | accept
  | save
  | receive
  | look
  | write
  deriving DecidableEq, Repr

variable {σ κ : Type*} (h : Handover σ κ)

def start (s : σ) : State σ κ := ⟨s, false, false, .unsent⟩

/-- A step whose turn has not come, or is past, does nothing. -/
def step (m : State σ κ) : Step → State σ κ
  | .accept => { m with accepted := true }
  | .save => if m.accepted ∧ ¬ m.saved then { m with store := h.save m.store, saved := true } else m
  | .receive =>
    match m.report with
    | .unsent => if m.accepted then { m with store := h.receive m.store, report := .received } else m
    | _ => m
  | .look =>
    match m.report with
    | .received => { m with report := .looked (h.look m.store) }
    | _ => m
  | .write =>
    match m.report with
    | .looked found => { m with store := h.write found m.store, report := .applied }
    | _ => m

def Report.IsApplied : Report κ → Prop
  | .applied => True
  | _ => False

instance (r : Report κ) : Decidable r.IsApplied := by
  cases r <;> unfold Report.IsApplied <;> infer_instance

/-- Every step was taken. -/
def State.Finished (m : State σ κ) : Prop := m.saved ∧ m.report.IsApplied

instance (m : State σ κ) : Decidable m.Finished := inferInstanceAs (Decidable (_ ∧ _))

/-- The report is looked up only once the id is saved. -/
def LooksAfterSave (m : State σ κ) : Step → Prop
  | .look => match m.report with
    | .received => m.saved
    | _ => True
  | _ => True

instance (m : State σ κ) (l : Step) : Decidable (LooksAfterSave m l) := by
  unfold LooksAfterSave
  split
  · split <;> infer_instance
  · infer_instance

/-- Saving and receiving touch different things, and applying a lookup that came too early touches nothing that saving
does. -/
structure Independent (s : σ) : Prop where
  receive_save : h.receive (h.save s) = h.save (h.receive s)
  write_save : h.write (h.look (h.receive s)) (h.save (h.receive s)) =
    h.save (h.write (h.look (h.receive s)) (h.receive s))

/-! ### The two kinds of run -/

/-- The store while the two parties have not met. -/
def between (s : σ) (saved : Bool) : σ := if saved then h.save s else s

/-- What holds as long as no lookup came too early. -/
def Met (s : σ) (m : State σ κ) : Prop :=
  match m.report with
  | .unsent => m.store = h.between s m.saved
  | .received => m.store = h.between (h.receive s) m.saved
  | .looked found => m.saved ∧ m.store = h.save (h.receive s) ∧ found = h.look (h.save (h.receive s))
  | .applied => m.saved ∧ m.store = h.write (h.look (h.save (h.receive s))) (h.save (h.receive s))

/-- What holds from a lookup that came too early on. -/
def Missed (s : σ) (m : State σ κ) : Prop :=
  match m.report with
  | .unsent => False
  | .received => False
  | .looked found => m.store = h.between (h.receive s) m.saved ∧ found = h.look (h.receive s)
  | .applied => m.store = h.between (h.write (h.look (h.receive s)) (h.receive s)) m.saved

variable {h}

theorem step_met {s : σ} (hs : h.Independent s) {m : State σ κ} {l : Step} (hm : h.Met s m)
    (hl : LooksAfterSave m l) : h.Met s (h.step m l) := by
  obtain ⟨store, accepted, saved, report⟩ := m
  cases l with
  | accept => exact hm
  | save =>
    simp only [step]
    split
    · rename_i hturn
      obtain ⟨-, hsaved⟩ := hturn
      rw [Bool.not_eq_true] at hsaved
      subst hsaved
      cases report with
      | unsent => exact congrArg h.save hm
      | received => exact congrArg h.save hm
      | looked found => exact absurd hm.1 Bool.false_ne_true
      | applied => exact absurd hm.1 Bool.false_ne_true
    · exact hm
  | receive =>
    cases report with
    | unsent =>
      simp only [step]
      split
      · have hstore : store = h.between s saved := hm
        cases saved with
        | false => exact congrArg h.receive hstore
        | true => exact (congrArg h.receive hstore).trans hs.receive_save
      · exact hm
    | _ => exact hm
  | look =>
    cases report with
    | received =>
      have hsaved : saved = true := hl
      have hstore : store = h.between (h.receive s) saved := hm
      subst hsaved
      exact ⟨rfl, hstore, congrArg h.look hstore⟩
    | _ => exact hm
  | write =>
    cases report with
    | looked found =>
      obtain ⟨hsaved, hstore, hfound⟩ := hm
      have hstore : store = h.save (h.receive s) := hstore
      subst hstore hfound
      exact ⟨hsaved, rfl⟩
    | _ => exact hm

theorem step_missed {s : σ} (hs : h.Independent s) {m : State σ κ} (l : Step) (hm : h.Missed s m) :
    h.Missed s (h.step m l) := by
  obtain ⟨store, accepted, saved, report⟩ := m
  cases l with
  | accept => exact hm
  | save =>
    simp only [step]
    split
    · rename_i hturn
      obtain ⟨-, hsaved⟩ := hturn
      rw [Bool.not_eq_true] at hsaved
      subst hsaved
      cases report with
      | unsent => exact hm.elim
      | received => exact hm.elim
      | looked found => exact ⟨congrArg h.save hm.1, hm.2⟩
      | applied => exact congrArg h.save hm
    · exact hm
  | receive =>
    cases report with
    | unsent => exact hm.elim
    | _ => exact hm
  | look =>
    cases report with
    | received => exact hm.elim
    | _ => exact hm
  | write =>
    cases report with
    | looked found =>
      obtain ⟨hstore, hfound⟩ := hm
      have hstore : store = h.between (h.receive s) saved := hstore
      subst hstore hfound
      cases saved with
      | false => rfl
      | true => exact hs.write_save
    | _ => exact hm

/-- A lookup that comes too early turns one kind of run into the other. -/
theorem missed_of_not_looksAfterSave {s : σ} {m : State σ κ} {l : Step} (hm : h.Met s m)
    (hl : ¬ LooksAfterSave m l) : h.Missed s (h.step m l) := by
  obtain ⟨store, accepted, saved, report⟩ := m
  cases l with
  | look =>
    cases report with
    | received =>
      have hsaved : saved = false := Bool.eq_false_iff.mpr hl
      have hstore : store = h.between (h.receive s) saved := hm
      subst hsaved
      exact ⟨hstore, congrArg h.look hstore⟩
    | _ => exact absurd trivial hl
  | _ => exact absurd trivial hl

/-- What every finished run leaves. -/
theorem finished_store {s : σ} (hs : h.Independent s) {run : List Step}
    (hfinished : (final h.step (start s) run).Finished) :
    (Along h.step LooksAfterSave (start s) run ∧
        (final h.step (start s) run).store = h.write (h.look (h.save (h.receive s))) (h.save (h.receive s))) ∨
      (¬ Along h.step LooksAfterSave (start s) run ∧
        (final h.step (start s) run).store = h.save (h.write (h.look (h.receive s)) (h.receive s))) := by
  have hmet : h.Met s (start s) := rfl
  have hrun := final_dichotomy (B := h.Missed s) (fun _ _ => step_met hs) (fun _ _ => missed_of_not_looksAfterSave)
    (fun _ l => step_missed hs l) hmet run
  revert hrun hfinished
  generalize final h.step (start s) run = m
  obtain ⟨store, accepted, saved, report⟩ := m
  rintro ⟨hsaved, happlied⟩ hrun
  have hsaved : saved = true := hsaved
  subst hsaved
  cases report with
  | applied =>
    rcases hrun with ⟨halong, hfinal⟩ | ⟨halong, hfinal⟩
    · exact .inl ⟨halong, hfinal.2⟩
    · exact .inr ⟨halong, hfinal⟩
  | _ => exact happlied.elim

/-- What a report brings about when it is looked up in time, and does not otherwise, holds after exactly those finished
runs that look it up in time. -/
theorem finished_iff {s : σ} {P : σ → Prop} {c : Prop} (hs : h.Independent s)
    (hmet : P (h.write (h.look (h.save (h.receive s))) (h.save (h.receive s))) ↔ c)
    (hmissed : ¬ P (h.save (h.write (h.look (h.receive s)) (h.receive s)))) {run : List Step}
    (hfinished : (final h.step (start s) run).Finished) :
    P (final h.step (start s) run).store ↔ Along h.step LooksAfterSave (start s) run ∧ c := by
  rcases finished_store hs hfinished with ⟨halong, hstore⟩ | ⟨halong, hstore⟩
  · rw [hstore, and_iff_right halong]
    exact hmet
  · rw [hstore]
    exact iff_of_false hmissed fun hrun => halong hrun.1

end Handover

end Runs
