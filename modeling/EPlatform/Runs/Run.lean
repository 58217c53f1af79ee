import Mathlib.Algebra.Group.Basic
import Mathlib.Data.List.Infix
import Mathlib.Tactic.Abel
import Mathlib.Tactic.Common

/-!
# Runs of a deterministic system

A system is a step function on states. Whatever the environment is free to choose, which request comes next, what a
provider answers, what the clock reads, is part of the label of a step, so a run is a list of labels and a property of
every interleaving is a property of every such list. `Throughout` says that a property holds in every state of a run,
`Along` that every step of it is taken from a state where a guard allows the step, and the rules below trade one for
the other.
-/

namespace Runs

variable {σ ℓ : Type*} (step : σ → ℓ → σ)

/-- The state a run ends in. -/
def final (s : σ) (run : List ℓ) : σ := run.foldl step s

/-- `P` holds in every state the run passes through, the first and the last included. -/
def Throughout (P : σ → Prop) : σ → List ℓ → Prop
  | s, [] => P s
  | s, l :: run => P s ∧ Throughout P (step s l) run

/-- Every step of the run is taken from a state where `G` allows it. -/
def Along (G : σ → ℓ → Prop) : σ → List ℓ → Prop
  | _, [] => True
  | s, l :: run => G s l ∧ Along G (step s l) run

instance Throughout.decidable (P : σ → Prop) [DecidablePred P] :
    (s : σ) → (run : List ℓ) → Decidable (Throughout step P s run)
  | s, [] => inferInstanceAs (Decidable (P s))
  | s, l :: run =>
    have := Throughout.decidable P (step s l) run
    inferInstanceAs (Decidable (P s ∧ Throughout step P (step s l) run))

instance Along.decidable (G : σ → ℓ → Prop) [∀ s l, Decidable (G s l)] :
    (s : σ) → (run : List ℓ) → Decidable (Along step G s run)
  | _, [] => inferInstanceAs (Decidable True)
  | s, l :: run =>
    have := Along.decidable G (step s l) run
    inferInstanceAs (Decidable (G s l ∧ Along step G (step s l) run))

variable {step}

@[simp] theorem final_nil (s : σ) : final step s [] = s := rfl

@[simp] theorem final_cons (s : σ) (l : ℓ) (run : List ℓ) :
    final step s (l :: run) = final step (step s l) run := rfl

@[simp] theorem final_append (s : σ) (run later : List ℓ) :
    final step s (run ++ later) = final step (final step s run) later :=
  List.foldl_append

/-- The states of a run are the ends of its prefixes. -/
theorem throughout_iff_earlier {P : σ → Prop} {s : σ} {run : List ℓ} :
    Throughout step P s run ↔ ∀ earlier, earlier <+: run → P (final step s earlier) := by
  induction run generalizing s with
  | nil => simp [Throughout]
  | cons l run ih =>
    rw [Throughout, ih]
    constructor
    · rintro ⟨hs, hrun⟩ earlier hprefix
      cases earlier with
      | nil => exact hs
      | cons l' earlier =>
        obtain ⟨rfl, htail⟩ := List.cons_prefix_cons.mp hprefix
        exact hrun earlier htail
    · intro h
      refine ⟨h [] List.nil_prefix, fun earlier hprefix => ?_⟩
      exact h (l :: earlier) (List.cons_prefix_cons.mpr ⟨rfl, hprefix⟩)

theorem Throughout.mono {P Q : σ → Prop} {s : σ} {run : List ℓ} (h : Throughout step P s run)
    (himp : ∀ s, P s → Q s) : Throughout step Q s run := by
  induction run generalizing s with
  | nil => exact himp s h
  | cons l run ih => exact ⟨himp s h.1, ih h.2⟩

/-- A run that is not allowed has a first step that is not. -/
theorem exists_first_of_not_along {G : σ → ℓ → Prop} {s : σ} {run : List ℓ} (h : ¬ Along step G s run) :
    ∃ earlier l, earlier ++ [l] <+: run ∧ Along step G s earlier ∧ ¬ G (final step s earlier) l := by
  induction run generalizing s with
  | nil => exact absurd trivial h
  | cons l run ih =>
    by_cases hG : G s l
    · obtain ⟨earlier, l', hprefix, halong, hlast⟩ := ih fun hrun => h ⟨hG, hrun⟩
      exact ⟨l :: earlier, l', List.cons_prefix_cons.mpr ⟨rfl, hprefix⟩, ⟨hG, halong⟩, hlast⟩
    · exact ⟨[], l, List.cons_prefix_cons.mpr ⟨rfl, List.nil_prefix⟩, trivial, hG⟩

/-- An invariant that every allowed step preserves holds throughout a run of allowed steps. -/
theorem throughout_of_along {I : σ → Prop} {G : σ → ℓ → Prop} (hstep : ∀ s l, I s → G s l → I (step s l)) {s : σ}
    {run : List ℓ} (hs : I s) (hrun : Along step G s run) : Throughout step I s run := by
  induction run generalizing s with
  | nil => exact hs
  | cons l run ih => exact ⟨hs, ih (hstep s l hs hrun.1) hrun.2⟩

/-- Where an invariant holds, a step that `G` allows does as `H` says: a run of allowed steps does so throughout. -/
theorem along_of_along {I : σ → Prop} {G H : σ → ℓ → Prop} (hstep : ∀ s l, I s → G s l → I (step s l))
    (hdoes : ∀ s l, I s → G s l → H s l) {s : σ} {run : List ℓ} (hs : I s) (hrun : Along step G s run) :
    Along step H s run := by
  induction run generalizing s with
  | nil => trivial
  | cons l run ih => exact ⟨hdoes s l hs hrun.1, ih (hstep s l hs hrun.1) hrun.2⟩

theorem final_of_step {I : σ → Prop} (hstep : ∀ s l, I s → I (step s l)) {s : σ} (hs : I s) (run : List ℓ) :
    I (final step s run) := by
  induction run generalizing s with
  | nil => exact hs
  | cons l run ih => exact ih (hstep s l hs)

/-- An invariant that every step preserves, and that makes every step do as `G` says, holds throughout every run that starts
with it, and every step of the run does so. -/
theorem throughout_and_along_iff {I : σ → Prop} {G : σ → ℓ → Prop} (hkeep : ∀ s l, I s → I (step s l))
    (hstep : ∀ s l, I s → G s l) {s : σ} {run : List ℓ} : Throughout step I s run ∧ Along step G s run ↔ I s := by
  constructor
  · intro ⟨hthroughout, _⟩
    exact throughout_iff_earlier.mp hthroughout [] List.nil_prefix
  · intro hs
    induction run generalizing s with
    | nil => exact ⟨hs, trivial⟩
    | cons l run ih =>
      obtain ⟨hthroughout, halong⟩ := ih (hkeep s l hs)
      exact ⟨⟨hs, hthroughout⟩, hstep s l hs, halong⟩

/-- If the steps `G` allows keep the invariant, the invariant gives `P`, and a step `G` forbids loses `P`, then `P` holds
throughout exactly the runs whose steps `G` allows. -/
theorem throughout_iff_along {I P : σ → Prop} {G : σ → ℓ → Prop}
    (hkeep : ∀ s l, I s → G s l → I (step s l)) (hbreak : ∀ s l, I s → ¬ G s l → ¬ P (step s l))
    (himp : ∀ s, I s → P s) {s : σ} {run : List ℓ} (hs : I s) : Throughout step P s run ↔ Along step G s run := by
  induction run generalizing s with
  | nil => exact iff_of_true (himp s hs) trivial
  | cons l run ih =>
    constructor
    · intro hrun
      have hnext : P (step s l) := throughout_iff_earlier.mp hrun.2 [] List.nil_prefix
      have hG : G s l := by
        by_contra hG
        exact hbreak s l hs hG hnext
      exact ⟨hG, (ih (hkeep s l hs hG)).mp hrun.2⟩
    · intro hrun
      exact ⟨himp s hs, (ih (hkeep s l hs hrun.1)).mpr hrun.2⟩

/-- While `G` allows the steps the run stays in `A`; the first step it forbids leads to `B`, and nothing leads out of `B`. -/
theorem final_dichotomy {A B : σ → Prop} {G : σ → ℓ → Prop} (hkeep : ∀ s l, A s → G s l → A (step s l))
    (hleave : ∀ s l, A s → ¬ G s l → B (step s l)) (hstay : ∀ s l, B s → B (step s l)) {s : σ} (hs : A s)
    (run : List ℓ) :
    (Along step G s run ∧ A (final step s run)) ∨ (¬ Along step G s run ∧ B (final step s run)) := by
  induction run generalizing s with
  | nil => exact .inl ⟨trivial, hs⟩
  | cons l run ih =>
    by_cases hG : G s l
    · rcases ih (hkeep s l hs hG) with ⟨halong, hfinal⟩ | ⟨halong, hfinal⟩
      · exact .inl ⟨⟨hG, halong⟩, hfinal⟩
      · exact .inr ⟨fun hrun => halong hrun.2, hfinal⟩
    · exact .inr ⟨fun hrun => hG hrun.1, final_of_step hstay (hleave s l hs hG) run⟩

/-- Two guards that agree wherever the invariant holds allow the same runs, if the steps they allow keep the invariant. -/
theorem along_congr_of_guard {I : σ → Prop} {G H : σ → ℓ → Prop} (hinv : ∀ s l, I s → G s l → I (step s l))
    (hguard : ∀ s l, I s → (G s l ↔ H s l)) {s : σ} {run : List ℓ} (hs : I s) :
    Along step G s run ↔ Along step H s run := by
  induction run generalizing s with
  | nil => exact Iff.rfl
  | cons l run ih =>
    rw [Along, Along, ← hguard s l hs]
    exact and_congr_right fun hG => ih (hinv s l hs hG)

theorem along_congr {I : σ → Prop} {G H : σ → ℓ → Prop} (hinv : ∀ s l, I s → I (step s l))
    (hguard : ∀ s l, I s → (G s l ↔ H s l)) {s : σ} {run : List ℓ} (hs : I s) :
    Along step G s run ↔ Along step H s run :=
  along_congr_of_guard (fun s l hI _ => hinv s l hI) hguard hs

/-- Two guards hold along a run together exactly if each of them does. -/
theorem along_and {G H : σ → ℓ → Prop} {s : σ} {run : List ℓ} :
    Along step G s run ∧ Along step H s run ↔ Along step (fun s l => G s l ∧ H s l) s run := by
  induction run generalizing s with
  | nil => exact and_self_iff
  | cons l run ih =>
    rw [Along, Along, Along, ← ih]
    exact and_and_and_comm

/-! ### Totals -/

section Total

variable {α : Type*} [AddMonoid α] (step) (amount : σ → ℓ → α)

/-- What the steps of a run amount to together. -/
def total : σ → List ℓ → α
  | _, [] => 0
  | s, l :: run => amount s l + total (step s l) run

variable {step amount}

/-- A measure that every step raises by its amount is raised by the total. -/
theorem measure_final {m : σ → α} (hstep : ∀ s l, m (step s l) = m s + amount s l) (s : σ) (run : List ℓ) :
    m (final step s run) = m s + total step amount s run := by
  induction run generalizing s with
  | nil => exact (add_zero _).symm
  | cons l run ih => rw [final_cons, ih, hstep, total, add_assoc]

end Total

section Balance

variable {α : Type*} [AddCancelCommMonoid α] {amount : σ → ℓ → α}

/-- What one measure rises more than another in each step, it has risen more in the run. -/
theorem balance_final {m k : σ → α} (hstep : ∀ s l, m (step s l) + k s = m s + k (step s l) + amount s l) (s : σ)
    (run : List ℓ) : m (final step s run) + k s = m s + k (final step s run) + total step amount s run := by
  induction run generalizing s with
  | nil => exact (add_zero _).symm
  | cons l run ih =>
    refine add_right_cancel (b := k (step s l)) ?_
    calc m (final step (step s l) run) + k s + k (step s l)
        = (m (final step (step s l) run) + k (step s l)) + k s := by abel
      _ = (m (step s l) + k s) + (k (final step (step s l) run) + total step amount (step s l) run) := by
        rw [ih]
        abel
      _ = m s + k (final step s (l :: run)) + total step amount s (l :: run) + k (step s l) := by
        rw [hstep, final_cons, total]
        abel

end Balance

/-! ### Replies -/

section Replies

variable {ρ : Type*} (serve : σ → ℓ → σ × ρ)

/-- What the labels of a run are answered with, in their order. -/
def replies : σ → List ℓ → List ρ
  | _, [] => []
  | s, l :: run => (serve s l).2 :: replies (serve s l).1 run

/-- No label is answered by two related states differently, or leads them apart. -/
structure Unobservable (Same : σ → σ → Prop) : Prop where
  reply_eq : ∀ {s s'} l, Same s s' → (serve s l).2 = (serve s' l).2
  keeps : ∀ {s s'} l, Same s s' → Same (serve s l).1 (serve s' l).1

variable {serve}

/-- The two-run rule. -/
theorem Unobservable.replies_eq {Same : σ → σ → Prop} (h : Unobservable serve Same) {s s' : σ} (hs : Same s s')
    (run : List ℓ) : replies serve s run = replies serve s' run := by
  induction run generalizing s s' with
  | nil => rfl
  | cons l run ih => rw [replies, replies, h.reply_eq l hs, ih (h.keeps l hs)]

end Replies

end Runs
