import EPlatform.Runs.Run

/-!
# Two levels of a system

A concrete system is watched by an abstract one, which is told of each step what `see` makes of it: one label, several, or
none at all where the step is no concern of the abstract system. What relates the states of the two after each step
relates them after every run.
-/

namespace Runs

variable {σ τ ℓ κ : Type*} {step : σ → ℓ → σ} {spec : τ → κ → τ} {see : σ → ℓ → List κ}

/-- What the abstract system is told of a run. -/
def seen (step : σ → ℓ → σ) (see : σ → ℓ → List κ) : σ → List ℓ → List κ
  | _, [] => []
  | s, l :: run => see s l ++ seen step see (step s l) run

/-- A step of the concrete system is what the abstract one makes of it. -/
def Simulates (step : σ → ℓ → σ) (spec : τ → κ → τ) (see : σ → ℓ → List κ) (R : σ → τ → Prop) : Prop :=
  ∀ s a l, R s a → R (step s l) (final spec a (see s l))

theorem seen_append (s : σ) (run later : List ℓ) :
    seen step see s (run ++ later) = seen step see s run ++ seen step see (final step s run) later := by
  induction run generalizing s with
  | nil => rfl
  | cons l run ih => rw [List.cons_append, seen, seen, ih, List.append_assoc, final_cons]

theorem Simulates.final {R : σ → τ → Prop} (h : Simulates step spec see R) {s : σ} {a : τ} (hs : R s a) (run : List ℓ) :
    R (final step s run) (final spec a (seen step see s run)) := by
  induction run generalizing s a with
  | nil => exact hs
  | cons l run ih =>
    rw [final_cons, seen, final_append]
    exact ih (h s a l hs)

end Runs
