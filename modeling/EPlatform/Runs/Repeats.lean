import EPlatform.Runs.Run

/-!
# Runs that repeat steps

A queue that delivers at least once turns a run into one in which some steps come again. The steps that may be repeated
carry a key; `firstTimes` leaves each of them out but the first time. What is looked at, a view of the state, is driven
by a part of the state that no step changes, and under that assumption repeating is harmless in every run exactly when
each repeated step finds what it would write.
-/

namespace Runs

variable {σ ℓ κ φ ν : Type*}

/-- Every step acts on the view as its label and the fixed part of the state say. -/
structure Drives (step : σ → ℓ → σ) (fixed : σ → φ) (view : σ → ν) (effect : φ → ℓ → ν → ν) : Prop where
  fixed_step : ∀ s l, fixed (step s l) = fixed s
  view_step : ∀ s l, view (step s l) = effect (fixed s) l (view s)

variable [DecidableEq κ] (key : ℓ → Option κ)

/-- The run without the steps whose key is seen or came before. -/
def firstTimes : List κ → List ℓ → List ℓ
  | _, [] => []
  | seen, l :: run =>
    match key l with
    | none => l :: firstTimes seen run
    | some k => if k ∈ seen then firstTimes seen run else l :: firstTimes (k :: seen) run

/-- The step has a key, and a step with that key came earlier. -/
def Repeats (earlier : List ℓ) (l : ℓ) : Prop := ∃ k ∈ key l, k ∈ earlier.filterMap key

instance (earlier : List ℓ) (l : ℓ) : Decidable (Repeats key earlier l) :=
  inferInstanceAs (Decidable (∃ k ∈ key l, k ∈ earlier.filterMap key))

variable {key}

theorem firstTimes_concat (seen : List κ) (run : List ℓ) (l : ℓ) :
    firstTimes key seen (run ++ [l]) =
      firstTimes key seen run ++
        if ∃ k ∈ key l, k ∈ seen ∨ k ∈ run.filterMap key then [] else [l] := by
  induction run generalizing seen with
  | nil =>
    cases hkey : key l with
    | none => simp [firstTimes, hkey]
    | some k => by_cases hseen : k ∈ seen <;> simp [firstTimes, hkey, hseen]
  | cons l' run ih =>
    simp only [List.cons_append, firstTimes]
    cases hkey : key l' with
    | none => simp only [ih, List.cons_append, List.filterMap_cons_none hkey]
    | some k =>
      have hlater : ∀ k' : κ, (k' ∈ k :: seen ∨ k' ∈ run.filterMap key) ↔
          (k' ∈ seen ∨ k' ∈ (l' :: run).filterMap key) := by
        intro k'
        simp only [List.filterMap_cons_some hkey, List.mem_cons]
        tauto
      by_cases hseen : k ∈ seen
      · have hdrop : ∀ k' : κ, (k' ∈ seen ∨ k' ∈ run.filterMap key) ↔
            (k' ∈ seen ∨ k' ∈ (l' :: run).filterMap key) := by
          intro k'
          rw [← hlater k', List.mem_cons, or_assoc]
          constructor
          · exact .inr
          · intro h
            rcases h with rfl | h
            · exact .inl hseen
            · exact h
        simp only [hseen, if_true, ih, hdrop]
      · simp only [hseen, if_false, ih, hlater, List.cons_append]

theorem firstTimes_concat_of_repeats {run : List ℓ} {l : ℓ} (h : Repeats key run l) :
    firstTimes key [] (run ++ [l]) = firstTimes key [] run := by
  have hseen : ∃ k ∈ key l, k ∈ ([] : List κ) ∨ k ∈ run.filterMap key := by
    obtain ⟨k, hk, hearlier⟩ := h
    exact ⟨k, hk, .inr hearlier⟩
  rw [firstTimes_concat, if_pos hseen, List.append_nil]

theorem firstTimes_concat_of_not_repeats {run : List ℓ} {l : ℓ} (h : ¬ Repeats key run l) :
    firstTimes key [] (run ++ [l]) = firstTimes key [] run ++ [l] := by
  rw [firstTimes_concat, if_neg]
  intro hseen
  obtain ⟨k, hk, hnil | hearlier⟩ := hseen
  · exact List.not_mem_nil hnil
  · exact h ⟨k, hk, hearlier⟩

namespace Drives

variable {step : σ → ℓ → σ} {fixed : σ → φ} {view : σ → ν} {effect : φ → ℓ → ν → ν}

theorem fixed_final (h : Drives step fixed view effect) (s : σ) (run : List ℓ) :
    fixed (final step s run) = fixed s := by
  induction run generalizing s with
  | nil => rfl
  | cons l run ih => rw [final_cons, ih, h.fixed_step]

theorem view_final_concat (h : Drives step fixed view effect) (s : σ) (run : List ℓ) (l : ℓ) :
    view (final step s (run ++ [l])) = effect (fixed s) l (view (final step s run)) := by
  rw [final_append, final_cons, final_nil, h.view_step, h.fixed_final]

/-- After every part of a run, what is looked at is what first times alone would have left, if and only if each repeated
step finds what it would write. -/
theorem firstTimes_iff (h : Drives step fixed view effect) (s : σ) (run : List ℓ) :
    (∀ earlier, earlier <+: run → view (final step s earlier) = view (final step s (firstTimes key [] earlier))) ↔
      ∀ earlier l, earlier ++ [l] <+: run → Repeats key earlier l →
        view (step (final step s earlier) l) = view (final step s earlier) := by
  constructor
  · intro hsame earlier l hprefix hrepeats
    have hbefore := hsame earlier ((List.prefix_append earlier [l]).trans hprefix)
    have hafter := hsame (earlier ++ [l]) hprefix
    rwa [firstTimes_concat_of_repeats hrepeats, ← hbefore, final_append] at hafter
  · intro hnoop earlier hprefix
    induction earlier using List.reverseRecOn with
    | nil => rfl
    | append_singleton earlier l ih =>
      have hbefore := ih ((List.prefix_append earlier [l]).trans hprefix)
      by_cases hrepeats : Repeats key earlier l
      · rw [firstTimes_concat_of_repeats hrepeats, ← hbefore, final_append]
        exact hnoop earlier l hprefix hrepeats
      · rw [firstTimes_concat_of_not_repeats hrepeats, h.view_final_concat, h.view_final_concat, hbefore]

end Drives

end Runs
