import Mathlib.Data.List.Chain

/-!
# Logs of a mutable state

A mutable state says what is true now, and an append-only log beside it says how it came to be. An entry names the state
it left and the one it reached; `Tells` says that the entries follow one another and that the last one reached the
state as it stands. Where many states share a log, `about` reads the entries of one of them off it.
-/

namespace Runs

variable {ε τ : Type*} (source : ε → Option τ) (target : ε → τ)

/-- The log is one unbroken story that ends in the state. -/
structure Tells (log : List ε) (state : τ) : Prop where
  chain : log.IsChain fun earlier later => source later = some (target earlier)
  ending : log.getLast?.map target = some state

instance [DecidableEq τ] (log : List ε) (state : τ) : Decidable (Tells source target log state) :=
  decidable_of_iff
    ((log.IsChain fun earlier later => source later = some (target earlier)) ∧ log.getLast?.map target = some state)
    ⟨fun ⟨hchain, hending⟩ => ⟨hchain, hending⟩, fun ⟨hchain, hending⟩ => ⟨hchain, hending⟩⟩

variable {source target}

/-- One more entry continues the story when it starts from the state and ends in the next one. -/
theorem Tells.concat_iff {log : List ε} {state : τ} (h : Tells source target log state) (entry : ε) (next : τ) :
    Tells source target (log ++ [entry]) next ↔ source entry = some state ∧ target entry = next := by
  obtain ⟨last, hlast, hstate⟩ := Option.map_eq_some_iff.mp h.ending
  constructor
  · rintro ⟨hchain, hending⟩
    rw [List.getLast?_concat, Option.map_some, Option.some.injEq] at hending
    have hnext := (List.isChain_append.mp hchain).2.2 last hlast entry rfl
    exact ⟨hstate ▸ hnext, hending⟩
  · rintro ⟨hsource, htarget⟩
    constructor
    · rw [List.isChain_append]
      refine ⟨h.chain, List.isChain_singleton entry, ?_⟩
      intro earlier hearlier later hlater
      rw [Option.mem_def, hlast, Option.some.injEq] at hearlier
      rw [List.head?_cons, Option.mem_def, Option.some.injEq] at hlater
      rw [← hearlier, ← hlater, hstate, hsource]
    · rw [List.getLast?_concat, Option.map_some, htarget]

theorem tells_singleton {entry : ε} : Tells source target [entry] (target entry) :=
  ⟨List.isChain_singleton entry, rfl⟩

/-! ### Shared logs -/

section Shared

variable {κ : Type*} [DecidableEq κ] {subject : ε → κ} {k other : κ} {log written : List ε}

/-- The entries of a shared log that are about one subject. -/
def about (subject : ε → κ) (k : κ) (log : List ε) : List ε := log.filter fun entry => subject entry = k

theorem about_append_self (h : ∀ entry ∈ written, subject entry = k) :
    about subject k (log ++ written) = about subject k log ++ written := by
  have hown : written.filter (fun entry => subject entry = k) = written := by
    rw [List.filter_eq_self]
    intro entry hentry
    simpa using h entry hentry
  rw [about, List.filter_append, hown, about]

theorem about_append_other (h : ∀ entry ∈ written, subject entry = k) (hother : other ≠ k) :
    about subject other (log ++ written) = about subject other log := by
  have hnone : written.filter (fun entry => subject entry = other) = [] := by
    rw [List.filter_eq_nil_iff]
    intro entry hentry
    simpa [h entry hentry] using hother.symm
  rw [about, List.filter_append, hnone, List.append_nil, about]

theorem about_eq_nil (h : ∀ entry ∈ log, subject entry ≠ k) : about subject k log = [] := by
  rw [about, List.filter_eq_nil_iff]
  intro entry hentry
  simpa using h entry hentry

end Shared

end Runs
