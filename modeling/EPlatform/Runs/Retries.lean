import Mathlib.Data.Nat.Find
import Mathlib.Logic.Function.Iterate
import Mathlib.Tactic.Common

/-!
# Tasks that schedule themselves again

An execution of a task makes an external call, or does not come to it, and may ask for another execution. The queue sets
no bound, but it may refuse what it is asked for. `Bounded` is what one execution has to do for the task to keep a budget of
retries; from it follow the number of the calls of a whole run, that it ends, and what it leaves, in exactly the runs whose
retries are taken by the queue.
-/

namespace Runs

variable {σ κ α : Type*}

/-- What an execution leaves, what it made its call with, and whether it is to run again. -/
structure Attempted (σ κ : Type*) where
  state : σ
  called : Option κ
  again : Bool

/-- The state, the calls made so far, and how many retries came before the execution that is queued, if one is. -/
structure Worker (σ κ : Type*) where
  state : σ
  calls : List κ
  queued : Option Nat

/-- The queued execution runs, and its call is answered by `answers`. -/
def Worker.execute (task : Nat → α → σ → Attempted σ κ) (answers : Nat → α) (w : Worker σ κ) : Worker σ κ :=
  match w.queued with
  | none => w
  | some retries =>
    let after := task retries (answers retries) w.state
    ⟨after.state, w.calls ++ after.called.toList, if after.again then some (retries + 1) else none⟩

/-- The task is queued, and it and every retry it asks for run, `n` executions at most. -/
def executions (task : Nat → α → σ → Attempted σ κ) (answers : Nat → α) (s : σ) (n : Nat) : Worker σ κ :=
  (Worker.execute task answers)^[n] ⟨s, [], some 0⟩

/-- A call that raises is followed by another as long as there are retries left and the queue takes them, and any other ends the
task. `Waiting n` holds while the retry after `n` failures is queued, and `Ended n` after a last call that is the `n`-th
retry, exactly if what it has to write fits. -/
structure Bounded (task : Nat → α → σ → Attempted σ κ) (raises : α → Prop) (takes : Nat → α → Prop) (fits : α → Prop)
    (budget : Nat) (Waiting : Nat → σ → Prop) (Ended : Nat → α → σ → Prop) : Prop where
  goesOn : ∀ {n a s}, Waiting n s → n < budget → raises a → takes n a →
    (task n a s).called.isSome = true ∧ (task n a s).again = true ∧ Waiting (n + 1) (task n a s).state
  refused : ∀ {n a s}, Waiting n s → n < budget → raises a → ¬ takes n a → (task n a s).again = false
  stops : ∀ {n a s}, Waiting n s → n ≤ budget → (raises a → n = budget) → fits a →
    (task n a s).called.isSome = true ∧ (task n a s).again = false ∧ Ended n a (task n a s).state
  misses : ∀ {n a s}, Waiting n s → n ≤ budget → (raises a → n = budget) → ¬ fits a → ¬ Ended n a (task n a s).state

/-- The `k`-th retry is the first call that does not raise, or the last there is a budget for. -/
structure StopsAt (raises : α → Prop) (budget : Nat) (answers : Nat → α) (k : Nat) : Prop where
  within : k ≤ budget
  before : ∀ i < k, raises (answers i)
  last : raises (answers k) → k = budget

theorem exists_stopsAt (raises : α → Prop) (budget : Nat) (answers : Nat → α) :
    ∃ k, StopsAt raises budget answers k := by
  classical
  have hexists : ∃ k, k = budget ∨ ¬ raises (answers k) := ⟨budget, .inl rfl⟩
  refine ⟨Nat.find hexists, ?_, ?_, ?_⟩
  · exact Nat.find_min' hexists (.inl rfl)
  · intro i hi
    by_contra hraises
    exact Nat.find_min hexists hi (.inr hraises)
  · intro hraises
    exact (Nat.find_spec hexists).resolve_right (not_not.mpr hraises)

variable {task : Nat → α → σ → Attempted σ κ} {raises : α → Prop} {takes : Nat → α → Prop} {fits : α → Prop} {budget : Nat}
  {Waiting : Nat → σ → Prop} {Ended : Nat → α → σ → Prop} {answers : Nat → α} {s : σ} {k n : Nat}

theorem executions_succ : executions task answers s (n + 1) = (executions task answers s n).execute task answers :=
  Function.iterate_succ_apply' _ n _

/-- A worker with nothing queued leaves everything as it is. -/
theorem executions_idle (h : (executions task answers s n).queued = none) (m : Nat) :
    executions task answers s (n + m) = executions task answers s n := by
  induction m with
  | zero => rfl
  | succ m ih => rw [← Nat.add_assoc, executions_succ, ih, Worker.execute, h]

/-- The queue takes every retry the budget has, as long as every call raises. -/
def Queued (raises : α → Prop) (takes : Nat → α → Prop) (budget : Nat) (answers : Nat → α) : Prop :=
  ∀ n < budget, (∀ i ≤ n, raises (answers i)) → takes n (answers n)

namespace Bounded

/-- As long as every call has raised, the next retry is queued. -/
theorem waiting (h : Bounded task raises takes fits budget Waiting Ended) (hs : Waiting 0 s) (hn : n ≤ budget)
    (hqueue : Queued raises takes budget answers) (hraises : ∀ i < n, raises (answers i)) :
    (executions task answers s n).calls.length = n ∧ (executions task answers s n).queued = some n ∧
      Waiting n (executions task answers s n).state := by
  induction n with
  | zero => exact ⟨rfl, rfl, hs⟩
  | succ n ih =>
    obtain ⟨hcalls, hqueued, hwaiting⟩ := ih (Nat.le_of_succ_le hn) fun i hi => hraises i (Nat.lt_succ_of_lt hi)
    have htakes := hqueue n hn fun i hi => hraises i (Nat.lt_succ_of_le hi)
    obtain ⟨hcalled, hagain, hnext⟩ := h.goesOn hwaiting hn (hraises n (Nat.lt_succ_self n)) htakes
    rw [executions_succ]
    simp only [Worker.execute, hqueued, hagain, List.length_append, hcalls, Option.length_toList, hcalled]
    exact ⟨rfl, rfl, hnext⟩

/-- After its last call nothing is queued, however long one waits. -/
theorem ended (h : Bounded task raises takes fits budget Waiting Ended) (hs : Waiting 0 s)
    (hqueue : Queued raises takes budget answers) (hk : StopsAt raises budget answers k) (hfits : fits (answers k)) (hn : k < n) :
    (executions task answers s n).calls.length = k + 1 ∧ (executions task answers s n).queued = none ∧
      Ended k (answers k) (executions task answers s n).state := by
  obtain ⟨hcalls, hqueued, hwaiting⟩ := h.waiting hs hk.within hqueue hk.before
  obtain ⟨hcalled, hagain, hended⟩ := h.stops hwaiting hk.within hk.last hfits
  have hlast : (executions task answers s (k + 1)).calls.length = k + 1 ∧
      (executions task answers s (k + 1)).queued = none ∧
        Ended k (answers k) (executions task answers s (k + 1)).state := by
    rw [executions_succ]
    simp only [Worker.execute, hqueued, hagain, List.length_append, hcalls, Option.length_toList, hcalled]
    exact ⟨rfl, rfl, hended⟩
  obtain ⟨m, rfl⟩ := Nat.exists_eq_add_of_lt hn
  rw [Nat.add_right_comm, executions_idle hlast.2.1]
  exact hlast

/-- A run makes at most one call more than there are retries, and it ends. -/
theorem bounded (h : Bounded task raises takes fits budget Waiting Ended) (hs : Waiting 0 s)
    (hqueue : Queued raises takes budget answers) (hk : StopsAt raises budget answers k) (hfits : fits (answers k)) (n : Nat) :
    (executions task answers s n).calls.length ≤ budget + 1 ∧ (budget < n → (executions task answers s n).queued = none) := by
  rcases Nat.lt_or_ge k n with hlater | hearlier
  · obtain ⟨hcalls, hqueued, -⟩ := h.ended hs hqueue hk hfits hlater
    exact ⟨hcalls ▸ Nat.succ_le_succ hk.within, fun _ => hqueued⟩
  · have hn : n ≤ budget := Nat.le_trans hearlier hk.within
    obtain ⟨hcalls, -, -⟩ := h.waiting hs hn hqueue fun i hi => hk.before i (Nat.lt_of_lt_of_le hi hearlier)
    refine ⟨?_, fun hlater => absurd hn (Nat.not_le.mpr hlater)⟩
    rw [hcalls]
    exact Nat.le_succ_of_le hn

end Bounded

/-- The budget is exact. A run makes one call for every retry and the first one, and stops as soon as a call does not raise
or the last retry does. -/
structure ExactBudget (task : Nat → α → σ → Attempted σ κ) (raises : α → Prop) (budget : Nat)
    (Waiting : Nat → σ → Prop) (Ended : Nat → α → σ → Prop) (answers : Nat → α) (s : σ) : Prop where
  calls : ∀ n, (executions task answers s n).calls.length ≤ budget + 1
  terminates : ∀ n, budget < n → (executions task answers s n).queued = none
  waits : ∀ n ≤ budget, (∀ i < n, raises (answers i)) → (executions task answers s n).calls.length = n ∧
    (executions task answers s n).queued = some n ∧ Waiting n (executions task answers s n).state
  ends : ∀ k, StopsAt raises budget answers k → ∀ n, k < n → (executions task answers s n).calls.length = k + 1 ∧
    (executions task answers s n).queued = none ∧ Ended k (answers k) (executions task answers s n).state

/-- A run keeps the budget exactly when the queue takes its retries and what its last call has to write fits. -/
theorem Bounded.exactBudget_iff (h : Bounded task raises takes fits budget Waiting Ended) (hs : Waiting 0 s) :
    ExactBudget task raises budget Waiting Ended answers s ↔
      Queued raises takes budget answers ∧ ∀ k, StopsAt raises budget answers k → fits (answers k) := by
  constructor
  · intro hexact
    constructor
    · intro n hn hraises
      by_contra hrefused
      obtain ⟨-, hqueued, hwaiting⟩ := hexact.waits n (Nat.le_of_lt hn) fun i hi => hraises i (Nat.le_of_lt hi)
      obtain ⟨-, hnext, -⟩ := hexact.waits (n + 1) hn fun i hi => hraises i (Nat.le_of_lt_succ hi)
      have hagain := h.refused hwaiting hn (hraises n (Nat.le_refl n)) hrefused
      rw [executions_succ] at hnext
      simp only [Worker.execute, hqueued, hagain] at hnext
      cases hnext
    · intro k hk
      by_contra hmisfit
      obtain ⟨-, hqueued, hwaiting⟩ := hexact.waits k hk.within hk.before
      obtain ⟨-, -, hended⟩ := hexact.ends k hk (k + 1) (Nat.lt_succ_self k)
      rw [executions_succ] at hended
      simp only [Worker.execute, hqueued] at hended
      exact h.misses hwaiting hk.within hk.last hmisfit hended
  · intro ⟨hqueue, hfits⟩
    obtain ⟨k, hk⟩ := exists_stopsAt raises budget answers
    constructor
    · exact fun n => (h.bounded hs hqueue hk (hfits k hk) n).1
    · exact fun n => (h.bounded hs hqueue hk (hfits k hk) n).2
    · exact fun n hn hraises => h.waiting hs hn hqueue hraises
    · exact fun k hk n hn => h.ended hs hqueue hk (hfits k hk) hn

end Runs
