import Mathlib.Data.List.Basic
import Mathlib.Tactic.Common

/-!
# Session locks

A lock that a session takes as often as it likes and that no two sessions hold at once: what is held of it is a list with
an entry for each time it was granted. It goes with the session that holds it.
-/

namespace Runs

/-- The sessions that hold the lock, once for each time it was granted. -/
abbrev SessionLock (β : Type*) := List β

namespace SessionLock

variable {β : Type*} {session other : β} {held held' : SessionLock β}

/-- Nobody but the session holds the lock. -/
def OnlyOf (session : β) (held : SessionLock β) : Prop := ∀ other ∈ held, other = session

/-- No two sessions hold it. -/
def Exclusive (held : SessionLock β) : Prop := ∀ session ∈ held, OnlyOf session held

theorem OnlyOf.exclusive (h : OnlyOf session held) : Exclusive held := by
  intro other hother
  rw [h other hother]
  exact h

theorem OnlyOf.cons (h : OnlyOf session held) : OnlyOf session (session :: held) :=
  List.forall_mem_cons.mpr ⟨rfl, h⟩

theorem Exclusive.of_subset (h : Exclusive held) (hsubset : held' ⊆ held) : Exclusive held' :=
  fun session hsession other hother => h session (hsubset hsession) other (hsubset hother)

variable [DecidableEq β]

/-- A lock is granted again to the session that holds it. -/
def tryLock (session : β) (held : SessionLock β) : Bool × SessionLock β :=
  if ∀ other ∈ held, other = session then (true, session :: held) else (false, held)

def unlock (session : β) (held : SessionLock β) : SessionLock β := held.erase session

/-- The session ends, and everything it holds is free. -/
def endSession (session : β) (held : SessionLock β) : SessionLock β := held.filter fun other => other ≠ session

theorem tryLock_of_onlyOf (h : OnlyOf session held) : tryLock session held = (true, session :: held) := if_pos h

theorem tryLock_of_not_onlyOf (h : ¬ OnlyOf session held) : tryLock session held = (false, held) := if_neg h

theorem mem_endSession : other ∈ endSession session held ↔ other ∈ held ∧ other ≠ session := by
  rw [endSession, List.mem_filter, decide_eq_true_iff]

theorem endSession_subset : endSession session held ⊆ held :=
  fun _ hother => (mem_endSession.mp hother).1

end SessionLock

end Runs
