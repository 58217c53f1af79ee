import EPlatform.Core.Columns
import Mathlib.Algebra.Group.Nat.Defs

/-!
# Calls to providers
-/

namespace EPlatform

/-- What `f"{type(exc).__name__}: {exc}"` reads off an exception. -/
structure Raised where
  name : String
  text : String
  deriving DecidableEq, Repr

def Raised.message (exc : Raised) : String := exc.name ++ ": " ++ exc.text

theorem Raised.message_ne_empty (exc : Raised) : exc.message ≠ "" := by
  intro hempty
  have hlength := congrArg String.length hempty
  simp only [Raised.message, String.length_append] at hlength
  have hcolon : ": ".length = 2 := by decide
  rw [hcolon] at hlength
  simp at hlength

/-- A task sees its call raise. -/
def CallRaises {α : Type} (answer : Except Raised α) : Prop := ∃ exc, answer = .error exc

/-- How a call ends. One that raises may have been accepted all the same, under an id the caller never learns. -/
inductive Answer (α : Type)
  | returned (value : α)
  | raised (exc : Raised) (accepted : Option String)
  deriving DecidableEq, Repr

/-- What the caller sees of it. -/
def Answer.result {α : Type} : Answer α → Except Raised α
  | .returned value => .ok value
  | .raised exc _ => .error exc

/-! ### Retries -/

/-- The last microsecond of the year 9999, where `datetime` ends. -/
def DATETIME_MAX : Nat := 253402300799999999

/-- `apply_async(countdown=countdown)`: the moment the task is due has to be a `datetime`. `Task.retry` answers its
`OverflowError` with a `Reject`, and nothing is queued. -/
def queueTakes (now : Instant) (countdown : Nat) : Bool := now + countdown * 1000000 ≤ DATETIME_MAX

/-- A wait of ten seconds that doubles is queued for the 34th attempt until the year 4555. -/
theorem queueTakes_of_le {now attempt : Nat} (hattempt : attempt ≤ 34) (hnow : now ≤ 81603608959999999) :
    queueTakes now (2 ^ attempt * 10) = true := by
  have hpow : 2 ^ attempt ≤ 2 ^ 34 := Nat.pow_le_pow_right (by decide) hattempt
  refine decide_eq_true ?_
  show now + 2 ^ attempt * 10 * 1000000 ≤ 253402300799999999
  omega

/-- For the 35th it never is. -/
theorem queueTakes_eq_false {attempt : Nat} (hattempt : 35 ≤ attempt) (now : Nat) :
    queueTakes now (2 ^ attempt * 10) = false := by
  have hpow : 2 ^ 35 ≤ 2 ^ attempt := Nat.pow_le_pow_right (by decide) hattempt
  refine decide_eq_false ?_
  show ¬ now + 2 ^ attempt * 10 * 1000000 ≤ 253402300799999999
  omega

end EPlatform
