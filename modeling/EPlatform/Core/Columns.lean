import Mathlib.Tactic.Common

/-!
# Column types

The ranges the database enforces on numbers, the texts it is sent, and the other values several tables share.
-/

namespace EPlatform

/-- A `DateTimeField`, in microseconds. -/
abbrev Instant := Nat

/-- A `UUIDField`. -/
abbrev Uuid := Nat

/-- What an `IntegerField` column holds. -/
def IsInteger (n : Int) : Prop := -2147483648 ≤ n ∧ n ≤ 2147483647

/-- What a `BigIntegerField` column holds. -/
def IsBigInteger (n : Int) : Prop := -9223372036854775808 ≤ n ∧ n ≤ 9223372036854775807

/-- What a `PositiveIntegerField` column holds. -/
def IsPositiveInteger (n : Int) : Prop := 0 ≤ n ∧ n ≤ 2147483647

/-- What a `PositiveSmallIntegerField` column holds. -/
def IsPositiveSmallInteger (n : Int) : Prop := 0 ≤ n ∧ n ≤ 32767

/-- A text that is sent to the database: a value with a NUL in it raises before. -/
def IsSendable (text : String) : Prop := Char.ofNat 0 ∉ text.toList

instance (n : Int) : Decidable (IsInteger n) := inferInstanceAs (Decidable (_ ∧ _))

instance (n : Int) : Decidable (IsBigInteger n) := inferInstanceAs (Decidable (_ ∧ _))

instance (n : Int) : Decidable (IsPositiveInteger n) := inferInstanceAs (Decidable (_ ∧ _))

instance (n : Int) : Decidable (IsPositiveSmallInteger n) := inferInstanceAs (Decidable (_ ∧ _))

instance (text : String) : Decidable (IsSendable text) := inferInstanceAs (Decidable (¬ _))

end EPlatform
