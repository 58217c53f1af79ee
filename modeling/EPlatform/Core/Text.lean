import Mathlib.Data.List.DropRight

/-!
# Strings as Python handles them
-/

namespace EPlatform

/-- The characters `str.strip()` removes. -/
def isWhitespace (c : Char) : Bool :=
  let n := c.toNat
  (9 ≤ n && n ≤ 13) || (28 ≤ n && n ≤ 32) || n = 0x85 || n = 0xa0 || n = 0x1680 || (0x2000 ≤ n && n ≤ 0x200a) ||
    n = 0x2028 || n = 0x2029 || n = 0x202f || n = 0x205f || n = 0x3000

/-- `s.strip()`. -/
def strip (s : String) : String := String.ofList ((s.toList.dropWhile isWhitespace).rdropWhile isWhitespace)

/-- `message[:2000]`. -/
def truncate (message : String) : String := String.ofList (message.toList.take 2000)

theorem truncate_ne_empty {message : String} (h : message ≠ "") : truncate message ≠ "" := by
  intro hempty
  have hlist := congrArg String.toList hempty
  rw [truncate, String.toList_ofList, String.toList_empty, List.take_eq_nil_iff] at hlist
  rcases hlist with hzero | hnil
  · cases hzero
  · exact h (String.toList_injective hnil)

@[simp] theorem toList_strip (s : String) :
    (strip s).toList = (s.toList.dropWhile isWhitespace).rdropWhile isWhitespace := by
  simp [strip]

/-- What both ends have been dropped of starts with nothing to drop. -/
theorem dropWhile_dropEnds (p : Char → Bool) (l : List Char) :
    ((l.dropWhile p).rdropWhile p).dropWhile p = (l.dropWhile p).rdropWhile p := by
  apply List.dropWhile_eq_self_iff.mpr
  intro hlength
  have hinitial := List.rdropWhile_prefix p (l.dropWhile p)
  rw [hinitial.getElem hlength]
  exact List.dropWhile_get_zero_not p l (Nat.lt_of_lt_of_le hlength hinitial.length_le)

theorem strip_strip (s : String) : strip (strip s) = strip s := by
  apply String.toList_injective
  rw [toList_strip, toList_strip, dropWhile_dropEnds, List.rdropWhile_idempotent]

end EPlatform
