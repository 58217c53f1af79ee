import Mathlib.Data.Nat.Log
import Mathlib.Tactic.Linarith
import Mathlib.Tactic.Ring

/-!
# Doubles

The binary64 number nearest to a quotient of naturals. Every double is a multiple of the least one and is given as that
multiple. Below a power of two the doubles are so dense that quotients far enough apart are told apart.
-/

namespace Formats

/-- The nearest natural, and the even one of two. -/
def roundDiv (num den : Nat) : Nat :=
  if 2 * (num % den) < den ∨ (2 * (num % den) = den ∧ num / den % 2 = 0) then num / den else num / den + 1

/-- The least positive double is `2 ^ -1074`. -/
def LEAST_PLACE : Nat := 1074

/-- The double nearest to `num / den`. Its 53 places end at `2 ^ place`. -/
def nearestDouble (num den : Nat) : Nat :=
  let place := Nat.log2 (num * 2 ^ LEAST_PLACE / den) - 52
  roundDiv (num * 2 ^ LEAST_PLACE) (den * 2 ^ place) * 2 ^ place

/-- Rounding is off by half a unit at most. -/
theorem roundDiv_near (num : Nat) {den : Nat} (hden : 0 < den) :
    2 * num ≤ 2 * (den * roundDiv num den) + den ∧ 2 * (den * roundDiv num den) ≤ 2 * num + den := by
  have hdivision : den * (num / den) + num % den = num := Nat.div_add_mod num den
  have hremainder : num % den < den := Nat.mod_lt num hden
  unfold roundDiv
  split
  · omega
  · rw [Nat.mul_succ]
    omega

theorem nearestDouble_near (num : Nat) {den place : Nat} (hden : 0 < den)
    (hplace : Nat.log2 (num * 2 ^ LEAST_PLACE / den) - 52 = place) :
    2 * (num * 2 ^ LEAST_PLACE) ≤ 2 * (den * nearestDouble num den) + den * 2 ^ place ∧
      2 * (den * nearestDouble num den) ≤ 2 * (num * 2 ^ LEAST_PLACE) + den * 2 ^ place := by
  have hnear := roundDiv_near (num * 2 ^ LEAST_PLACE) (Nat.mul_pos hden (Nat.two_pow_pos place))
  have hvalue : den * nearestDouble num den =
      den * 2 ^ place * roundDiv (num * 2 ^ LEAST_PLACE) (den * 2 ^ place) := by
    rw [nearestDouble, hplace, Nat.mul_comm (roundDiv _ _), Nat.mul_assoc]
  rw [hvalue]
  exact hnear

/-- Under `2 ^ bits` the last place is `2 ^ (bits - 53)` at most, which is that multiple of the least double. -/
theorem place_le {num den bits : Nat} (hden : 0 < den) (hnum : num < den * 2 ^ bits) :
    Nat.log2 (num * 2 ^ LEAST_PLACE / den) - 52 ≤ bits + LEAST_PLACE - 53 := by
  have hquotient : num * 2 ^ LEAST_PLACE / den < 2 ^ (bits + LEAST_PLACE) := by
    rw [Nat.div_lt_iff_lt_mul hden, pow_add, Nat.mul_right_comm, Nat.mul_comm (2 ^ bits)]
    exact Nat.mul_lt_mul_of_pos_right hnum (Nat.two_pow_pos LEAST_PLACE)
  by_cases hzero : num * 2 ^ LEAST_PLACE / den = 0
  · rw [hzero]
    exact Nat.zero_le _
  · have hlog := (Nat.log2_lt hzero).mpr hquotient
    omega

/-- Two quotients under `2 ^ bits` that differ by more than the last place there are different doubles. -/
theorem nearestDouble_ne {num num' den bits : Nat} (hden : 0 < den) (hle : num ≤ num') (hnum : num' < den * 2 ^ bits)
    (hfar : num * 2 ^ LEAST_PLACE + den * 2 ^ (bits + LEAST_PLACE - 53) < num' * 2 ^ LEAST_PLACE) :
    nearestDouble num den ≠ nearestDouble num' den := by
  intro heq
  have hunit : ∀ place, place ≤ bits + LEAST_PLACE - 53 → den * 2 ^ place ≤ den * 2 ^ (bits + LEAST_PLACE - 53) :=
    fun place h => Nat.mul_le_mul_left den (Nat.pow_le_pow_right (by decide) h)
  have hplace := hunit _ (place_le hden (Nat.lt_of_le_of_lt hle hnum))
  have hplace' := hunit _ (place_le hden hnum)
  have hbelow := (nearestDouble_near num hden rfl).2
  have habove := (nearestDouble_near num' hden rfl).1
  rw [← heq] at habove
  omega

/-! ### Order -/

theorem le_roundDiv {num den k : Nat} (hden : 0 < den) (h : k * den ≤ num) : k ≤ roundDiv num den := by
  have hquotient : k ≤ num / den := (Nat.le_div_iff_mul_le hden).mpr h
  unfold roundDiv
  split <;> omega

theorem roundDiv_le {num den k : Nat} (hden : 0 < den) (h : num ≤ k * den) : roundDiv num den ≤ k := by
  rcases Nat.eq_or_lt_of_le h with rfl | hlt
  · unfold roundDiv
    rw [Nat.mul_mod_left, Nat.mul_div_cancel k hden, if_pos (.inl (by omega))]
  · have hquotient : num / den < k := (Nat.div_lt_iff_lt_mul hden).mpr hlt
    unfold roundDiv
    split <;> omega

theorem roundDiv_mono {num num' : Nat} (den : Nat) (h : num ≤ num') : roundDiv num den ≤ roundDiv num' den := by
  have hquotient : num / den ≤ num' / den := Nat.div_le_div_right h
  rcases Nat.eq_or_lt_of_le hquotient with heq | hlt
  · have hremainder : num % den ≤ num' % den := by
      have hnum := Nat.div_add_mod num den
      have hnum' := Nat.div_add_mod num' den
      rw [heq] at hnum
      omega
    unfold roundDiv
    rw [heq]
    split <;> split <;> omega
  · unfold roundDiv
    split <;> split <;> omega

/-- A quotient of more places is rounded at a later one, and stays above. -/
theorem nearestDouble_mono {num num' den : Nat} (hden : 0 < den) (h : num ≤ num') :
    nearestDouble num den ≤ nearestDouble num' den := by
  have hscaled : num * 2 ^ LEAST_PLACE ≤ num' * 2 ^ LEAST_PLACE := Nat.mul_le_mul_right _ h
  unfold nearestDouble
  generalize num * 2 ^ LEAST_PLACE = n at *
  generalize num' * 2 ^ LEAST_PLACE = n' at *
  have hquotient : n / den ≤ n' / den := Nat.div_le_div_right hscaled
  have hunit : ∀ place, 0 < den * 2 ^ place := fun place => Nat.mul_pos hden (Nat.two_pow_pos place)
  have hlog : Nat.log2 (n / den) ≤ Nat.log2 (n' / den) := by
    rw [Nat.log2_eq_log_two, Nat.log2_eq_log_two]
    exact Nat.log_mono_right hquotient
  have hbelow : n < 2 ^ 53 * (den * 2 ^ (Nat.log2 (n / den) - 52)) := by
    have hlt : n / den < 2 ^ (53 + (Nat.log2 (n / den) - 52)) :=
      Nat.lt_of_lt_of_le Nat.lt_log2_self (Nat.pow_le_pow_right (by decide) (by omega))
    rw [Nat.div_lt_iff_lt_mul hden, pow_add] at hlt
    calc n < 2 ^ 53 * 2 ^ (Nat.log2 (n / den) - 52) * den := hlt
      _ = 2 ^ 53 * (den * 2 ^ (Nat.log2 (n / den) - 52)) := by ring
  dsimp only
  rcases Nat.eq_or_lt_of_le (Nat.sub_le_sub_right hlog 52) with hsame | hlater
  · rw [hsame]
    exact Nat.mul_le_mul_right _ (roundDiv_mono _ hscaled)
  · have hne : n' / den ≠ 0 := by
      intro hzero
      rw [hzero] at hlater
      exact absurd hlater (Nat.not_lt_zero _)
    have habove : 2 ^ 52 * (den * 2 ^ (Nat.log2 (n' / den) - 52)) ≤ n' := by
      have hle : 2 ^ (52 + (Nat.log2 (n' / den) - 52)) ≤ n' / den :=
        Nat.le_trans (Nat.pow_le_pow_right (by decide) (by omega)) (Nat.log2_self_le hne)
      rw [Nat.le_div_iff_mul_le hden, pow_add] at hle
      calc 2 ^ 52 * (den * 2 ^ (Nat.log2 (n' / den) - 52)) = 2 ^ 52 * 2 ^ (Nat.log2 (n' / den) - 52) * den := by ring
        _ ≤ n' := hle
    calc roundDiv n (den * 2 ^ (Nat.log2 (n / den) - 52)) * 2 ^ (Nat.log2 (n / den) - 52)
        ≤ 2 ^ 53 * 2 ^ (Nat.log2 (n / den) - 52) :=
          Nat.mul_le_mul_right _ (roundDiv_le (hunit _) (Nat.le_of_lt hbelow))
      _ = 2 ^ 52 * 2 ^ (Nat.log2 (n / den) - 52 + 1) := by ring
      _ ≤ 2 ^ 52 * 2 ^ (Nat.log2 (n' / den) - 52) :=
          Nat.mul_le_mul_left _ (Nat.pow_le_pow_right (by decide) hlater)
      _ ≤ roundDiv n' (den * 2 ^ (Nat.log2 (n' / den) - 52)) * 2 ^ (Nat.log2 (n' / den) - 52) :=
          Nat.mul_le_mul_right _ (le_roundDiv (hunit _) habove)

/-- A natural of 53 places is a double itself. -/
theorem nearestDouble_mul {n den : Nat} (hden : 0 < den) (hn : n < 2 ^ 53) :
    nearestDouble (n * den) den = n * 2 ^ LEAST_PLACE := by
  have hplace : Nat.log2 (n * den * 2 ^ LEAST_PLACE / den) - 52 ≤ LEAST_PLACE := by
    have hlt : n * den < den * 2 ^ 53 := by
      rw [Nat.mul_comm]
      exact Nat.mul_lt_mul_of_pos_left hn hden
    have hle := place_le hden hlt
    omega
  unfold nearestDouble
  dsimp only
  generalize Nat.log2 (n * den * 2 ^ LEAST_PLACE / den) - 52 = place at *
  have hpow : 2 ^ LEAST_PLACE = 2 ^ (LEAST_PLACE - place) * 2 ^ place := by
    rw [← pow_add, Nat.sub_add_cancel hplace]
  have hvalue : n * den * 2 ^ LEAST_PLACE = n * 2 ^ (LEAST_PLACE - place) * (den * 2 ^ place) := by
    rw [hpow]
    ring
  have hunit : 0 < den * 2 ^ place := Nat.mul_pos hden (Nat.two_pow_pos place)
  have hround := Nat.le_antisymm (roundDiv_le hunit (Nat.le_of_eq hvalue)) (le_roundDiv hunit (Nat.le_of_eq hvalue.symm))
  rw [hround, Nat.mul_assoc, ← hpow]

/-- Under `2 ^ bits` a quotient below a natural by more than half of the last place there is rounded to less. -/
theorem nearestDouble_lt {n num den bits : Nat} (hden : 0 < den) (hnum : num < den * 2 ^ bits)
    (hfar : 2 * (num * 2 ^ LEAST_PLACE) + den * 2 ^ (bits + LEAST_PLACE - 53) < 2 * (den * (n * 2 ^ LEAST_PLACE))) :
    nearestDouble num den < n * 2 ^ LEAST_PLACE := by
  have hnear := (nearestDouble_near num hden rfl).2
  have hunit : den * 2 ^ (Nat.log2 (num * 2 ^ LEAST_PLACE / den) - 52) ≤ den * 2 ^ (bits + LEAST_PLACE - 53) :=
    Nat.mul_le_mul_left den (Nat.pow_le_pow_right (by decide) (place_le hden hnum))
  have hlt : den * nearestDouble num den < den * (n * 2 ^ LEAST_PLACE) := by omega
  exact Nat.lt_of_mul_lt_mul_left hlt

end Formats
