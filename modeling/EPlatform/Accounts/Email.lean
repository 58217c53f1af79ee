import EPlatform.Core.Text

/-!
# Addresses

The stored form of an address: Django lower-cases the domain, and the manager the rest. Only a few facts about
`str.lower()` are used, and they are kept with the function.
-/

namespace EPlatform.Accounts

/-- `str.lower()` and PostgreSQL's `lower()`. No character is lower-cased to an `@` or to white space, or across either. -/
structure Casing where
  lower : String → String
  dbLower : String → String
  lower_lower : ∀ s, lower (lower s) = lower s
  lower_at : ∀ name domain, lower (name ++ "@" ++ domain) = lower name ++ "@" ++ lower domain
  at_mem_lower : ∀ s, '@' ∈ (lower s).toList ↔ '@' ∈ s.toList
  strip_lower : ∀ s, strip (lower s) = lower (strip s)
  lower_eq_empty : ∀ s, lower s = "" ↔ s = ""

/-- `s.rsplit("@", 1)`, when there is an `@` to split at. -/
def rsplitAt (s : String) : String × String :=
  (.ofList (s.toList.rdropWhile (· ≠ '@')).dropLast, .ofList (s.toList.rtakeWhile (· ≠ '@')))

/-- `BaseUserManager.normalize_email`. -/
def Casing.normalizeEmail (casing : Casing) (email : String) : String :=
  if '@' ∈ (strip email).toList then
    let (name, domain) := rsplitAt (strip email)
    name ++ "@" ++ casing.lower domain
  else email

/-- What `_create_user` stores. -/
def Casing.storedEmail (casing : Casing) (email : String) : String := casing.lower (casing.normalizeEmail email)

theorem rsplitAt_append {s : String} (h : '@' ∈ s.toList) : (rsplitAt s).1 ++ "@" ++ (rsplitAt s).2 = s := by
  have hne : s.toList.rdropWhile (· ≠ '@') ≠ [] := by
    intro hnil
    simpa using List.rdropWhile_eq_nil_iff.mp hnil '@' h
  have hlast : (s.toList.rdropWhile (· ≠ '@')).getLast hne = '@' := by
    simpa using List.rdropWhile_last_not (· ≠ '@') s.toList hne
  have hname := List.dropLast_append_getLast hne
  rw [hlast] at hname
  apply String.toList_injective
  simp only [rsplitAt, String.toList_append, String.toList_ofList]
  show _ ++ ['@'] ++ _ = _
  rw [hname, List.rdropWhile_append_rtakeWhile]

theorem isWhitespace_at : isWhitespace '@' = false := by decide

/-- White space aside, an address has an `@` or not. -/
theorem at_mem_strip {s : String} : '@' ∈ (strip s).toList ↔ '@' ∈ s.toList := by
  rw [toList_strip]
  constructor
  · intro h
    exact (List.dropWhile_suffix _).subset ((List.rdropWhile_prefix isWhitespace _).subset h)
  · intro h
    rw [← List.takeWhile_append_dropWhile (p := isWhitespace) (l := s.toList)] at h
    have hdrop : '@' ∈ s.toList.dropWhile isWhitespace := by
      rcases List.mem_append.mp h with hmem | hmem
      · simpa [isWhitespace_at] using List.mem_takeWhile_imp hmem
      · exact hmem
    rw [← List.rdropWhile_append_rtakeWhile (p := isWhitespace) (l := s.toList.dropWhile isWhitespace)] at hdrop
    rcases List.mem_append.mp hdrop with hmem | hmem
    · exact hmem
    · simpa [isWhitespace_at] using List.mem_rtakeWhile_imp hmem

namespace Casing

variable (casing : Casing) {email email' : String}

theorem storedEmail_of_at (h : '@' ∈ email.toList) : casing.storedEmail email = casing.lower (strip email) := by
  have hstrip : '@' ∈ (strip email).toList := at_mem_strip.mpr h
  calc casing.storedEmail email
      = casing.lower ((rsplitAt (strip email)).1 ++ "@" ++ casing.lower (rsplitAt (strip email)).2) := by
        rw [storedEmail, normalizeEmail, if_pos hstrip]
    _ = casing.lower ((rsplitAt (strip email)).1 ++ "@" ++ (rsplitAt (strip email)).2) := by
        rw [casing.lower_at, casing.lower_lower, casing.lower_at]
    _ = casing.lower (strip email) := by rw [rsplitAt_append hstrip]

theorem storedEmail_of_not_at (h : '@' ∉ email.toList) : casing.storedEmail email = casing.lower email := by
  rw [storedEmail, normalizeEmail, if_neg (mt at_mem_strip.mp h)]

/-- With an `@` in it, a stored address has neither capitals nor white space around it. -/
theorem lower_strip_storedEmail (h : '@' ∈ (casing.storedEmail email).toList) :
    casing.lower (strip (casing.storedEmail email)) = casing.storedEmail email := by
  have hemail : '@' ∈ email.toList := by
    by_contra hnot
    rw [casing.storedEmail_of_not_at hnot, casing.at_mem_lower] at h
    exact hnot h
  rw [casing.storedEmail_of_at hemail, casing.strip_lower, strip_strip, casing.lower_lower]

/-- Re-casings of one address are stored alike. -/
theorem storedEmail_congr (h : casing.lower email' = casing.lower email) :
    casing.storedEmail email' = casing.storedEmail email := by
  have hat : '@' ∈ email'.toList ↔ '@' ∈ email.toList := by
    rw [← casing.at_mem_lower email', h, casing.at_mem_lower]
  by_cases hemail : '@' ∈ email.toList
  · rw [casing.storedEmail_of_at hemail, casing.storedEmail_of_at (hat.mpr hemail), ← casing.strip_lower,
      ← casing.strip_lower, h]
  · rw [casing.storedEmail_of_not_at hemail, casing.storedEmail_of_not_at (mt hat.mp hemail), h]

end Casing

/-! ### Addresses in ASCII -/

theorem toNat_toLower (c : Char) :
    c.toLower.toNat = if 65 ≤ c.toNat ∧ c.toNat ≤ 90 then c.toNat + 32 else c.toNat := by
  have hrange : (c.val ≥ 'A'.val ∧ c.val ≤ 'Z'.val) ↔ 65 ≤ c.toNat ∧ c.toNat ≤ 90 := by
    simp only [ge_iff_le, UInt32.le_iff_toNat_le]
    exact Iff.rfl
  unfold Char.toLower
  split
  · rename_i hupper
    have hupper := hrange.mp hupper
    rw [if_pos hupper]
    show (c.val + ('a'.val - 'A'.val)).toNat = c.val.toNat + 32
    rw [UInt32.toNat_add]
    have hle : c.val.toNat ≤ 90 := hupper.2
    have hshift : ('a'.val - 'A'.val).toNat = 32 := by decide
    omega
  · rename_i hupper
    rw [if_neg (mt hrange.mpr hupper)]

theorem toLower_toLower (c : Char) : c.toLower.toLower = c.toLower := by
  apply Char.toNat_inj.mp
  rw [toNat_toLower, if_neg]
  rw [toNat_toLower]
  split <;> omega

theorem toLower_eq_at {c : Char} : c.toLower = '@' ↔ c = '@' := by
  rw [← Char.toNat_inj, ← Char.toNat_inj, toNat_toLower]
  show _ = 64 ↔ _ = 64
  split <;> omega

theorem isWhitespace_toLower (c : Char) : isWhitespace c.toLower = isWhitespace c := by
  by_cases hupper : 65 ≤ c.toNat ∧ c.toNat ≤ 90
  · have hlower : c.toLower.toNat = c.toNat + 32 := by rw [toNat_toLower, if_pos hupper]
    rw [Bool.eq_iff_iff]
    simp only [isWhitespace, hlower, Bool.or_eq_true, Bool.and_eq_true, decide_eq_true_eq]
    omega
  · have hsame : c.toLower = c := by
      apply Char.toNat_inj.mp
      rw [toNat_toLower, if_neg hupper]
    rw [hsame]

def asciiLower (s : String) : String := .ofList (s.toList.map Char.toLower)

@[simp] theorem toList_asciiLower (s : String) : (asciiLower s).toList = s.toList.map Char.toLower := by
  simp [asciiLower]

theorem strip_asciiLower (s : String) : strip (asciiLower s) = asciiLower (strip s) := by
  have hblank : isWhitespace ∘ Char.toLower = isWhitespace := funext isWhitespace_toLower
  apply String.toList_injective
  rw [toList_strip, toList_asciiLower, toList_asciiLower, toList_strip, List.dropWhile_map, hblank, List.rdropWhile,
    ← List.map_reverse, List.dropWhile_map, hblank, ← List.map_reverse, List.rdropWhile]

/-- The casing of addresses in ASCII. -/
def asciiCasing : Casing where
  lower := asciiLower
  dbLower := asciiLower
  lower_lower s := by
    apply String.toList_injective
    rw [toList_asciiLower, toList_asciiLower, List.map_map]
    exact List.map_congr_left fun c _ => toLower_toLower c
  lower_at name domain := by
    apply String.toList_injective
    simp
  at_mem_lower s := by simp [toLower_eq_at]
  strip_lower := strip_asciiLower
  lower_eq_empty s := by
    rw [← String.toList_eq_nil_iff, toList_asciiLower, List.map_eq_nil_iff, String.toList_eq_nil_iff]

end EPlatform.Accounts
