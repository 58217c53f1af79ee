import EPlatform.Formats.JsonText
import Mathlib.Data.List.Chain
import Mathlib.Data.List.Nodup
import Mathlib.Data.List.TakeWhile
import Mathlib.Tactic.IntervalCases

/-!
# JSON is read as it was written

Of every document that can be written: all of what is written is printable ASCII, and the reader finds the document in it.
-/

namespace Formats.JsonText

/-! ### Strings -/

/-- No two code points are the halves of one character. -/
def WellPaired (text : Text) : Prop := text.IsChain fun c d => ¬ (IsHigh c.val ∧ IsLow d.val)

def unitsOf (c : Point) : List StringUnit :=
  match shortEscape c with
  | some _ => [.char c]
  | none =>
    if IsPrintable c then [.char c]
    else if c.val < 0x10000 then [.escaped c.val]
    else [.escaped (highSurrogate c), .escaped (lowSurrogate c)]

variable {c : Point} {text rest : Text} {units : List StringUnit}

theorem shortEscape_facts : ∀ escaped ∈ SHORT_ESCAPES, escaped.2 ≠ point 'u' ∧ unescape escaped.2 = some escaped.1 ∧
    IsPrintable escaped.2 := by
  have hall : (SHORT_ESCAPES.all fun escaped => decide (escaped.2 ≠ point 'u' ∧ unescape escaped.2 = some escaped.1 ∧
      IsPrintable escaped.2)) = true := by decide
  exact fun escaped hmem => of_decide_eq_true (List.all_eq_true.mp hall escaped hmem)

theorem shortEscape_eq_some {letter : Point} (h : shortEscape c = some letter) : (c, letter) ∈ SHORT_ESCAPES := by
  obtain ⟨entry, hentry, rfl⟩ := Option.map_eq_some_iff.mp h
  have hkey : entry.1 = c := by simpa using List.find?_some hentry
  rw [← hkey]
  exact List.mem_of_find?_eq_some hentry

theorem ne_of_shortEscape_eq_none (h : shortEscape c = none) : c ≠ point '"' ∧ c ≠ point '\\' := by
  have hnone : ∀ entry ∈ SHORT_ESCAPES, entry.1 ≠ c := by simpa [shortEscape] using h
  constructor
  · rintro rfl
    exact hnone (point '"', point '"') (by decide) rfl
  · rintro rfl
    exact hnone (point '\\', point '\\') (by decide) rfl

theorem hexDigit_facts : ∀ n < 16, hexValue (hexDigit n) = some n ∧ IsPrintable (hexDigit n) := by decide

theorem readHex_hexDigit {n : Nat} (h : n < 0x10000) :
    readHex (hexDigit (n / 4096)) (hexDigit (n / 256 % 16)) (hexDigit (n / 16 % 16)) (hexDigit (n % 16)) = some n := by
  rw [readHex, (hexDigit_facts (n / 4096) (by omega)).1, (hexDigit_facts (n / 256 % 16) (by omega)).1,
    (hexDigit_facts (n / 16 % 16) (by omega)).1, (hexDigit_facts (n % 16) (by omega)).1]
  show some (((n / 4096 * 16 + n / 256 % 16) * 16 + n / 16 % 16) * 16 + n % 16) = some n
  congr 1
  omega

theorem scanUnits_unicodeEscape {n : Nat} (h : n < 0x10000) :
    scanUnits (unicodeEscape n ++ rest) = (scanUnits rest).map fun (units, rest) => (.escaped n :: units, rest) := by
  show scanUnits (point '\\' :: point 'u' :: _ :: _ :: _ :: _ :: rest) = _
  rw [scanUnits.eq_def]
  simp only [if_neg (by decide : ¬ point '\\' = point '"'), ↓reduceIte, readHex_hexDigit h]
  cases scanUnits rest <;> rfl

theorem scanUnits_escape : scanUnits (escape c ++ rest) =
    (scanUnits rest).map fun (units, rest) => (unitsOf c ++ units, rest) := by
  unfold escape unitsOf
  cases hshort : shortEscape c with
  | some letter =>
    obtain ⟨hletter, hunescape, -⟩ := shortEscape_facts _ (shortEscape_eq_some hshort)
    show scanUnits (point '\\' :: letter :: rest) = _
    rw [scanUnits.eq_def]
    simp only [if_neg (by decide : ¬ point '\\' = point '"'), ↓reduceIte, if_neg hletter, hunescape]
    cases scanUnits rest <;> rfl
  | none =>
    obtain ⟨hquote, hbackslash⟩ := ne_of_shortEscape_eq_none hshort
    dsimp only
    split_ifs with hprintable hbasic
    · show scanUnits (c :: rest) = _
      rw [scanUnits.eq_def]
      simp only [if_neg hquote, if_neg hbackslash, if_neg (Nat.not_lt.mpr hprintable.1)]
      cases scanUnits rest <;> rfl
    · exact scanUnits_unicodeEscape hbasic
    · have hc : c.val < 0x110000 := c.isLt
      rw [List.append_assoc, scanUnits_unicodeEscape (by rw [highSurrogate]; omega),
        scanUnits_unicodeEscape (by rw [lowSurrogate]; omega)]
      cases scanUnits rest <;> rfl

theorem scanUnits_flatMap_escape (text rest : Text) :
    scanUnits (text.flatMap escape ++ point '"' :: rest) = some (text.flatMap unitsOf, rest) := by
  induction text with
  | nil =>
    rw [List.flatMap_nil, List.nil_append, scanUnits.eq_def]
    exact if_pos rfl
  | cons c text ih =>
    rw [List.flatMap_cons, List.append_assoc, scanUnits_escape, ih]
    rfl

theorem ofNat_val (c : Point) : (Fin.ofNat 0x110000 c.val : Point) = c := by
  ext
  exact Nat.mod_eq_of_lt c.isLt

/-- The halves of a character make it up. -/
theorem surrogates_facts (h : ¬ c.val < 0x10000) : IsHigh (highSurrogate c) ∧ IsLow (lowSurrogate c) ∧
    Fin.ofNat 0x110000 (0x10000 + (highSurrogate c - 0xD800) * 1024 + (lowSurrogate c - 0xDC00)) = c := by
  have hc : c.val < 0x110000 := c.isLt
  unfold IsHigh IsLow highSurrogate lowSurrogate
  refine ⟨by omega, by omega, ?_⟩
  ext
  show (0x10000 + (0xD800 + (c.val - 0x10000) / 1024 - 0xD800) * 1024 +
    (0xDC00 + (c.val - 0x10000) % 1024 - 0xDC00)) % 0x110000 = c.val
  omega

theorem not_isLow_of_isHigh {n : Nat} (h : IsHigh n) : ¬ IsLow n := by
  unfold IsHigh IsLow at *
  omega

/-- What stands for a character: itself, its number, or the numbers of its halves. -/
theorem unitsOf_cases (c : Point) : unitsOf c = [.char c] ∨ unitsOf c = [.escaped c.val] ∨
    (¬ c.val < 0x10000 ∧ unitsOf c = [.escaped (highSurrogate c), .escaped (lowSurrogate c)]) := by
  unfold unitsOf
  split
  · exact .inl rfl
  · split_ifs with hprintable hbasic
    · exact .inl rfl
    · exact .inr (.inl rfl)
    · exact .inr (.inr ⟨hbasic, rfl⟩)

/-- The units of a text are joined to it, behind a high surrogate too if the text does not begin with a low one. -/
theorem joinUnits_flatMap_unitsOf (text : Text) (h : WellPaired text) : joinUnits none (text.flatMap unitsOf) = text ∧
    ∀ high : Point, IsHigh high.val → WellPaired (high :: text) →
      joinUnits (some high.val) (text.flatMap unitsOf) = high :: text := by
  induction text with
  | nil =>
    refine ⟨rfl, fun high _ _ => ?_⟩
    rw [List.flatMap_nil, joinUnits, ofNat_val]
  | cons c text ih =>
    obtain ⟨hplain, hpending⟩ := ih h.tail
    rw [List.flatMap_cons]
    obtain hunits | hunits | ⟨hastral, hunits⟩ := unitsOf_cases c
    · rw [hunits]
      refine ⟨?_, fun high _ _ => ?_⟩
      · rw [List.singleton_append, joinUnits, hplain]
      · rw [List.singleton_append, joinUnits, hplain, ofNat_val]
    · rw [hunits, List.singleton_append]
      refine ⟨?_, fun high hhigh hpaired => ?_⟩
      · rw [joinUnits]
        split_ifs with hc
        · exact hpending c hc h
        · rw [hplain, ofNat_val]
      · have hlow : ¬ IsLow c.val := fun hlow => (List.isChain_cons_cons.mp hpaired).1 ⟨hhigh, hlow⟩
        rw [joinUnits, if_neg hlow, ofNat_val]
        split_ifs with hc
        · rw [hpending c hc h]
        · rw [hplain, ofNat_val]
    · obtain ⟨hhigh, hlow, hjoined⟩ := surrogates_facts hastral
      rw [hunits, List.cons_append, List.singleton_append]
      refine ⟨?_, fun high _ _ => ?_⟩
      · rw [joinUnits, if_pos hhigh, joinUnits, if_pos hlow, hjoined, hplain]
      · rw [joinUnits, if_neg (not_isLow_of_isHigh hhigh), if_pos hhigh, joinUnits, if_pos hlow, hjoined, hplain, ofNat_val]

theorem scanString_writeString (h : WellPaired text) :
    scanString (text.flatMap escape ++ point '"' :: rest) = some (text, rest) := by
  rw [scanString, scanUnits_flatMap_escape]
  exact congrArg (fun joined => some (joined, rest)) (joinUnits_flatMap_unitsOf text h).1

theorem writeString_append (text rest : Text) :
    writeString text ++ rest = point '"' :: (text.flatMap escape ++ point '"' :: rest) := by
  simp [writeString]

/-! ### Numbers -/

/-- No number goes on here. -/
def Ends (rest : Text) : Prop := ∀ c ∈ rest.head?, ¬ IsNumeric c

theorem ends_cons (h : ¬ IsNumeric c) : Ends (c :: rest) := by
  intro d hd
  rw [List.head?_cons, Option.mem_some_iff] at hd
  exact hd ▸ h

theorem takeWhile_of_ends {p : Point → Bool} {word : Text} (hword : ∀ c ∈ word, p c = true)
    (hrest : ∀ c ∈ rest.head?, p c = false) : (word ++ rest).takeWhile p = word ∧ (word ++ rest).dropWhile p = rest := by
  rw [List.takeWhile_append_of_pos hword, List.dropWhile_append_of_pos hword]
  cases rest with
  | nil => simp
  | cons c rest =>
    have hc : p c = false := hrest c (by simp)
    simp [hc]

theorem isDigit_point {d : Char} (h : d.isDigit = true) : IsDigit (point d) ∧ (point d).val = d.toNat := by
  have hbounds : 48 ≤ d.toNat ∧ d.toNat ≤ 57 := by
    rw [Char.isDigit, Bool.and_eq_true, decide_eq_true_eq, decide_eq_true_eq] at h
    exact h
  have hval : (point d).val = d.toNat := Nat.mod_eq_of_lt (by omega)
  unfold IsDigit
  rw [hval]
  exact ⟨hbounds, rfl⟩

theorem isDigit_of_mem_writeNat {n : Nat} (h : c ∈ writeNat n) : IsDigit c := by
  obtain ⟨d, hd, rfl⟩ := List.mem_map.mp h
  exact (isDigit_point (Nat.isDigit_of_mem_toDigits (by decide) (by decide) hd)).1

theorem digitsValue_writeNat (n : Nat) : digitsValue (writeNat n) = n := by
  have hfold : ∀ (digits : List Char) (m : Nat), (∀ d ∈ digits, d.isDigit = true) →
      (digits.map point).foldl (fun n c => 10 * n + (c.val - 48)) m = Nat.ofDigitChars 10 digits m := by
    intro digits
    induction digits with
    | nil => exact fun _ _ => rfl
    | cons d digits ih =>
      intro m hdigits
      rw [List.map_cons, List.foldl_cons, ih _ fun e he => hdigits e (List.mem_cons_of_mem _ he), Nat.ofDigitChars_cons,
        (isDigit_point (hdigits d List.mem_cons_self)).2]
      rfl
  rw [digitsValue, writeNat, hfold _ 0 fun d hd => Nat.isDigit_of_mem_toDigits (by decide) (by decide) hd,
    Nat.ofDigitChars_ten_toDigits]

/-- Only zero is written with a zero in front. -/
theorem head_toDigits {n : Nat} (h : 0 < n) : ∃ d digits, Nat.toDigits 10 n = d :: digits ∧ d ≠ '0' := by
  induction n using Nat.strongRecOn with
  | ind n ih =>
    by_cases hsmall : n < 10
    · refine ⟨n.digitChar, [], Nat.toDigits_of_lt_base hsmall, ?_⟩
      interval_cases n <;> decide
    · obtain ⟨d, digits, hdigits, hd⟩ := ih (n / 10) (by omega) (by omega)
      rw [Nat.toDigits_of_base_le (by decide) (Nat.le_of_not_lt hsmall), hdigits]
      exact ⟨d, _, rfl, hd⟩

theorem dropDigits_eq_nil (h : ∀ c ∈ text, IsDigit c) : dropDigits text = [] :=
  List.dropWhile_eq_nil_iff.mpr fun c hc => decide_eq_true (h c hc)

theorem point_injective_of_isDigit {d : Char} (hd : d.isDigit = true) (h : point d = point '0') : d = '0' := by
  have hval : d.toNat = 48 := by
    rw [← (isDigit_point hd).2, h]
    rfl
  exact Char.ext (UInt32.toNat_inj.mp hval)

theorem natEnd_writeNat (n : Nat) : natEnd (writeNat n) = some [] := by
  by_cases hzero : n = 0
  · subst hzero
    rfl
  · obtain ⟨d, digits, hdigits, hd⟩ := head_toDigits (Nat.pos_of_ne_zero hzero)
    have hwrite : writeNat n = point d :: digits.map point := by rw [writeNat, hdigits, List.map_cons]
    have hall : ∀ c ∈ point d :: digits.map point, IsDigit c := fun c hc => isDigit_of_mem_writeNat (hwrite ▸ hc)
    have hdigit : d.isDigit = true :=
      Nat.isDigit_of_mem_toDigits (by decide) (by decide) (hdigits ▸ List.mem_cons_self)
    rw [hwrite, natEnd, if_neg fun h => hd (point_injective_of_isDigit hdigit h), if_pos (hall _ List.mem_cons_self),
      dropDigits_eq_nil fun c hc => hall c (List.mem_cons_of_mem _ hc)]

theorem exists_writeNat (n : Nat) : ∃ d digits, writeNat n = d :: digits ∧ IsDigit d := by
  cases hwrite : writeNat n with
  | nil => exact absurd (List.map_eq_nil_iff.mp hwrite) Nat.toDigits_ne_nil
  | cons d digits => exact ⟨d, digits, rfl, isDigit_of_mem_writeNat (hwrite ▸ List.mem_cons_self)⟩

theorem ne_minus_of_isDigit (h : IsDigit c) : c ≠ point '-' := by
  rintro rfl
  revert h
  decide

section Ints

variable {F : Type} (floats : FloatText F)

theorem filter_writeNat (n : Nat) : (writeNat n).filter (fun c => decide (IsDigit c)) = writeNat n :=
  List.filter_eq_self.mpr fun _ hc => decide_eq_true (isDigit_of_mem_writeNat hc)

theorem intEnd_writeInt (n : Int) : intEnd (writeInt n) = some [] := by
  cases n with
  | ofNat n =>
    obtain ⟨d, digits, hwrite, hd⟩ := exists_writeNat n
    rw [writeInt, hwrite, intEnd, if_neg (ne_minus_of_isDigit hd), ← hwrite, natEnd_writeNat]
  | negSucc n => rw [writeInt, intEnd, if_pos rfl, natEnd_writeNat]

theorem intValue_writeInt (n : Int) : intValue (writeInt n) = n := by
  cases n with
  | ofNat n =>
    obtain ⟨d, digits, hwrite, hd⟩ := exists_writeNat n
    rw [writeInt, hwrite, intValue, if_neg (ne_minus_of_isDigit hd), ← hwrite, digitsValue_writeNat]
    rfl
  | negSucc n =>
    rw [writeInt, intValue, if_pos rfl, digitsValue_writeNat]
    rfl

theorem length_digits_writeInt (n : Int) :
    ((writeInt n).filter fun c => decide (IsDigit c)).length = (Nat.toDigits 10 n.natAbs).length := by
  cases n with
  | ofNat n =>
    rw [writeInt, filter_writeNat, writeNat, List.length_map]
    rfl
  | negSucc n =>
    rw [writeInt, List.filter_cons_of_neg (by decide), filter_writeNat, writeNat, List.length_map]
    rfl

theorem readNumber_writeInt {n : Int} (h : FitsInt n) : readNumber floats (writeInt n) = some (.int n) := by
  rw [readNumber, intEnd_writeInt, Option.bind_eq_bind, Option.bind_some, if_pos rfl, length_digits_writeInt, intValue_writeInt]
  exact if_pos h

theorem isNumeric_of_mem_writeInt {n : Int} (h : c ∈ writeInt n) : IsNumeric c := by
  cases n with
  | ofNat n => exact .inl (isDigit_of_mem_writeNat h)
  | negSucc n =>
    obtain rfl | hc := List.mem_cons.mp h
    · decide
    · exact .inl (isDigit_of_mem_writeNat hc)

end Ints

/-! ### Words -/

section Words

variable {F : Type} {floats : FloatText F} {word : Text} {value : Document F}

/-- A digit, behind a sign or not. -/
theorem head_of_intEnd {left : Text} (h : intEnd word = some left) :
    (∃ d digits, word = d :: digits ∧ IsDigit d) ∨ ∃ d digits, word = point '-' :: d :: digits ∧ IsDigit d := by
  have hnat : ∀ {text : Text}, natEnd text = some left → ∃ d digits, text = d :: digits ∧ IsDigit d := by
    intro text htext
    cases text with
    | nil => cases htext
    | cons d digits =>
      refine ⟨d, digits, rfl, ?_⟩
      rw [natEnd] at htext
      split_ifs at htext with hzero hdigit
      · rw [hzero]
        decide
      · exact hdigit
  cases word with
  | nil => cases h
  | cons c rest =>
    rw [intEnd] at h
    split_ifs at h with hminus
    · obtain ⟨d, digits, rfl, hd⟩ := hnat h
      exact .inr ⟨d, digits, by rw [hminus], hd⟩
    · exact .inl (hnat h)

theorem constants_facts : ∀ entry ∈ CONSTANTS floats, ∃ a b word, entry.1 = a :: b :: word ∧ ¬ IsDigit a ∧
    (a = point '-' → ¬ IsDigit b) := by
  intro entry hentry
  simp only [CONSTANTS, List.mem_cons, List.not_mem_nil, or_false] at hentry
  obtain rfl | rfl | rfl | rfl | rfl | rfl := hentry <;> exact ⟨_, _, _, rfl, by decide, by decide⟩

/-- No constant begins like a number. -/
theorem find_constants_of_intEnd {left : Text} (h : intEnd word = some left) (rest : Text) :
    (CONSTANTS floats).find? (·.1.isPrefixOf (word ++ rest)) = none := by
  rw [List.find?_eq_none]
  intro entry hentry hprefix
  obtain ⟨a, b, tail, hword, ha, hminus⟩ := constants_facts entry hentry
  obtain ⟨behind, hbehind⟩ := List.isPrefixOf_iff_prefix.mp hprefix
  rw [hword] at hbehind
  obtain ⟨d, digits, rfl, hd⟩ | ⟨d, digits, rfl, hd⟩ := head_of_intEnd h
  · exact ha ((List.cons.inj hbehind).1 ▸ hd)
  · obtain ⟨hsign, htail⟩ := List.cons.inj hbehind
    exact hminus hsign ((List.cons.inj htail).1 ▸ hd)

theorem scanWord_of_readNumber (hword : ∀ c ∈ word, IsNumeric c) (h : readNumber floats word = some value)
    (hrest : Ends rest) : scanWord floats (word ++ rest) = some (value, rest) := by
  obtain ⟨left, hleft, -⟩ := Option.bind_eq_some_iff.mp h
  obtain ⟨htake, hdrop⟩ := takeWhile_of_ends (p := fun c => decide (IsNumeric c))
    (fun c hc => decide_eq_true (hword c hc)) fun c hc => decide_eq_false (hrest c hc)
  rw [scanWord, find_constants_of_intEnd hleft]
  simp only [htake, hdrop, h, Option.bind_eq_bind, Option.bind_some]
  rfl

theorem scanWord_constant (word : Text) (value : Document F) (h : (word, value) ∈ CONSTANTS floats) (rest : Text) :
    scanWord floats (word ++ rest) = some (value, rest) := by
  simp only [CONSTANTS, List.mem_cons, List.not_mem_nil, or_false, Prod.mk.injEq] at h
  obtain ⟨rfl, rfl⟩ | ⟨rfl, rfl⟩ | ⟨rfl, rfl⟩ | ⟨rfl, rfl⟩ | ⟨rfl, rfl⟩ | ⟨rfl, rfl⟩ := h <;> rfl

/-- A number with a fraction or an exponent. -/
def IsFloatWord (word : Text) : Prop :=
  (∀ c ∈ word, IsNumeric c) ∧ ∃ left, intEnd word = some left ∧ left ≠ [] ∧ exponentEnd (fractionEnd left) = []

/-- What a float is written as is a number or a constant, and read as the float. -/
structure FloatText.Spells (floats : FloatText F) (value : F) : Prop where
  parse_repr : floats.parse (floats.repr value) = value
  isWord : floats.repr value ∈ [points "NaN", points "Infinity", points "-Infinity"] ∨ IsFloatWord (floats.repr value)

theorem scanWord_repr {value : F} (h : floats.Spells value) (hrest : Ends rest) :
    scanWord floats (floats.repr value ++ rest) = some (.float value, rest) := by
  obtain hconstant | ⟨hnumeric, left, hleft, hne, hend⟩ := h.isWord
  · have hentry : (floats.repr value, Document.float value) ∈ CONSTANTS floats := by
      have hparse := h.parse_repr
      simp only [List.mem_cons, List.not_mem_nil, or_false] at hconstant
      obtain hword | hword | hword := hconstant <;> rw [hword] at hparse ⊢ <;> simp [CONSTANTS, ← hparse]
    exact scanWord_constant _ _ hentry rest
  · refine scanWord_of_readNumber hnumeric ?_ hrest
    rw [readNumber, hleft, Option.bind_eq_bind, Option.bind_some, if_neg hne, if_pos hend, h.parse_repr]

end Words

/-! ### Documents -/

section Documents

variable {F : Type} (floats : FloatText F)

mutual

/-- It can be written, and what is written can be read. -/
def IsReadable : Document F → Prop
  | .int value => FitsInt value
  | .float value => floats.Spells value
  | .str text => WellPaired text
  | .list items => AreReadable items
  | .dict fields => FieldsReadable fields ∧ (fields.map Prod.fst).Nodup
  | _ => True

def AreReadable : List (Document F) → Prop
  | [] => True
  | item :: items => IsReadable item ∧ AreReadable items

def FieldsReadable : List (Text × Document F) → Prop
  | [] => True
  | (key, value) :: fields => WellPaired key ∧ IsReadable value ∧ FieldsReadable fields

end

theorem fieldsReadable_iff {floats : FloatText F} {fields : List (Text × Document F)} :
    FieldsReadable floats fields ↔ ∀ field ∈ fields, WellPaired field.1 ∧ IsReadable floats field.2 := by
  induction fields with
  | nil => simp [FieldsReadable]
  | cons field fields ih => rw [FieldsReadable, ih, List.forall_mem_cons, and_assoc]

/-- Where a value may begin: no white space, and nothing that closes a list. -/
def IsStart (c : Point) : Prop := ¬ IsSpace c ∧ c ≠ point ']'

instance : DecidablePred IsStart := fun c => inferInstanceAs (Decidable (¬ IsSpace c ∧ c ≠ point ']'))

variable {floats}

theorem isStart_of_isNumeric (h : IsNumeric c) : IsStart c := by
  refine ⟨fun hspace => ?_, ?_⟩
  · simp only [IsSpace, List.mem_cons, List.not_mem_nil, or_false] at hspace
    obtain rfl | rfl | rfl | rfl := hspace <;> exact absurd h (by decide)
  · rintro rfl
    exact absurd h (by decide)

/-- The text of a value is not empty, and begins where a value may. -/
theorem write_start {value : Document F} (h : IsReadable floats value) : ∃ c rest, write floats value = c :: rest ∧ IsStart c := by
  cases value with
  | int n =>
    have hwrite : writeInt n ≠ [] := by
      intro hnil
      have hend := intEnd_writeInt n
      rw [hnil] at hend
      cases hend
    obtain ⟨c, rest, heq⟩ := List.exists_cons_of_ne_nil hwrite
    exact ⟨c, rest, heq, isStart_of_isNumeric (isNumeric_of_mem_writeInt (heq ▸ List.mem_cons_self))⟩
  | float value =>
    have hspells : floats.Spells value := h
    rw [write]
    obtain hconstant | ⟨hnumeric, left, hleft, -, -⟩ := hspells.isWord
    · simp only [List.mem_cons, List.not_mem_nil, or_false] at hconstant
      obtain hword | hword | hword := hconstant <;> rw [hword] <;> exact ⟨_, _, rfl, by decide⟩
    · obtain ⟨d, digits, heq, -⟩ | ⟨d, digits, heq, -⟩ := head_of_intEnd hleft
      · exact ⟨_, _, heq, isStart_of_isNumeric (hnumeric d (heq ▸ List.mem_cons_self))⟩
      · exact ⟨_, _, heq, by decide⟩
  | bool value => cases value <;> exact ⟨_, _, rfl, by decide⟩
  | _ => exact ⟨_, _, by rw [write]; rfl, by decide⟩

theorem skipSpace_start (h : IsStart c) (rest : Text) : skipSpace (c :: rest) = c :: rest := by
  simp [skipSpace, h.1]

theorem skipSpace_space (rest : Text) : skipSpace (point ' ' :: rest) = skipSpace rest := by
  rw [skipSpace, List.dropWhile_cons_of_pos (by decide)]
  rfl

theorem skipSpace_write {value : Document F} (h : IsReadable floats value) (rest : Text) :
    skipSpace (write floats value ++ rest) = write floats value ++ rest := by
  obtain ⟨c, tail, hwrite, hc⟩ := write_start h
  rw [hwrite, List.cons_append, skipSpace_start hc]

/-- Neither a string nor a list nor an object begins so. -/
def IsPlain (c : Point) : Prop := c ≠ point '"' ∧ c ≠ point '[' ∧ c ≠ point '{'

instance : DecidablePred IsPlain := fun c => inferInstanceAs (Decidable (c ≠ point '"' ∧ c ≠ point '[' ∧ c ≠ point '{'))

theorem isPlain_of_isNumeric (h : IsNumeric c) : IsPlain c := by
  refine ⟨?_, ?_, ?_⟩ <;>
  · rintro rfl
    exact absurd h (by decide)

theorem scanValue_of_scanWord {value : Document F} {fuel limit : Nat} (hfuel : fuel ≠ 0) (hplain : IsPlain c)
    (h : scanWord floats (c :: text) = some (value, rest)) :
    scanValue floats fuel limit (c :: text) = .ok (value, rest) := by
  obtain ⟨fuel, rfl⟩ := Nat.exists_eq_succ_of_ne_zero hfuel
  obtain ⟨hquote, hbracket, hbrace⟩ := hplain
  rw [scanValue.eq_def]
  simp only [if_neg hquote, if_neg hbracket, if_neg hbrace, h]

theorem scanValue_writeInt {n : Int} {fuel limit : Nat} (hfuel : fuel ≠ 0) (h : FitsInt n) (hrest : Ends rest) :
    scanValue floats fuel limit (writeInt n ++ rest) = .ok (.int n, rest) := by
  have hscan := scanWord_of_readNumber (fun _ hc => isNumeric_of_mem_writeInt hc) (readNumber_writeInt floats h) hrest
  have hreadable : IsReadable floats (.int n) := h
  obtain ⟨c, tail, hwrite, -⟩ := write_start hreadable
  rw [write] at hwrite
  have hplain : IsPlain c := isPlain_of_isNumeric (isNumeric_of_mem_writeInt (hwrite ▸ List.mem_cons_self))
  rw [hwrite] at hscan ⊢
  exact scanValue_of_scanWord hfuel hplain hscan

theorem scanValue_repr {value : F} {fuel limit : Nat} (hfuel : fuel ≠ 0) (h : floats.Spells value) (hrest : Ends rest) :
    scanValue floats fuel limit (floats.repr value ++ rest) = .ok (.float value, rest) := by
  have hscan := scanWord_repr h hrest
  have hhead : ∃ c tail, floats.repr value = c :: tail ∧ IsPlain c := by
    obtain hconstant | ⟨hnumeric, left, hleft, -, -⟩ := h.isWord
    · simp only [List.mem_cons, List.not_mem_nil, or_false] at hconstant
      obtain hword | hword | hword := hconstant <;> rw [hword] <;> exact ⟨_, _, rfl, by decide⟩
    · obtain ⟨d, digits, heq, -⟩ | ⟨d, digits, heq, -⟩ := head_of_intEnd hleft
      · exact ⟨_, _, heq, isPlain_of_isNumeric (hnumeric d (heq ▸ List.mem_cons_self))⟩
      · exact ⟨_, _, heq, by decide⟩
  obtain ⟨c, tail, hrepr, hplain⟩ := hhead
  rw [hrepr] at hscan ⊢
  exact scanValue_of_scanWord hfuel hplain hscan

theorem scanValue_writeString {fuel limit : Nat} (hfuel : fuel ≠ 0) (h : WellPaired text) (rest : Text) :
    scanValue floats fuel limit (writeString text ++ rest) = .ok (.str text, rest) := by
  obtain ⟨fuel, rfl⟩ := Nat.exists_eq_succ_of_ne_zero hfuel
  rw [writeString_append, scanValue.eq_def]
  simp only [↓reduceIte, scanString_writeString h]

theorem writeMoreItems_cons (item : Document F) (items : List (Document F)) :
    writeMoreItems floats (item :: items) = point ',' :: point ' ' :: writeItems floats (item :: items) := rfl

theorem writeMoreFields_cons (field : Text × Document F) (fields : List (Text × Document F)) :
    writeMoreFields floats (field :: fields) = point ',' :: point ' ' :: writeFields floats (field :: fields) := by
  obtain ⟨key, value⟩ := field
  simp only [writeMoreFields, writeFields, List.cons_append]

/-- Pairs of different keys are the fields as they are. -/
theorem ofPairs_eq_self {α : Type} {pairs : List (Text × α)} (h : (pairs.map Prod.fst).Nodup) : ofPairs pairs = pairs := by
  have hfold : ∀ (pairs fields : List (Text × α)), ((fields ++ pairs).map Prod.fst).Nodup →
      pairs.foldl putField fields = fields ++ pairs := by
    intro pairs
    induction pairs with
    | nil => exact fun fields _ => (List.append_nil fields).symm
    | cons pair pairs ih =>
      intro fields hnodup
      have hnew : pair.1 ∉ fields.map Prod.fst := by
        intro hmem
        rw [List.map_append, List.nodup_append] at hnodup
        exact hnodup.2.2 _ hmem _ List.mem_cons_self rfl
      rw [List.foldl_cons, putField, if_neg hnew, ih _ (by simpa using hnodup), List.append_assoc, List.singleton_append]
  exact hfold pairs [] h

theorem skipSpace_of_not_space (h : ¬ IsSpace c) (rest : Text) : skipSpace (c :: rest) = c :: rest := by
  simp [skipSpace, h]

section PutField

variable {α : Type} {fields pairs : List (Text × α)} {field other : Text × α}

theorem mem_putField (h : other ∈ putField fields field) : other ∈ fields ∨ other = field := by
  unfold putField at h
  split_ifs at h
  · obtain ⟨before, hbefore, rfl⟩ := List.mem_map.mp h
    split_ifs
    · exact .inr rfl
    · exact .inl hbefore
  · simpa using h

theorem keys_putField (fields : List (Text × α)) (field : Text × α) :
    (putField fields field).map Prod.fst =
      if field.1 ∈ fields.map Prod.fst then fields.map Prod.fst else fields.map Prod.fst ++ [field.1] := by
  unfold putField
  split_ifs
  · rw [List.map_map]
    refine List.map_congr_left fun before _ => ?_
    simp only [Function.comp_apply]
    split_ifs with heq
    · exact heq.symm
    · rfl
  · rw [List.map_append]
    rfl

theorem nodup_putField (h : (fields.map Prod.fst).Nodup) : ((putField fields field).map Prod.fst).Nodup := by
  rw [keys_putField]
  split_ifs with hmem
  · exact h
  · exact List.nodup_append_comm.mpr (List.nodup_cons.mpr ⟨hmem, h⟩)

/-- The fields are among the pairs, and none of them has the key of another. -/
theorem ofPairs_facts (pairs : List (Text × α)) : (∀ field ∈ ofPairs pairs, field ∈ pairs) ∧
    ((ofPairs pairs).map Prod.fst).Nodup := by
  induction pairs using List.reverseRecOn with
  | nil => exact ⟨fun _ h => h, List.nodup_nil⟩
  | append_singleton pairs pair ih =>
    rw [ofPairs, List.foldl_append]
    refine ⟨fun field hfield => ?_, nodup_putField ih.2⟩
    obtain hold | rfl := mem_putField hfield
    · exact List.mem_append_left _ (ih.1 field hold)
    · exact List.mem_append_right _ List.mem_cons_self

end PutField

/-! ### One step of the reader -/

section Steps

variable {value item : Document F} {items : List (Document F)} {fields : List (Text × Document F)} {key text' : Text}
  {fuel limit : Nat}

theorem scanItems_last (h : scanValue floats fuel limit text = .ok (item, point ']' :: rest)) :
    scanItems floats (fuel + 1) limit text = .ok ([item], rest) := by
  rw [scanItems, h]
  simp only [bind, Except.bind, skipSpace_of_not_space (by decide : ¬ IsSpace (point ']')), ↓reduceIte]
  rfl

theorem scanItems_next (h : scanValue floats fuel limit text = .ok (item, point ',' :: point ' ' :: text'))
    (hstart : skipSpace text' = text') (hitems : scanItems floats fuel limit text' = .ok (items, rest)) :
    scanItems floats (fuel + 1) limit text = .ok (item :: items, rest) := by
  rw [scanItems, h]
  simp only [bind, Except.bind, skipSpace_of_not_space (by decide : ¬ IsSpace (point ',')), skipSpace_space, hstart, hitems,
    if_neg (by decide : ¬ point ',' = point ']'), ↓reduceIte]
  rfl

theorem scanValue_list (hc : IsStart c) (h : scanItems floats fuel limit (c :: text) = .ok (items, rest)) :
    scanValue floats (fuel + 1) (limit + 1) (point '[' :: c :: text) = .ok (.list items, rest) := by
  rw [scanValue.eq_def]
  simp only [if_neg (by decide : ¬ point '[' = point '"'), ↓reduceIte, skipSpace_start hc, if_neg hc.2, h]
  rfl

theorem scanValue_list_nil : scanValue floats (fuel + 1) (limit + 1) (point '[' :: point ']' :: rest) =
    .ok (.list [], rest) := by
  rw [scanValue.eq_def]
  simp only [if_neg (by decide : ¬ point '[' = point '"'), ↓reduceIte,
    skipSpace_of_not_space (by decide : ¬ IsSpace (point ']'))]

theorem scanValue_dict (hnodup : (fields.map Prod.fst).Nodup)
    (h : scanFields floats fuel limit (point '"' :: text) = .ok (fields, rest)) :
    scanValue floats (fuel + 1) (limit + 1) (point '{' :: point '"' :: text) = .ok (.dict fields, rest) := by
  rw [scanValue.eq_def]
  simp only [if_neg (by decide : ¬ point '{' = point '"'), if_neg (by decide : ¬ point '{' = point '['), ↓reduceIte,
    skipSpace_of_not_space (by decide : ¬ IsSpace (point '"')), if_neg (by decide : ¬ point '"' = point '}'), h]
  show Except.ok (Document.dict (ofPairs fields), rest) = _
  rw [ofPairs_eq_self hnodup]

theorem scanValue_dict_nil : scanValue floats (fuel + 1) (limit + 1) (point '{' :: point '}' :: rest) =
    .ok (.dict [], rest) := by
  rw [scanValue.eq_def]
  simp only [if_neg (by decide : ¬ point '{' = point '"'), if_neg (by decide : ¬ point '{' = point '['), ↓reduceIte,
    skipSpace_of_not_space (by decide : ¬ IsSpace (point '}'))]

/-- A key, with its value behind it. -/
theorem scanFields_last (hkey : WellPaired key) (hstart : skipSpace text = text)
    (h : scanValue floats fuel limit text = .ok (value, point '}' :: rest)) :
    scanFields floats (fuel + 1) limit (writeString key ++ point ':' :: point ' ' :: text) = .ok ([(key, value)], rest) := by
  rw [writeString_append, scanFields]
  simp only [ne_eq, not_true_eq_false, ↓reduceIte, scanString_writeString hkey,
    skipSpace_of_not_space (by decide : ¬ IsSpace (point ':')), skipSpace_space, hstart, h, bind, Except.bind,
    skipSpace_of_not_space (by decide : ¬ IsSpace (point '}'))]
  rfl

theorem scanFields_next (hkey : WellPaired key) (hstart : skipSpace text = text)
    (h : scanValue floats fuel limit text = .ok (value, point ',' :: point ' ' :: text')) (hstart' : skipSpace text' = text')
    (hfields : scanFields floats fuel limit text' = .ok (fields, rest)) :
    scanFields floats (fuel + 1) limit (writeString key ++ point ':' :: point ' ' :: text) =
      .ok ((key, value) :: fields, rest) := by
  rw [writeString_append, scanFields]
  simp only [ne_eq, not_true_eq_false, ↓reduceIte, scanString_writeString hkey,
    skipSpace_of_not_space (by decide : ¬ IsSpace (point ':')), skipSpace_space, hstart, h, bind, Except.bind,
    skipSpace_of_not_space (by decide : ¬ IsSpace (point ',')), if_neg (by decide : ¬ point ',' = point '}'), hstart',
    hfields]
  rfl

end Steps

/-! ### The reader on what is written -/

theorem length_write_pos {value : Document F} (h : IsReadable floats value) : 0 < (write floats value).length := by
  obtain ⟨c, rest, hwrite, -⟩ := write_start h
  rw [hwrite]
  exact Nat.succ_pos _

theorem skipSpace_writeItems {item : Document F} (items : List (Document F)) (h : IsReadable floats item) (rest : Text) :
    skipSpace (writeItems floats (item :: items) ++ rest) = writeItems floats (item :: items) ++ rest := by
  rw [writeItems, List.append_assoc, skipSpace_write h]

theorem writeFields_append (key : Text) (value : Document F) (fields : List (Text × Document F)) (rest : Text) :
    writeFields floats ((key, value) :: fields) ++ rest =
      writeString key ++ point ':' :: point ' ' :: (write floats value ++ (writeMoreFields floats fields ++ rest)) := by
  simp [writeFields]

theorem skipSpace_writeFields (key : Text) (value : Document F) (fields : List (Text × Document F)) (rest : Text) :
    skipSpace (writeFields floats ((key, value) :: fields) ++ rest) = writeFields floats ((key, value) :: fields) ++ rest := by
  rw [writeFields_append, writeString_append, skipSpace_of_not_space (by decide)]

mutual

/-- The reader finds a value where it was written, and what is behind it. -/
theorem scanValue_write : (value : Document F) → (fuel limit : Nat) → (rest : Text) → IsReadable floats value →
    nesting value ≤ limit → 2 * (write floats value).length ≤ fuel + 1 → Ends rest →
    scanValue floats fuel limit (write floats value ++ rest) = .ok (value, rest)
  | .null, fuel, limit, rest, h, _, hfuel, _ =>
    have hpositive := length_write_pos h
    scanValue_of_scanWord (by omega) (by decide) (scanWord_constant (points "null") .null (by simp [CONSTANTS]) rest)
  | .bool true, fuel, limit, rest, h, _, hfuel, _ =>
    have hpositive := length_write_pos h
    scanValue_of_scanWord (by omega) (by decide) (scanWord_constant (points "true") (.bool true) (by simp [CONSTANTS]) rest)
  | .bool false, fuel, limit, rest, h, _, hfuel, _ =>
    have hpositive := length_write_pos h
    scanValue_of_scanWord (by omega) (by decide) (scanWord_constant (points "false") (.bool false) (by simp [CONSTANTS]) rest)
  | .int value, fuel, limit, rest, h, _, hfuel, hrest => by
    have hpositive := length_write_pos h
    rw [write]
    exact scanValue_writeInt (by omega) h hrest
  | .float value, fuel, limit, rest, h, _, hfuel, hrest => by
    have hpositive := length_write_pos h
    rw [write]
    exact scanValue_repr (by omega) h hrest
  | .str text, fuel, limit, rest, h, _, hfuel, _ => by
    have hpositive := length_write_pos h
    rw [write]
    exact scanValue_writeString (by omega) h rest
  | .list [], fuel, limit, rest, h, hlimit, hfuel, _ => by
    have hpositive := length_write_pos h
    obtain ⟨fuel, rfl⟩ := Nat.exists_eq_succ_of_ne_zero (by omega : fuel ≠ 0)
    obtain ⟨limit, rfl⟩ := Nat.exists_eq_succ_of_ne_zero (by simp [nesting] at hlimit; omega : limit ≠ 0)
    exact scanValue_list_nil
  | .list (item :: items), fuel, limit, rest, h, hlimit, hfuel, _ => by
    have hpositive := length_write_pos h
    obtain ⟨fuel, rfl⟩ := Nat.exists_eq_succ_of_ne_zero (by omega : fuel ≠ 0)
    obtain ⟨limit, rfl⟩ := Nat.exists_eq_succ_of_ne_zero (by rw [nesting] at hlimit; omega : limit ≠ 0)
    rw [nesting] at hlimit
    rw [IsReadable] at h
    have hitem : IsReadable floats item := h.1
    have hlength : (write floats (.list (item :: items))).length = (writeItems floats (item :: items)).length + 2 := by
      simp [write]
    have hitems := scanItems_writeItems (item :: items) fuel limit rest (List.cons_ne_nil _ _) h (by omega) (by omega)
    obtain ⟨c, tail, hwrite, hc⟩ := write_start hitem
    have hstart : writeItems floats (item :: items) ++ point ']' :: rest =
        c :: (tail ++ writeMoreItems floats items ++ point ']' :: rest) := by
      rw [writeItems, hwrite]
      simp
    rw [hstart] at hitems
    rw [write, List.append_assoc, List.singleton_append, List.cons_append, hstart]
    exact scanValue_list hc hitems
  | .dict [], fuel, limit, rest, h, hlimit, hfuel, _ => by
    have hpositive := length_write_pos h
    obtain ⟨fuel, rfl⟩ := Nat.exists_eq_succ_of_ne_zero (by omega : fuel ≠ 0)
    obtain ⟨limit, rfl⟩ := Nat.exists_eq_succ_of_ne_zero (by rw [nesting] at hlimit; omega : limit ≠ 0)
    exact scanValue_dict_nil
  | .dict ((key, value) :: fields), fuel, limit, rest, h, hlimit, hfuel, _ => by
    have hpositive := length_write_pos h
    obtain ⟨fuel, rfl⟩ := Nat.exists_eq_succ_of_ne_zero (by omega : fuel ≠ 0)
    obtain ⟨limit, rfl⟩ := Nat.exists_eq_succ_of_ne_zero (by rw [nesting] at hlimit; omega : limit ≠ 0)
    rw [nesting] at hlimit
    rw [IsReadable] at h
    have hlength : (write floats (.dict ((key, value) :: fields))).length =
        (writeFields floats ((key, value) :: fields)).length + 2 := by
      simp [write]
    have hfields := scanFields_writeFields ((key, value) :: fields) fuel limit rest (List.cons_ne_nil _ _) h.1 (by omega)
      (by omega)
    rw [write, List.append_assoc, List.singleton_append, List.cons_append, writeFields_append, writeString_append]
    rw [writeFields_append, writeString_append] at hfields
    exact scanValue_dict h.2 hfields

theorem scanItems_writeItems : (items : List (Document F)) → (fuel limit : Nat) → (rest : Text) → items ≠ [] →
    AreReadable floats items → itemsNesting items ≤ limit → 2 * (writeItems floats items).length ≤ fuel →
    scanItems floats fuel limit (writeItems floats items ++ point ']' :: rest) = .ok (items, rest)
  | [], _, _, _, hne, _, _, _ => absurd rfl hne
  | [item], fuel, limit, rest, _, hitems, hnesting, hfuel => by
    rw [AreReadable] at hitems
    rw [itemsNesting] at hnesting
    obtain ⟨hitem, -⟩ := hitems
    have hpositive := length_write_pos hitem
    have hlength : (writeItems floats [item]).length = (write floats item).length := by simp [writeItems, writeMoreItems]
    obtain ⟨fuel, rfl⟩ := Nat.exists_eq_succ_of_ne_zero (by omega : fuel ≠ 0)
    rw [writeItems, writeMoreItems, List.append_nil]
    exact scanItems_last (scanValue_write item fuel limit _ hitem (by omega) (by omega) (ends_cons (by decide)))
  | item :: next :: items, fuel, limit, rest, _, hitems, hnesting, hfuel => by
    rw [AreReadable] at hitems
    rw [itemsNesting] at hnesting
    obtain ⟨hitem, hmore⟩ := hitems
    have hnext : IsReadable floats next := hmore.1
    have hpositive := length_write_pos hitem
    have hlength : (writeItems floats (item :: next :: items)).length =
        (write floats item).length + 2 + (writeItems floats (next :: items)).length := by
      rw [writeItems, writeMoreItems_cons]
      simp
      omega
    obtain ⟨fuel, rfl⟩ := Nat.exists_eq_succ_of_ne_zero (by omega : fuel ≠ 0)
    have hrest := scanItems_writeItems (next :: items) fuel limit rest (List.cons_ne_nil _ _) hmore (by omega) (by omega)
    rw [writeItems, writeMoreItems_cons, List.append_assoc, List.cons_append, List.cons_append]
    exact scanItems_next (scanValue_write item fuel limit _ hitem (by omega) (by omega) (ends_cons (by decide)))
      (skipSpace_writeItems items hnext _) hrest

theorem scanFields_writeFields : (fields : List (Text × Document F)) → (fuel limit : Nat) → (rest : Text) → fields ≠ [] →
    FieldsReadable floats fields → fieldsNesting fields ≤ limit → 2 * (writeFields floats fields).length ≤ fuel →
    scanFields floats fuel limit (writeFields floats fields ++ point '}' :: rest) = .ok (fields, rest)
  | [], _, _, _, hne, _, _, _ => absurd rfl hne
  | [(key, value)], fuel, limit, rest, _, hfields, hnesting, hfuel => by
    rw [FieldsReadable] at hfields
    rw [fieldsNesting] at hnesting
    obtain ⟨hkey, hvalue, -⟩ := hfields
    have hpositive := length_write_pos hvalue
    have hlength : (write floats value).length < (writeFields floats [(key, value)]).length := by
      simp [writeFields, writeMoreFields]
      omega
    obtain ⟨fuel, rfl⟩ := Nat.exists_eq_succ_of_ne_zero (by omega : fuel ≠ 0)
    rw [writeFields_append, writeMoreFields, List.nil_append]
    exact scanFields_last hkey (skipSpace_write hvalue _)
      (scanValue_write value fuel limit _ hvalue (by omega) (by omega) (ends_cons (by decide)))
  | (key, value) :: (next, nextValue) :: fields, fuel, limit, rest, _, hfields, hnesting, hfuel => by
    rw [FieldsReadable] at hfields
    rw [fieldsNesting] at hnesting
    obtain ⟨hkey, hvalue, hmore⟩ := hfields
    have hpositive := length_write_pos hvalue
    have hlength : (write floats value).length + 2 + (writeFields floats ((next, nextValue) :: fields)).length ≤
        (writeFields floats ((key, value) :: (next, nextValue) :: fields)).length := by
      have happend : writeFields floats _ ++ [] = _ := writeFields_append key value ((next, nextValue) :: fields) []
      rw [List.append_nil, List.append_nil, writeMoreFields_cons] at happend
      rw [happend]
      simp
      omega
    obtain ⟨fuel, rfl⟩ := Nat.exists_eq_succ_of_ne_zero (by omega : fuel ≠ 0)
    have hrest := scanFields_writeFields ((next, nextValue) :: fields) fuel limit rest (List.cons_ne_nil _ _) hmore
      (by omega) (by omega)
    rw [writeFields_append, writeMoreFields_cons, List.cons_append, List.cons_append]
    exact scanFields_next hkey (skipSpace_write hvalue _)
      (scanValue_write value fuel limit _ hvalue (by omega) (by omega) (ends_cons (by decide)))
      (skipSpace_writeFields next nextValue fields _) hrest

end

mutual

theorem fits_of_isReadable : (value : Document F) → IsReadable floats value → fits value = true
  | .null, _ | .bool _, _ | .float _, _ | .str _, _ => rfl
  | .int _, h => decide_eq_true h
  | .list items, h => itemsFit_of_areReadable items h
  | .dict fields, h => fieldsFit_of_fieldsReadable fields h.1

theorem itemsFit_of_areReadable : (items : List (Document F)) → AreReadable floats items → itemsFit items = true
  | [], _ => rfl
  | item :: items, h => Bool.and_eq_true_iff.mpr ⟨fits_of_isReadable item h.1, itemsFit_of_areReadable items h.2⟩

theorem fieldsFit_of_fieldsReadable : (fields : List (Text × Document F)) → FieldsReadable floats fields →
    fieldsFit fields = true
  | [], _ => rfl
  | (_, value) :: fields, h =>
    Bool.and_eq_true_iff.mpr ⟨fits_of_isReadable value h.2.1, fieldsFit_of_fieldsReadable fields h.2.2⟩

end

/-- What is written of a document is read as the document. -/
theorem read_write {value : Document F} (h : IsReadable floats value) {limit : Nat} (hlimit : nesting value ≤ limit) :
    read floats limit (write floats value) = .ok value := by
  have hscan := scanValue_write value (2 * (write floats value).length + 1) limit [] h hlimit (by omega) fun c hc => by
    cases hc
  have hspace := skipSpace_write h []
  rw [List.append_nil] at hscan hspace
  rw [read, hspace, hscan]
  rfl

theorem dumps_of_isReadable {value : Document F} (h : IsReadable floats value) {limit : Nat} (hlimit : nesting value ≤ limit) :
    dumps floats limit value = some (write floats value) :=
  if_pos ⟨fits_of_isReadable value h, hlimit⟩

/-! ### What is written is printable -/

theorem isPrintable_of_mem_unicodeEscape {n : Nat} (hn : n < 0x10000) (h : c ∈ unicodeEscape n) : IsPrintable c := by
  simp only [unicodeEscape, List.mem_cons, List.not_mem_nil, or_false] at h
  obtain rfl | rfl | rfl | rfl | rfl | rfl := h
  · decide
  · decide
  · exact (hexDigit_facts (n / 4096) (by omega)).2
  · exact (hexDigit_facts (n / 256 % 16) (by omega)).2
  · exact (hexDigit_facts (n / 16 % 16) (by omega)).2
  · exact (hexDigit_facts (n % 16) (by omega)).2

theorem isPrintable_of_mem_escape {d : Point} (h : d ∈ escape c) : IsPrintable d := by
  unfold escape at h
  cases hshort : shortEscape c with
  | some letter =>
    rw [hshort] at h
    simp only [List.mem_cons, List.not_mem_nil, or_false] at h
    obtain rfl | rfl := h
    · decide
    · exact (shortEscape_facts _ (shortEscape_eq_some hshort)).2.2
  | none =>
    have hc : c.val < 0x110000 := c.isLt
    rw [hshort] at h
    dsimp only at h
    split_ifs at h with hprintable hbasic
    · rw [List.mem_singleton] at h
      exact h ▸ hprintable
    · exact isPrintable_of_mem_unicodeEscape hbasic h
    · obtain h | h := List.mem_append.mp h
      · exact isPrintable_of_mem_unicodeEscape (by rw [highSurrogate]; omega) h
      · exact isPrintable_of_mem_unicodeEscape (by rw [lowSurrogate]; omega) h

/-- Nothing but printable ASCII. -/
def Printable (text : Text) : Prop := ∀ c ∈ text, IsPrintable c

instance : DecidablePred Printable := fun text => inferInstanceAs (Decidable (∀ c ∈ text, IsPrintable c))

theorem printable_append {front back : Text} : Printable (front ++ back) ↔ Printable front ∧ Printable back :=
  List.forall_mem_append

theorem printable_cons : Printable (c :: text) ↔ IsPrintable c ∧ Printable text := List.forall_mem_cons

theorem printable_nil : Printable [] := fun _ h => absurd h List.not_mem_nil

theorem printable_singleton (h : IsPrintable c) : Printable [c] := printable_cons.mpr ⟨h, printable_nil⟩

theorem printable_points {s : String} (h : isPrintableText s = true) : Printable (points s) := by
  intro c hc
  obtain ⟨d, hd, rfl⟩ := List.mem_map.mp hc
  have hletter : 32 ≤ d.toNat ∧ d.toNat ≤ 126 := of_decide_eq_true (List.all_eq_true.mp h d hd)
  have hval : (point d).val = d.toNat := Nat.mod_eq_of_lt (by omega)
  unfold IsPrintable
  rw [hval]
  exact hletter

/-- A text of characters has no surrogates to pair. -/
theorem wellPaired_of_isValidChar (h : ∀ c ∈ text, Nat.isValidChar c.val) : WellPaired text := by
  induction text with
  | nil => exact List.isChain_nil
  | cons c text ih =>
    refine List.isChain_cons.mpr ⟨fun d _ hpair => ?_, ih fun d hd => h d (List.mem_cons_of_mem _ hd)⟩
    have hc := h c List.mem_cons_self
    obtain ⟨⟨hlow, hhigh⟩, -⟩ := hpair
    unfold Nat.isValidChar at hc
    omega

theorem Printable.wellPaired (h : Printable text) : WellPaired text := by
  refine wellPaired_of_isValidChar fun c hc => .inl ?_
  exact Nat.lt_of_le_of_lt (h c hc).2 (by decide)

theorem wellPaired_points (s : String) : WellPaired (points s) := by
  refine wellPaired_of_isValidChar fun c hc => ?_
  obtain ⟨d, -, rfl⟩ := List.mem_map.mp hc
  have hvalid : d.toNat.isValidChar := d.valid
  have hval : (point d).val = d.toNat := Nat.mod_eq_of_lt (by unfold Nat.isValidChar at hvalid; omega)
  rw [hval]
  exact hvalid

theorem printable_writeString (text : Text) : Printable (writeString text) := by
  intro c hc
  simp only [writeString, List.mem_append, List.mem_cons, List.mem_flatMap, List.not_mem_nil, or_false] at hc
  obtain (rfl | ⟨d, -, hd⟩) | rfl := hc
  · decide
  · exact isPrintable_of_mem_escape hd
  · decide

theorem printable_writeInt (n : Int) : Printable (writeInt n) := by
  intro c hc
  obtain hdigit | hsign := isNumeric_of_mem_writeInt hc
  · unfold IsDigit at hdigit
    exact ⟨by omega, by omega⟩
  · simp only [List.mem_cons, List.not_mem_nil, or_false] at hsign
    obtain rfl | rfl | rfl | rfl | rfl := hsign <;> decide

mutual

theorem printable_write (hfloats : ∀ value, Printable (floats.repr value)) : (value : Document F) → Printable (write floats value)
  | .null => printable_points (by decide)
  | .bool true => printable_points (by decide)
  | .bool false => printable_points (by decide)
  | .int value => printable_writeInt value
  | .float value => hfloats value
  | .str text => printable_writeString text
  | .list items => by
    rw [write, printable_append, printable_cons]
    exact ⟨⟨by decide, printable_writeItems hfloats items⟩, printable_singleton (by decide)⟩
  | .dict fields => by
    rw [write, printable_append, printable_cons]
    exact ⟨⟨by decide, printable_writeFields hfloats fields⟩, printable_singleton (by decide)⟩

theorem printable_writeItems (hfloats : ∀ value, Printable (floats.repr value)) :
    (items : List (Document F)) → Printable (writeItems floats items)
  | [] => printable_nil
  | item :: items => by
    rw [writeItems, printable_append]
    exact ⟨printable_write hfloats item, printable_writeMoreItems hfloats items⟩

theorem printable_writeMoreItems (hfloats : ∀ value, Printable (floats.repr value)) :
    (items : List (Document F)) → Printable (writeMoreItems floats items)
  | [] => printable_nil
  | item :: items => by
    rw [writeMoreItems, printable_append, printable_cons, printable_cons]
    exact ⟨⟨by decide, by decide, printable_write hfloats item⟩, printable_writeMoreItems hfloats items⟩

theorem printable_writeFields (hfloats : ∀ value, Printable (floats.repr value)) :
    (fields : List (Text × Document F)) → Printable (writeFields floats fields)
  | [] => printable_nil
  | (key, value) :: fields => by
    rw [writeFields, printable_append, printable_append, printable_cons, printable_cons]
    exact ⟨⟨printable_writeString key, by decide, by decide, printable_write hfloats value⟩,
      printable_writeMoreFields hfloats fields⟩

theorem printable_writeMoreFields (hfloats : ∀ value, Printable (floats.repr value)) :
    (fields : List (Text × Document F)) → Printable (writeMoreFields floats fields)
  | [] => printable_nil
  | (key, value) :: fields => by
    rw [writeMoreFields, printable_append, printable_append, printable_cons, printable_cons, printable_cons, printable_cons]
    exact ⟨⟨⟨by decide, by decide, printable_writeString key⟩, by decide, by decide, printable_write hfloats value⟩,
      printable_writeMoreFields hfloats fields⟩

end

end Documents

end Formats.JsonText
