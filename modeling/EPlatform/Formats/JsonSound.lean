import EPlatform.Formats.JsonRoundTrip
import EPlatform.Runs.Transaction

/-!
# What a reader of JSON may be given

No text is read as a document with an integer too long to be written, with two fields of one key, or nested deeper than the
reader goes; and its floats are some that were parsed.
-/

namespace Formats.JsonText

open Runs

variable {F : Type} {floats : FloatText F} {text rest word : Text} {c : Point}

section Predicates

variable (floats)

mutual

def IsRead : Document F → Prop
  | .int value => FitsInt value
  | .float value => ∃ word, floats.parse word = value
  | .list items => AreRead items
  | .dict fields => FieldsRead fields ∧ (fields.map Prod.fst).Nodup
  | _ => True

def AreRead : List (Document F) → Prop
  | [] => True
  | item :: items => IsRead item ∧ AreRead items

def FieldsRead : List (Text × Document F) → Prop
  | [] => True
  | (_, value) :: fields => IsRead value ∧ FieldsRead fields

end

end Predicates

theorem fieldsRead_iff {fields : List (Text × Document F)} :
    FieldsRead floats fields ↔ ∀ field ∈ fields, IsRead floats field.2 := by
  induction fields with
  | nil => simp [FieldsRead]
  | cons field fields ih => rw [FieldsRead, ih, List.forall_mem_cons]

theorem fieldsNesting_le {limit : Nat} {fields : List (Text × Document F)} :
    fieldsNesting fields ≤ limit ↔ ∀ field ∈ fields, nesting field.2 ≤ limit := by
  induction fields with
  | nil => simp [fieldsNesting]
  | cons field fields ih => rw [fieldsNesting, Nat.max_le, ih, List.forall_mem_cons]

/-! ### Words -/

theorem digitsValue_lt (digits : Text) (h : ∀ c ∈ digits, IsDigit c) : digitsValue digits < 10 ^ digits.length := by
  have hfold : ∀ (digits : Text) (n k : Nat), (∀ c ∈ digits, IsDigit c) → n < 10 ^ k →
      digits.foldl (fun n c => 10 * n + (c.val - 48)) n < 10 ^ (k + digits.length) := by
    intro digits
    induction digits with
    | nil => exact fun n k _ hn => hn
    | cons d digits ih =>
      intro n k hdigits hn
      have hd : IsDigit d := hdigits d List.mem_cons_self
      have hnext : 10 * n + (d.val - 48) < 10 ^ (k + 1) := by
        unfold IsDigit at hd
        rw [Nat.pow_succ]
        omega
      have hrest := ih (10 * n + (d.val - 48)) (k + 1) (fun c hc => hdigits c (List.mem_cons_of_mem _ hc)) hnext
      rw [List.foldl_cons, List.length_cons, Nat.add_comm digits.length 1, ← Nat.add_assoc]
      exact hrest
  have hdigits := hfold digits 0 0 h (by decide)
  rw [Nat.zero_add] at hdigits
  exact hdigits

theorem isDigit_of_natEnd (h : natEnd word = some []) : ∀ c ∈ word, IsDigit c := by
  cases word with
  | nil => cases h
  | cons d digits =>
    rw [natEnd] at h
    split_ifs at h with hzero hdigit
    · intro c hc
      rw [Option.some.inj h, List.mem_singleton, hzero] at hc
      rw [hc]
      decide
    · have hall := List.dropWhile_eq_nil_iff.mp (Option.some.inj h)
      intro c hc
      obtain rfl | hc := List.mem_cons.mp hc
      · exact hdigit
      · exact of_decide_eq_true (hall c hc)

/-- As many digits as were read are enough. -/
theorem fitsInt_of_digits {digits : Text} {n : Int} (hdigits : ∀ c ∈ digits, IsDigit c) (hne : digits ≠ [])
    (hvalue : n.natAbs = digitsValue digits) (hlength : digits.length ≤ INT_MAX_STR_DIGITS) : FitsInt n := by
  rw [FitsInt, hvalue]
  refine Nat.le_trans ?_ hlength
  exact (Nat.length_toDigits_le_iff (by decide) (List.length_pos_iff.mpr hne)).mpr (digitsValue_lt digits hdigits)

theorem fitsInt_intValue (h : intEnd word = some [])
    (hlength : (word.filter fun c => decide (IsDigit c)).length ≤ INT_MAX_STR_DIGITS) : FitsInt (intValue word) := by
  cases word with
  | nil => cases h
  | cons c digits =>
    rw [intEnd] at h
    rw [intValue]
    split_ifs at h ⊢ with hminus
    · have hdigits := isDigit_of_natEnd h
      have hne : digits ≠ [] := by
        rintro rfl
        cases h
      rw [List.filter_cons_of_neg (by rw [hminus]; decide), List.filter_eq_self.mpr fun d hd => decide_eq_true (hdigits d hd)]
        at hlength
      exact fitsInt_of_digits hdigits hne (by simp) hlength
    · have hdigits := isDigit_of_natEnd h
      rw [List.filter_eq_self.mpr fun d hd => decide_eq_true (hdigits d hd)] at hlength
      exact fitsInt_of_digits hdigits (List.cons_ne_nil _ _) (by simp) hlength

theorem isRead_readNumber {value : Document F} (h : readNumber floats word = some value) :
    IsRead floats value ∧ nesting value = 0 := by
  obtain ⟨left, hleft, hvalue⟩ := Option.bind_eq_some_iff.mp h
  split_ifs at hvalue with hnil hlength hend
  · cases hvalue
    exact ⟨fitsInt_intValue (hnil ▸ hleft) hlength, rfl⟩
  · cases hvalue
    exact ⟨⟨word, rfl⟩, rfl⟩

theorem isRead_scanWord {value : Document F} (h : scanWord floats text = some (value, rest)) :
    IsRead floats value ∧ nesting value = 0 := by
  rw [scanWord] at h
  split at h
  · rename_i entry hentry
    have hmem := List.mem_of_find?_eq_some hentry
    cases h
    simp only [CONSTANTS, List.mem_cons, List.not_mem_nil, or_false, Prod.mk.injEq] at hmem
    obtain ⟨-, rfl⟩ | ⟨-, rfl⟩ | ⟨-, rfl⟩ | ⟨-, rfl⟩ | ⟨-, rfl⟩ | ⟨-, rfl⟩ := hmem
    · exact ⟨trivial, rfl⟩
    · exact ⟨trivial, rfl⟩
    · exact ⟨trivial, rfl⟩
    · exact ⟨⟨_, rfl⟩, rfl⟩
    · exact ⟨⟨_, rfl⟩, rfl⟩
    · exact ⟨⟨_, rfl⟩, rfl⟩
  · obtain ⟨number, hnumber, hvalue⟩ := Option.bind_eq_some_iff.mp h
    cases hvalue
    exact isRead_readNumber hnumber

/-! ### Documents -/

/-- What a scan with so much fuel finds. -/
structure ScansSoundly (floats : FloatText F) (fuel : Nat) : Prop where
  value : ∀ {limit : Nat} {text rest : Text} {value : Document F}, scanValue floats fuel limit text = .ok (value, rest) →
    IsRead floats value ∧ nesting value ≤ limit
  items : ∀ {limit : Nat} {text rest : Text} {items : List (Document F)},
    scanItems floats fuel limit text = .ok (items, rest) → AreRead floats items ∧ itemsNesting items ≤ limit
  fields : ∀ {limit : Nat} {text rest : Text} {fields : List (Text × Document F)},
    scanFields floats fuel limit text = .ok (fields, rest) → ∀ field ∈ fields, IsRead floats field.2 ∧ nesting field.2 ≤ limit

variable {fuel limit : Nat}

theorem ScansSoundly.value_succ (h : ScansSoundly floats fuel) {value : Document F}
    (hscan : scanValue floats (fuel + 1) limit text = .ok (value, rest)) : IsRead floats value ∧ nesting value ≤ limit := by
  cases text with
  | nil => simp [scanValue] at hscan
  | cons c text =>
    rw [scanValue.eq_def] at hscan
    dsimp only at hscan
    split_ifs at hscan with hquote hbracket hbrace
    · split at hscan
      · cases hscan
      · cases hscan
        exact ⟨trivial, Nat.zero_le _⟩
    · split at hscan
      · cases hscan
      · rename_i limit
        split at hscan
        · cases hscan
        · split_ifs at hscan
          · cases hscan
            exact ⟨trivial, Nat.succ_le_succ (Nat.zero_le _)⟩
          · obtain ⟨⟨items, rest'⟩, hitems, heq⟩ := map_eq_ok.mp hscan
            cases heq
            obtain ⟨hread, hnesting⟩ := h.items hitems
            exact ⟨hread, Nat.succ_le_succ hnesting⟩
    · split at hscan
      · cases hscan
      · rename_i limit
        split at hscan
        · cases hscan
        · split_ifs at hscan
          · cases hscan
            exact ⟨⟨trivial, List.nodup_nil⟩, Nat.succ_le_succ (Nat.zero_le _)⟩
          · obtain ⟨⟨pairs, rest'⟩, hpairs, heq⟩ := map_eq_ok.mp hscan
            cases heq
            have hfields := h.fields hpairs
            obtain ⟨hmem, hnodup⟩ := ofPairs_facts pairs
            refine ⟨⟨fieldsRead_iff.mpr fun field hfield => (hfields field (hmem field hfield)).1, hnodup⟩, ?_⟩
            exact Nat.succ_le_succ (fieldsNesting_le.mpr fun field hfield => (hfields field (hmem field hfield)).2)
    · split at hscan
      · cases hscan
      · rename_i hword
        cases hscan
        obtain ⟨hread, hnesting⟩ := isRead_scanWord hword
        exact ⟨hread, hnesting ▸ Nat.zero_le _⟩

theorem ScansSoundly.items_succ (h : ScansSoundly floats fuel) {items : List (Document F)}
    (hscan : scanItems floats (fuel + 1) limit text = .ok (items, rest)) :
    AreRead floats items ∧ itemsNesting items ≤ limit := by
  rw [scanItems] at hscan
  obtain ⟨⟨item, left⟩, hitem, hscan⟩ := bind_eq_ok.mp hscan
  obtain ⟨hread, hnesting⟩ := h.value hitem
  dsimp only at hscan
  split at hscan
  · cases hscan
  · split_ifs at hscan
    · cases hscan
      exact ⟨⟨hread, trivial⟩, Nat.max_le.mpr ⟨hnesting, Nat.zero_le _⟩⟩
    · obtain ⟨⟨more, left'⟩, hmore, heq⟩ := bind_eq_ok.mp hscan
      cases heq
      obtain ⟨hreads, hnestings⟩ := h.items hmore
      exact ⟨⟨hread, hreads⟩, Nat.max_le.mpr ⟨hnesting, hnestings⟩⟩

theorem ScansSoundly.fields_succ (h : ScansSoundly floats fuel) {fields : List (Text × Document F)}
    (hscan : scanFields floats (fuel + 1) limit text = .ok (fields, rest)) :
    ∀ field ∈ fields, IsRead floats field.2 ∧ nesting field.2 ≤ limit := by
  cases text with
  | nil => simp [scanFields] at hscan
  | cons quote text =>
    rw [scanFields.eq_def] at hscan
    dsimp only at hscan
    split_ifs at hscan
    split at hscan
    · cases hscan
    · split at hscan
      · cases hscan
      · split_ifs at hscan
        obtain ⟨⟨value, left⟩, hvalue, hscan⟩ := bind_eq_ok.mp hscan
        have hfirst := h.value hvalue
        dsimp only at hscan
        split at hscan
        · cases hscan
        · split_ifs at hscan
          · cases hscan
            exact List.forall_mem_singleton.mpr hfirst
          · obtain ⟨⟨more, left'⟩, hmore, heq⟩ := bind_eq_ok.mp hscan
            cases heq
            exact List.forall_mem_cons.mpr ⟨hfirst, h.fields hmore⟩

/-- On the fuel, one more of which lets a scan look at one more of what it has found. -/
theorem scansSoundly (floats : FloatText F) (fuel : Nat) : ScansSoundly floats fuel := by
  induction fuel with
  | zero =>
    refine ⟨fun h => ?_, fun h => ?_, fun h => ?_⟩
    · simp [scanValue] at h
    · simp [scanItems] at h
    · simp [scanFields] at h
  | succ fuel ih => exact ⟨ih.value_succ, ih.items_succ, ih.fields_succ⟩

theorem isRead_read {value : Document F} (h : read floats limit text = .ok value) :
    IsRead floats value ∧ nesting value ≤ limit := by
  obtain ⟨⟨found, left⟩, hscan, hvalue⟩ := bind_eq_ok.mp h
  dsimp only at hvalue
  split_ifs at hvalue
  cases hvalue
  exact (scansSoundly floats _).value hscan

end Formats.JsonText
