import Mathlib.Data.List.Infix
import Mathlib.Tactic.Common

/-!
# Patterns and substitution

Greedy patterns over any alphabet, in which a repetition repeats one character class. `ends` is what a backtracking matcher
tries, in its order, and `Matches` the words it finds. Replacing every match leaves none, when what is put in is enclosed
in characters that no match has.
-/

namespace Formats

/-- `many p` is `[p]*`, and `optional` is `(?:...)?`. -/
inductive Pattern (α : Type*)
  | one (p : α → Bool)
  | many (p : α → Bool)
  | seq (first second : Pattern α)
  | optional (body : Pattern α)

namespace Pattern

variable {α : Type*}

/-- `[p]+`. -/
def plus (p : α → Bool) : Pattern α := .seq (.one p) (.many p)

/-- The words of a pattern. -/
def Matches : Pattern α → List α → Prop
  | .one p, word => ∃ c, p c = true ∧ word = [c]
  | .many p, word => ∀ c ∈ word, p c = true
  | .seq first second, word => ∃ front back, word = front ++ back ∧ first.Matches front ∧ second.Matches back
  | .optional body, word => body.Matches word ∨ word = []

/-- What is left after the longest run of a class, then after each shorter one. -/
def manyEnds (p : α → Bool) : List α → List (List α)
  | [] => [[]]
  | c :: rest => if p c then manyEnds p rest ++ [c :: rest] else [c :: rest]

/-- What is left of the text after each match at its start, in the order they are tried. -/
def ends : Pattern α → List α → List (List α)
  | .one p, c :: rest => if p c then [rest] else []
  | .one _, [] => []
  | .many p, text => manyEnds p text
  | .seq first second, text => (first.ends text).flatMap second.ends
  | .optional body, text => body.ends text ++ [text]

/-- `pattern.match(text)`, as what is left. -/
def matchAt (pattern : Pattern α) (text : List α) : Option (List α) := (pattern.ends text).head?

/-- `pattern.sub`, with as many characters of the last match to pass over still. -/
def subFrom (pattern : Pattern α) (replacement : List α) : Nat → List α → List α
  | _, [] => []
  | skip + 1, _ :: rest => subFrom pattern replacement skip rest
  | 0, c :: rest =>
    match pattern.matchAt (c :: rest) with
    | some left => replacement ++ subFrom pattern replacement (rest.length - left.length) rest
    | none => c :: subFrom pattern replacement 0 rest

/-- `pattern.sub(replacement, text)`, of a pattern without empty matches. -/
def sub (pattern : Pattern α) (replacement text : List α) : List α := pattern.subFrom replacement 0 text

/-- The text has a match somewhere. -/
def Occurs (pattern : Pattern α) (text : List α) : Prop := ∃ word, pattern.Matches word ∧ word <:+: text

/-- A character some class of the pattern has. -/
def uses : Pattern α → α → Bool
  | .one p, c => p c
  | .many p, c => p c
  | .seq first second, c => first.uses c || second.uses c
  | .optional body, c => body.uses c

/-! ### The matcher finds the words -/

variable {pattern : Pattern α} {replacement text word left : List α} {c : α}

theorem mem_manyEnds {p : α → Bool} : left ∈ manyEnds p text ↔ ∃ word, text = word ++ left ∧ ∀ c ∈ word, p c = true := by
  induction text with
  | nil =>
    rw [manyEnds, List.mem_singleton]
    constructor
    · rintro rfl
      exact ⟨[], rfl, by simp⟩
    · rintro ⟨word, hsplit, -⟩
      exact (List.append_eq_nil_iff.mp hsplit.symm).2
  | cons c rest ih =>
    have hempty : (∃ word, c :: rest = word ++ left ∧ ∀ d ∈ word, p d = true) ↔
        (p c = true ∧ left ∈ manyEnds p rest) ∨ left = c :: rest := by
      rw [ih]
      constructor
      · rintro ⟨word, hsplit, hword⟩
        cases word with
        | nil => exact .inr hsplit.symm
        | cons d word =>
          obtain ⟨rfl, hrest⟩ := List.cons.inj hsplit
          exact .inl ⟨hword _ List.mem_cons_self, word, hrest, fun e he => hword e (List.mem_cons_of_mem _ he)⟩
      · rintro (⟨hc, word, hrest, hword⟩ | rfl)
        · exact ⟨c :: word, by rw [hrest]; rfl, List.forall_mem_cons.mpr ⟨hc, hword⟩⟩
        · exact ⟨[], rfl, by simp⟩
    rw [hempty, manyEnds]
    split
    · rename_i hc
      rw [List.mem_append, List.mem_singleton, and_iff_right hc]
    · rename_i hc
      rw [List.mem_singleton]
      simp [hc]

theorem mem_ends : left ∈ pattern.ends text ↔ ∃ word, text = word ++ left ∧ pattern.Matches word := by
  induction pattern generalizing text left with
  | one p =>
    cases text with
    | nil => simp [ends, Matches]
    | cons c rest =>
      simp only [ends, Matches]
      constructor
      · intro h
        split at h
        · rename_i hc
          exact ⟨[c], by rw [List.mem_singleton.mp h]; rfl, c, hc, rfl⟩
        · exact absurd h List.not_mem_nil
      · rintro ⟨word, hsplit, d, hd, rfl⟩
        obtain ⟨rfl, rfl⟩ := List.cons.inj hsplit
        rw [if_pos hd]
        exact List.mem_singleton_self _
  | many p => exact mem_manyEnds
  | seq first second ihfirst ihsecond =>
    simp only [ends, List.mem_flatMap, ihfirst, ihsecond, Matches]
    constructor
    · rintro ⟨middle, ⟨front, rfl, hfront⟩, back, rfl, hback⟩
      exact ⟨front ++ back, (List.append_assoc ..).symm, front, back, rfl, hfront, hback⟩
    · rintro ⟨word, rfl, front, back, rfl, hfront, hback⟩
      exact ⟨back ++ left, ⟨front, List.append_assoc .., hfront⟩, back, rfl, hback⟩
  | optional body ih =>
    simp only [ends, List.mem_append, List.mem_singleton, ih, Matches]
    constructor
    · rintro (⟨word, rfl, hword⟩ | rfl)
      · exact ⟨word, rfl, .inl hword⟩
      · exact ⟨[], rfl, .inr rfl⟩
    · rintro ⟨word, rfl, hword | rfl⟩
      · exact .inl ⟨word, rfl, hword⟩
      · exact .inr rfl

theorem matchAt_eq_none : pattern.matchAt text = none ↔ ∀ word, pattern.Matches word → ¬ word <+: text := by
  rw [matchAt, List.head?_eq_none_iff, List.eq_nil_iff_forall_not_mem]
  constructor
  · rintro h word hword ⟨left, rfl⟩
    exact h left (mem_ends.mpr ⟨word, rfl, hword⟩)
  · intro h left hleft
    obtain ⟨word, rfl, hword⟩ := mem_ends.mp hleft
    exact h word hword (List.prefix_append word left)

theorem matchAt_eq_some (h : pattern.matchAt text = some left) :
    ∃ word, text = word ++ left ∧ pattern.Matches word :=
  mem_ends.mp (List.mem_of_mem_head? h)

theorem Matches.uses (h : pattern.Matches word) (hc : c ∈ word) : pattern.uses c = true := by
  induction pattern generalizing word with
  | one p =>
    obtain ⟨d, hd, rfl⟩ := h
    rw [List.mem_singleton.mp hc]
    exact hd
  | many p => exact h c hc
  | seq first second ihfirst ihsecond =>
    obtain ⟨front, back, rfl, hfront, hback⟩ := h
    rw [Pattern.uses, Bool.or_eq_true]
    exact (List.mem_append.mp hc).imp (ihfirst hfront) (ihsecond hback)
  | optional body ih =>
    rcases h with h | rfl
    · exact ih h hc
    · exact absurd hc List.not_mem_nil

/-! ### Substitution -/

theorem subFrom_eq_drop (skip : Nat) (text : List α) :
    pattern.subFrom replacement skip text = pattern.sub replacement (text.drop skip) := by
  induction text generalizing skip with
  | nil => cases skip <;> rfl
  | cons c rest ih =>
    cases skip with
    | zero => rfl
    | succ skip => exact ih skip

theorem sub_of_match (hconsumes : ¬ pattern.Matches []) (h : pattern.matchAt text = some left) :
    pattern.sub replacement text = replacement ++ pattern.sub replacement left := by
  obtain ⟨word, rfl, hword⟩ := matchAt_eq_some h
  cases word with
  | nil => exact absurd hword hconsumes
  | cons c word =>
    rw [List.cons_append] at h
    have hskip : (word ++ left).drop ((word ++ left).length - left.length) = left := by
      rw [List.length_append, Nat.add_sub_cancel, List.drop_left]
    rw [List.cons_append, sub, subFrom, h]
    simp only [subFrom_eq_drop, hskip]

theorem sub_of_no_match (h : pattern.matchAt (c :: text) = none) :
    pattern.sub replacement (c :: text) = c :: pattern.sub replacement text := by
  rw [sub, subFrom, h]
  rfl

theorem sub_eq_self (h : ¬ pattern.Occurs text) : pattern.sub replacement text = text := by
  induction text with
  | nil => rfl
  | cons c text ih =>
    have hnone : pattern.matchAt (c :: text) = none :=
      matchAt_eq_none.mpr fun word hword hstarts => h ⟨word, hword, hstarts.isInfix⟩
    have hrest : ¬ pattern.Occurs text := fun ⟨word, hword, hwithin⟩ =>
      h ⟨word, hword, hwithin.trans (List.suffix_cons c text).isInfix⟩
    rw [sub_of_no_match hnone, ih hrest]

/-- A replacement that no match reaches into or over, and that holds none. -/
structure Seals (pattern : Pattern α) (replacement : List α) : Prop where
  encloses : ∃ opening inner closing, replacement = opening :: inner ++ [closing] ∧ pattern.uses opening = false ∧
    pattern.uses closing = false ∧ ¬ pattern.Occurs inner

theorem infix_append_cons {before after : List α} (hc : c ∉ word) :
    word <:+: before ++ c :: after ↔ word <:+: before ∨ word <:+: after := by
  constructor
  · rintro ⟨front, back, hsplit⟩
    rw [List.append_assoc] at hsplit
    rcases List.append_eq_append_iff.mp hsplit with ⟨gap, rfl, hgap⟩ | ⟨gap, rfl, hgap⟩
    · rcases List.append_eq_append_iff.mp hgap with ⟨rest, rfl, -⟩ | ⟨rest, rfl, hrest⟩
      · exact .inl ⟨front, rest, by simp⟩
      · cases rest with
        | nil => exact .inl ⟨front, [], by simp⟩
        | cons d rest =>
          obtain ⟨rfl, -⟩ := List.cons.inj hrest
          exact absurd (List.mem_append_right _ List.mem_cons_self) hc
    · cases gap with
      | nil =>
        cases word with
        | nil => exact .inl List.nil_infix
        | cons d word =>
          obtain ⟨rfl, -⟩ := List.cons.inj hgap
          exact absurd List.mem_cons_self hc
      | cons d gap =>
        obtain ⟨rfl, rfl⟩ := List.cons.inj hgap
        exact .inr ⟨gap, back, by simp⟩
  · rintro (⟨front, back, rfl⟩ | ⟨front, back, rfl⟩)
    · exact ⟨front, back ++ c :: after, by simp⟩
    · exact ⟨before ++ c :: front, back, by simp⟩

/-- Up to the first replacement nothing has changed. -/
theorem prefix_of_prefix_sub (hconsumes : ¬ pattern.Matches []) {opening : α} {rest : List α}
    (hreplacement : replacement = opening :: rest) (hword : opening ∉ word)
    (h : word <+: pattern.sub replacement text) : word <+: text := by
  induction text generalizing word with
  | nil => exact h
  | cons c text ih =>
    cases hmatch : pattern.matchAt (c :: text) with
    | none =>
      rw [sub_of_no_match hmatch] at h
      cases word with
      | nil => exact List.nil_prefix
      | cons d word =>
        obtain ⟨rfl, hrest⟩ := List.cons_prefix_cons.mp h
        exact List.cons_prefix_cons.mpr ⟨rfl, ih (fun hmem => hword (List.mem_cons_of_mem _ hmem)) hrest⟩
    | some left =>
      rw [sub_of_match hconsumes hmatch, hreplacement] at h
      cases word with
      | nil => exact List.nil_prefix
      | cons d word =>
        obtain ⟨rfl, -⟩ := List.cons_prefix_cons.mp h
        exact absurd List.mem_cons_self hword

/-- What is substituted leaves no match, and makes none. -/
theorem not_occurs_sub (hconsumes : ¬ pattern.Matches []) (hseals : pattern.Seals replacement) (text : List α) :
    ¬ pattern.Occurs (pattern.sub replacement text) := by
  obtain ⟨opening, inner, closing, rfl, hopening, hclosing, hinner⟩ := hseals.encloses
  induction hlength : text.length using Nat.strong_induction_on generalizing text with
  | _ n ih =>
    rintro ⟨word, hword, hwithin⟩
    have hforeign : ∀ {c}, pattern.uses c = false → c ∉ word := fun hc hmem => by
      rw [hword.uses hmem] at hc
      cases hc
    cases text with
    | nil =>
      rw [List.infix_nil.mp hwithin] at hword
      exact hconsumes hword
    | cons c text =>
      cases hmatch : pattern.matchAt (c :: text) with
      | none =>
        have hshorter : text.length < n := by
          rw [← hlength]
          exact Nat.lt_succ_self _
        rw [sub_of_no_match hmatch] at hwithin
        rcases List.infix_cons_iff.mp hwithin with hstarts | hwithin
        · rw [← sub_of_no_match hmatch] at hstarts
          exact matchAt_eq_none.mp hmatch word hword
            (prefix_of_prefix_sub hconsumes rfl (hforeign hopening) hstarts)
        · exact ih _ hshorter text rfl ⟨word, hword, hwithin⟩
      | some left =>
        obtain ⟨consumed, hsplit, hconsumed⟩ := matchAt_eq_some hmatch
        have hshorter : left.length < n := by
          have hpos : consumed ≠ [] := fun hnil => hconsumes (hnil ▸ hconsumed)
          rw [← hlength, hsplit, List.length_append]
          have := List.length_pos_of_ne_nil hpos
          omega
        rw [sub_of_match hconsumes hmatch, List.append_assoc, List.singleton_append,
          infix_append_cons (hforeign hclosing)] at hwithin
        rcases hwithin with hwithin | hwithin
        · rw [← List.nil_append (opening :: inner), infix_append_cons (hforeign hopening)] at hwithin
          rcases hwithin with hwithin | hwithin
          · rw [List.infix_nil.mp hwithin] at hword
            exact hconsumes hword
          · exact hinner ⟨word, hword, hwithin⟩
        · exact ih _ hshorter left rfl ⟨word, hword, hwithin⟩

theorem sub_sub (hconsumes : ¬ pattern.Matches []) (hseals : pattern.Seals replacement) (text : List α) :
    pattern.sub replacement (pattern.sub replacement text) = pattern.sub replacement text :=
  sub_eq_self (not_occurs_sub hconsumes hseals text)

end Pattern

end Formats
