import Mathlib.Algebra.GroupWithZero.Nat
import Mathlib.Data.List.Infix

/-!
# Text in lines and blocks

A text is a list of characters, one of which ends a line; a block is a run of lines with no blank line among them.
Substituting characters one by one leaves the lines where they are when it neither makes nor removes an end of line.
-/

namespace Formats

variable {α : Type*} [DecidableEq α]

/-! ### Splitting -/

omit [DecidableEq α] in
/-- What a text is split into is of its characters, the separator apart. -/
theorem mem_of_mem_splitOn [BEq α] [LawfulBEq α] {sep : α} {text part : List α} (h : part ∈ text.splitOn sep) :
    ∀ c ∈ part, c ∈ text ∧ c ≠ sep := by
  induction text generalizing part with
  | nil =>
    rw [List.splitOn_nil, List.mem_singleton] at h
    simp [h]
  | cons d text ih =>
    intro c hc
    rw [List.splitOn_cons_eq_if_modifyHead] at h
    split at h
    · rcases List.mem_cons.mp h with rfl | hpart
      · exact absurd hc List.not_mem_nil
      · exact ⟨List.mem_cons_of_mem _ (ih hpart c hc).1, (ih hpart c hc).2⟩
    · rename_i hd
      obtain ⟨head, rest, hparts⟩ := List.exists_cons_of_ne_nil (List.splitOn_ne_nil sep text)
      rw [hparts] at h ih
      rcases List.mem_cons.mp h with rfl | hpart
      · rcases List.mem_cons.mp hc with rfl | hhead
        · exact ⟨List.mem_cons_self, fun heq => hd (beq_iff_eq.mpr heq)⟩
        · exact ⟨List.mem_cons_of_mem _ (ih List.mem_cons_self c hhead).1, (ih List.mem_cons_self c hhead).2⟩
      · have hrest := ih (List.mem_cons_of_mem _ hpart) c hc
        exact ⟨List.mem_cons_of_mem _ hrest.1, hrest.2⟩

omit [DecidableEq α] in
theorem not_mem_of_mem_splitOn [BEq α] [LawfulBEq α] {sep : α} {text part : List α} (h : part ∈ text.splitOn sep) :
    sep ∉ part :=
  fun hsep => (mem_of_mem_splitOn h sep hsep).2 rfl

omit [DecidableEq α] in
/-- Joined parts are split where they were joined, and within. -/
theorem splitOn_intercalate_flatMap [BEq α] [LawfulBEq α] (sep : α) {parts : List (List α)} (hparts : parts ≠ []) :
    ([sep].intercalate parts).splitOn sep = parts.flatMap (·.splitOn sep) := by
  induction parts with
  | nil => exact absurd rfl hparts
  | cons part parts ih =>
    cases parts with
    | nil => simp
    | cons next parts =>
      rw [List.intercalate_cons_cons, List.append_assoc, List.singleton_append, List.splitOn_append_cons_self,
        ih (List.cons_ne_nil _ _), List.flatMap_cons (x := part)]

omit [DecidableEq α] in
theorem flatMap_intercalate {β : Type*} (f : α → List β) (sep : α) (parts : List (List α)) :
    ([sep].intercalate parts).flatMap f = (f sep).intercalate (parts.map (·.flatMap f)) := by
  induction parts with
  | nil => simp
  | cons part parts ih =>
    cases parts with
    | nil => simp
    | cons next parts =>
      rw [List.intercalate_cons_cons, List.map_cons, List.map_cons, List.intercalate_cons_cons]
      simp only [List.flatMap_append, ih, List.map_cons]
      simp

/-- A substitution that keeps the separator and makes no other works part by part. -/
theorem splitOn_flatMap {sep : α} {f : α → List α} (hsep : f sep = [sep]) (hother : ∀ c, c ≠ sep → sep ∉ f c)
    (text : List α) : (text.flatMap f).splitOn sep = (text.splitOn sep).map (·.flatMap f) := by
  have hparts : ∀ part ∈ (text.splitOn sep).map (·.flatMap f), sep ∉ part := by
    intro part hpart
    obtain ⟨before, hbefore, rfl⟩ := List.mem_map.mp hpart
    rw [List.mem_flatMap]
    rintro ⟨c, hc, hmem⟩
    exact hother c (ne_of_mem_of_not_mem hc (not_mem_of_mem_splitOn hbefore)) hmem
  calc (text.flatMap f).splitOn sep
      = (([sep].intercalate (text.splitOn sep)).flatMap f).splitOn sep := by rw [List.intercalate_splitOn]
    _ = ([sep].intercalate ((text.splitOn sep).map (·.flatMap f))).splitOn sep := by
      rw [flatMap_intercalate, hsep]
    _ = (text.splitOn sep).map (·.flatMap f) := List.splitOn_intercalate sep hparts (by simp)

/-! ### Blocks -/

/-- The runs of lines between blank lines. -/
def blocks (lines : List (List α)) : List (List (List α)) := (lines.splitOn []).filter (· ≠ [])

theorem not_blank_of_mem_blocks {lines : List (List α)} {block : List (List α)} (h : block ∈ blocks lines) :
    [] ∉ block :=
  not_mem_of_mem_splitOn (List.mem_filter.mp h).1

theorem mem_of_mem_blocks {lines : List (List α)} {block : List (List α)} (h : block ∈ blocks lines) :
    ∀ line ∈ block, line ∈ lines :=
  fun line hline => (mem_of_mem_splitOn (List.mem_filter.mp h).1 line hline).1

/-- Blocks written one after the other, each with a blank line after it, are read back. -/
theorem blocks_flatMap {written : List (List (List α))} (hfull : ∀ block ∈ written, block ≠ [] ∧ [] ∉ block) :
    blocks (written.flatMap (· ++ [[]])) = written := by
  have hjoin : written.flatMap (· ++ [[]]) = [[]].intercalate (written ++ [[]]) := by
    induction written with
    | nil => rfl
    | cons block written ih =>
      rw [List.flatMap_cons, ih fun b hb => hfull b (List.mem_cons_of_mem _ hb), List.cons_append,
        List.intercalate_cons_of_ne_nil (by simp), List.append_assoc]
  have hblank : ∀ block ∈ written ++ [[]], [] ∉ block := by
    intro block hblock
    rcases List.mem_append.mp hblock with hwritten | hlast
    · exact (hfull block hwritten).2
    · rw [List.mem_singleton.mp hlast]
      exact List.not_mem_nil
  have hfilter : written.filter (· ≠ []) = written := by
    rw [List.filter_eq_self]
    exact fun block hblock => decide_eq_true (hfull block hblock).1
  rw [blocks, hjoin, List.splitOn_intercalate [] hblank (by simp), List.filter_append, hfilter]
  simp

/-! ### Occurrences -/

/-- How often a nonempty word occurs in a text. -/
def occurrences (word : List α) : List α → Nat
  | [] => 0
  | c :: rest => (if word <+: c :: rest then 1 else 0) + occurrences word rest

@[simp] theorem occurrences_nil (word : List α) : occurrences word [] = 0 := rfl

theorem occurrences_cons (word : List α) (c : α) (rest : List α) :
    occurrences word (c :: rest) = (if word <+: c :: rest then 1 else 0) + occurrences word rest := rfl

theorem occurrences_eq_zero {word text : List α} {c : α} (hword : c ∈ word) (htext : c ∉ text) :
    occurrences word text = 0 := by
  induction text with
  | nil => rfl
  | cons d text ih =>
    have hprefix : ¬ word <+: d :: text := fun h => htext (h.subset hword)
    rw [occurrences_cons, if_neg hprefix, ih fun h => htext (List.mem_cons_of_mem _ h)]

omit [DecidableEq α] in
/-- A word without the separator does not reach over it. -/
theorem prefix_append_sep {word before after : List α} {sep : α} (hsep : sep ∉ word) :
    word <+: before ++ sep :: after ↔ word <+: before := by
  constructor
  · intro h
    induction before generalizing word with
    | nil =>
      cases word with
      | nil => exact List.nil_prefix
      | cons c word =>
        obtain ⟨rfl, -⟩ := List.cons_prefix_cons.mp h
        exact absurd List.mem_cons_self hsep
    | cons d before ih =>
      cases word with
      | nil => exact List.nil_prefix
      | cons c word =>
        obtain ⟨rfl, hrest⟩ := List.cons_prefix_cons.mp h
        exact List.cons_prefix_cons.mpr ⟨rfl, ih (fun hmem => hsep (List.mem_cons_of_mem _ hmem)) hrest⟩
  · exact fun h => h.trans (List.prefix_append _ _)

theorem occurrences_append_sep {word : List α} {sep : α} (hword : word ≠ []) (hsep : sep ∉ word)
    (before after : List α) :
    occurrences word (before ++ sep :: after) = occurrences word before + occurrences word after := by
  induction before with
  | nil =>
    have hstarts : ¬ word <+: sep :: after := by
      rw [← List.nil_append (sep :: after), prefix_append_sep hsep, List.prefix_nil]
      exact hword
    rw [List.nil_append, occurrences_cons, if_neg hstarts, occurrences_nil]
  | cons c before ih =>
    have hstarts : word <+: c :: (before ++ sep :: after) ↔ word <+: c :: before := by
      rw [← List.cons_append, prefix_append_sep hsep]
    rw [List.cons_append, occurrences_cons, occurrences_cons, ih, Nat.add_assoc]
    simp only [hstarts]

/-- A word without an end of line occurs as often as it does in the lines. -/
theorem occurrences_intercalate {word : List α} {sep : α} (hword : word ≠ []) (hsep : sep ∉ word)
    (parts : List (List α)) :
    occurrences word ([sep].intercalate parts) = (parts.map (occurrences word)).sum := by
  induction parts with
  | nil => rfl
  | cons part parts ih =>
    cases parts with
    | nil =>
      rw [List.intercalate_singleton]
      exact (Nat.add_zero _).symm
    | cons next parts =>
      rw [List.intercalate_cons_cons, List.append_assoc, List.singleton_append, occurrences_append_sep hword hsep, ih,
        List.map_cons (a := part), List.sum_cons (a := occurrences word part)]

/-! ### Reading every part -/

omit [DecidableEq α] in
theorem mapM_eq_some_iff {β : Type*} {f : α → Option β} {parts : List α} {read : List β} :
    parts.mapM f = some read ↔ parts.map f = read.map some := by
  induction parts generalizing read with
  | nil =>
    cases read with
    | nil => simp
    | cons first read => simp
  | cons part parts ih =>
    have hbind : (part :: parts).mapM f = some read ↔
        ∃ value, f part = some value ∧ ∃ values, parts.mapM f = some values ∧ value :: values = read := by
      simp [List.mapM_cons, Option.bind_eq_some_iff]
    rw [hbind]
    cases read with
    | nil => simp
    | cons first read =>
      simp only [ih, List.cons.injEq, List.map_cons]
      constructor
      · rintro ⟨_, hfirst, _, hrest, rfl, rfl⟩
        exact ⟨hfirst, hrest⟩
      · rintro ⟨hfirst, hrest⟩
        exact ⟨first, hfirst, read, hrest, rfl, rfl⟩

end Formats
