import EPlatform.Runs.Table
import Mathlib.Algebra.Ring.Int.Defs
import Mathlib.Data.List.Dedup
import Mathlib.Data.List.MinMax
import Mathlib.Data.List.ReduceOption

/-!
# Queries

What a database answers to a query over tables: outer joins, counts of distinct values, and the first row in an order. A
table has no order of its own, so a query meets the rows in some permutation, which decides between rows that the order
leaves tied.
-/

namespace Runs.Query

/-- A permutation of the rows: an order in which a query may meet them. -/
structure Scan {ρ : Type*} (table : List ρ) where
  rows : List ρ
  perm : rows.Perm table

variable {α β κ ρ : Type*}

theorem Scan.mem_rows {table : List ρ} (scan : Scan table) {row : ρ} : row ∈ scan.rows ↔ row ∈ table :=
  scan.perm.mem_iff

/-! ### The one row -/

section One

variable {keep : ρ → Prop} [DecidablePred keep] {rows rows' : List ρ} {row : ρ}

inductive NotOne
  | noRow
  | severalRows
  deriving DecidableEq, Repr

/-- `get()`: the row that satisfies the filter, if there is one and no other. -/
def one (keep : ρ → Prop) [DecidablePred keep] (rows : List ρ) : Except NotOne ρ :=
  match rows.filter keep with
  | [] => .error .noRow
  | [row] => .ok row
  | _ => .error .severalRows

/-- A filter on the columns of a unique constraint. -/
def AtMostOne (keep : ρ → Prop) (rows : List ρ) : Prop := ∀ a ∈ rows, keep a → ∀ b ∈ rows, keep b → a = b

theorem one_of_mem (hnodup : rows.Nodup) (hone : AtMostOne keep rows) (hrow : row ∈ rows) (hkept : keep row) :
    one keep rows = .ok row := by
  have hfilter : rows.filter keep = [row] := by
    apply List.perm_singleton.mp
    refine (List.perm_ext_iff_of_nodup (hnodup.filter _) (List.nodup_singleton _)).mpr fun other => ?_
    rw [List.mem_filter, decide_eq_true_eq, List.mem_singleton]
    constructor
    · rintro ⟨hother, hkept'⟩
      exact hone other hother hkept' row hrow hkept
    · rintro rfl
      exact ⟨hrow, hkept⟩
  rw [one, hfilter]

theorem one_of_forall_not (h : ∀ row ∈ rows, ¬ keep row) : one keep rows = .error .noRow := by
  rw [one, List.filter_eq_nil_iff.mpr (by simpa using h)]

/-- `first()` where the filter leaves no choice. -/
theorem find_eq_some_iff_of_atMostOne (hone : AtMostOne keep rows) :
    (rows.find? fun row => keep row) = some row ↔ row ∈ rows ∧ keep row := by
  constructor
  · intro h
    exact ⟨List.mem_of_find?_eq_some h, by simpa using List.find?_some h⟩
  · rintro ⟨hrow, hkept⟩
    cases hfind : rows.find? fun row => keep row with
    | none => exact absurd (List.find?_eq_none.mp hfind row hrow) (by simpa using hkept)
    | some found =>
      have hfound : keep found := by simpa using List.find?_some hfind
      rw [hone found (List.mem_of_find?_eq_some hfind) hfound row hrow hkept]

theorem find_congr_of_atMostOne (hone : AtMostOne keep rows) {keep' : ρ → Prop} [DecidablePred keep']
    (hone' : AtMostOne keep' rows') (h : ∀ row, row ∈ rows ∧ keep row ↔ row ∈ rows' ∧ keep' row) :
    (rows.find? fun row => keep row) = rows'.find? fun row => keep' row := by
  apply Option.ext
  intro row
  rw [find_eq_some_iff_of_atMostOne hone, find_eq_some_iff_of_atMostOne hone', h]

end One

/-! ### Joins -/

section Join

variable (on : α → β → Prop) [∀ a, DecidablePred (on a)]

/-- `LEFT JOIN`: the rows that match, or null where none does. -/
def leftJoin (a : α) (rows : List β) : List (Option β) :=
  match rows.filter (on a) with
  | [] => [none]
  | found => found.map some

variable {on} {a : α} {b : β} {rows : List β}

theorem some_mem_leftJoin : some b ∈ leftJoin on a rows ↔ b ∈ rows ∧ on a b := by
  have hfilter : b ∈ rows.filter (on a) ↔ b ∈ rows ∧ on a b := by simp
  rw [← hfilter, leftJoin]
  split
  · rename_i hnone
    simp [hnone]
  · simp

/-- Every row is joined to something. -/
theorem exists_mem_leftJoin (on : α → β → Prop) [∀ a, DecidablePred (on a)] (a : α) (rows : List β) :
    ∃ joined, joined ∈ leftJoin on a rows := by
  rw [leftJoin]
  split
  · exact ⟨none, List.mem_singleton_self _⟩
  · rename_i found hfound
    obtain ⟨b, hb⟩ := List.exists_mem_of_ne_nil _ hfound
    exact ⟨some b, List.mem_map_of_mem hb⟩

/-- Joined on a key that no two rows share, every row is joined to one. -/
theorem leftJoin_key [DecidableEq κ] {key : β → κ} (hunique : Table.Unique key rows) (f : α → κ) (a : α) :
    leftJoin (fun a b => key b = f a) a rows = [Table.find key (f a) rows] := by
  induction rows with
  | nil => rfl
  | cons b rows ih =>
    obtain ⟨hfresh, hrest⟩ := List.nodup_cons.mp hunique
    by_cases hb : key b = f a
    · have hnone : rows.filter (fun b => key b = f a) = [] := by
        rw [List.filter_eq_nil_iff]
        intro b' hb' hkey
        exact hfresh (List.mem_map.mpr ⟨b', hb', (of_decide_eq_true hkey).trans hb.symm⟩)
      simp [leftJoin, Table.find, hb, hnone]
    · have hjoin : leftJoin (fun a b => key b = f a) a (b :: rows) = leftJoin (fun a b => key b = f a) a rows := by
        simp [leftJoin, hb]
      rw [hjoin, ih hrest, Table.find, Table.find, List.find?_cons_of_neg (by simpa using hb)]

end Join

section InnerJoin

variable {γ : Type*} (combine : α → β → γ) (on : α → β → Prop) [∀ a, DecidablePred (on a)]

/-- `INNER JOIN`: every two rows that match, as one. -/
def innerJoin (rows : List α) (others : List β) : List γ :=
  rows.flatMap fun a => (others.filter (on a)).map (combine a)

variable {combine on} {rows : List α} {others : List β} {c : γ}

theorem mem_innerJoin : c ∈ innerJoin combine on rows others ↔ ∃ a ∈ rows, ∃ b ∈ others, on a b ∧ combine a b = c := by
  simp only [innerJoin, List.mem_flatMap, List.mem_map, List.mem_filter, decide_eq_true_eq, and_assoc]

theorem nodup_innerJoin (hcombine : Function.Injective2 combine) (hrows : rows.Nodup) (hothers : others.Nodup) :
    (innerJoin combine on rows others).Nodup := by
  rw [innerJoin, List.nodup_flatMap]
  constructor
  · intro a _
    exact (hothers.filter _).map (hcombine.right a)
  · refine hrows.imp fun {a a'} hne => ?_
    intro c hc hc'
    obtain ⟨b, -, rfl⟩ := List.mem_map.mp hc
    obtain ⟨b', -, hsame⟩ := List.mem_map.mp hc'
    exact hne (hcombine hsame).1.symm

end InnerJoin

/-! ### Counts -/

/-- `COUNT(DISTINCT …)`, which skips nulls. -/
def countDistinct [DecidableEq κ] (values : List (Option κ)) : Nat := values.reduceOption.dedup.length

/-- Values that are the keys of some rows, however often each arrives, are as many as the rows. -/
theorem countDistinct_eq_length [DecidableEq κ] {key : ρ → κ} {rows : List ρ} (hunique : Table.Unique key rows)
    {values : List (Option κ)} (hkeys : ∀ k, some k ∈ values ↔ ∃ row ∈ rows, key row = k) :
    countDistinct values = rows.length := by
  have hperm : values.reduceOption.dedup.Perm (rows.map key) := by
    refine (List.perm_ext_iff_of_nodup (List.nodup_dedup _) hunique).mpr fun k => ?_
    rw [List.mem_dedup, List.reduceOption_mem_iff, hkeys k, List.mem_map]
  rw [countDistinct, hperm.length_eq, List.length_map]

/-! ### Groups -/

section Group

/-- `COUNT(…)`, which skips nulls. -/
def count (values : List (Option κ)) : Nat := values.reduceOption.length

/-- `SUM(…)`, which skips nulls, and is null where nothing is left. -/
def sum (values : List (Option Int)) : Option Int :=
  match values.reduceOption with
  | [] => none
  | found => some found.sum

/-- `MIN(…)`, which skips nulls, and is null where nothing is left. -/
def minimum [LinearOrder κ] (values : List (Option κ)) : Option κ := values.reduceOption.min?

/-- `GROUP BY key`. -/
def groups [DecidableEq κ] (key : ρ → κ) (rows : List ρ) : List (List ρ) :=
  (rows.map key).dedup.map fun k => rows.filter (key · = k)

theorem count_some (f : ρ → κ) (rows : List ρ) : count (rows.map fun row => some (f row)) = rows.length := by
  rw [count, List.reduceOption_length_eq_iff.mpr (by simp), List.length_map]

theorem minimum_eq_some [LinearOrder κ] {f : ρ → κ} {rows : List ρ} {least : κ} :
    minimum (rows.map fun row => some (f row)) = some least ↔
      (∃ row ∈ rows, f row = least) ∧ ∀ row ∈ rows, least ≤ f row := by
  have hvalues : (rows.map fun row => some (f row)).reduceOption = rows.map f := by
    rw [List.reduceOption, List.filterMap_map]
    exact congrFun List.filterMap_eq_map rows
  rw [minimum, hvalues, List.min?_eq_some_iff]
  simp

theorem minimum_eq_none [LinearOrder κ] {f : ρ → κ} {rows : List ρ} :
    minimum (rows.map fun row => some (f row)) = none ↔ rows = [] := by
  cases rows with
  | nil => simp [minimum, List.reduceOption]
  | cons row rows => simp [minimum, List.reduceOption]

/-- Rows that agree on the key are one group, if there are any. -/
theorem groups_of_forall_eq [DecidableEq κ] {key : ρ → κ} {rows : List ρ} {k : κ} (hne : rows ≠ [])
    (hk : ∀ row ∈ rows, key row = k) : groups key rows = [rows] := by
  have hkeys : rows.map key = List.replicate rows.length k := by
    rw [List.eq_replicate_iff, List.length_map]
    refine ⟨rfl, fun k' hk' => ?_⟩
    obtain ⟨row, hrow, rfl⟩ := List.mem_map.mp hk'
    exact hk row hrow
  have hkept : rows.filter (key · = k) = rows := List.filter_eq_self.mpr fun row hrow => decide_eq_true (hk row hrow)
  rw [groups, hkeys, List.replicate_dedup (List.length_pos_iff.mpr hne).ne', List.map_singleton, hkept]

end Group

/-! ### The first row -/

section First

variable [LinearOrder κ] (key : ρ → κ)

/-- `ORDER BY key LIMIT 1` over the rows that satisfy the filter. -/
def first {table : List ρ} (keep : ρ → Prop) [DecidablePred keep] (scan : Scan table) : Option ρ :=
  (scan.rows.filter keep).argmin key

/-- No row that is kept stands before this one. -/
def IsFirst (table : List ρ) (keep : ρ → Prop) (row : ρ) : Prop :=
  row ∈ table ∧ keep row ∧ ∀ other ∈ table, keep other → key row ≤ key other

variable {key} {table : List ρ} {keep : ρ → Prop} [DecidablePred keep] {row : ρ}

theorem isFirst_of_first {scan : Scan table} (h : first key keep scan = some row) : IsFirst key table keep row := by
  have hrow : row ∈ scan.rows.filter keep := List.argmin_mem h
  rw [List.mem_filter, scan.mem_rows, decide_eq_true_eq] at hrow
  refine ⟨hrow.1, hrow.2, fun other hother hkept => ?_⟩
  apply List.le_of_mem_argmin (f := key) _ h
  rw [List.mem_filter, scan.mem_rows, decide_eq_true_eq]
  exact ⟨hother, hkept⟩

theorem first_eq_none {scan : Scan table} : first key keep scan = none ↔ ∀ row ∈ table, ¬ keep row := by
  rw [first, List.argmin_eq_none, List.filter_eq_nil_iff]
  simp only [scan.mem_rows, decide_eq_true_eq]

/-- Whichever of the tied rows comes first, there is an order of the table that brings it. -/
theorem exists_first [DecidableEq ρ] (h : IsFirst key table keep row) :
    ∃ scan : Scan table, first key keep scan = some row := by
  obtain ⟨hrow, hkept, hleast⟩ := h
  refine ⟨⟨row :: table.erase row, (List.perm_cons_erase hrow).symm⟩, ?_⟩
  rw [first, List.filter_cons_of_pos (by simpa using hkept), List.argmin_eq_some_iff]
  refine ⟨List.mem_cons_self, ?_, ?_⟩
  · intro other hother
    rcases List.mem_cons.mp hother with rfl | hrest
    · exact le_rfl
    · rw [List.mem_filter, decide_eq_true_eq] at hrest
      exact hleast other (List.mem_of_mem_erase hrest.1) hrest.2
  · intro other _ _
    rw [List.idxOf_cons_self]
    exact Nat.zero_le _

end First

/-! ### The first rows -/

section Top

variable [LinearOrder κ] (rank : ρ → κ)

/-- `ORDER BY rank DESC LIMIT limit` over the rows that satisfy the filter. -/
def top {table : List ρ} (keep : ρ → Prop) [DecidablePred keep] (limit : Nat) (scan : Scan table) : List ρ :=
  ((scan.rows.filter keep).mergeSort fun a b => rank b ≤ rank a).take limit

/-- Rows that are kept, each once, no more than asked for, the higher first, and none left out that is higher. -/
structure IsTop (table : List ρ) (keep : ρ → Prop) (limit : Nat) (listed : List ρ) : Prop where
  kept : ∀ row ∈ listed, row ∈ table ∧ keep row
  once : listed.Nodup
  few : listed.length ≤ limit
  ordered : listed.Pairwise fun a b => ¬ rank a < rank b
  complete : ∀ row ∈ table, keep row → row ∉ listed → ∀ other ∈ listed, ¬ rank other < rank row

theorem IsTop.of_lt_iff {κ' : Type*} [LinearOrder κ'] {rank : ρ → κ} {rank' : ρ → κ'} {table : List ρ} {keep : ρ → Prop}
    {limit : Nat} {listed : List ρ} (h : ∀ a b, rank a < rank b ↔ rank' a < rank' b)
    (htop : IsTop rank table keep limit listed) : IsTop rank' table keep limit listed where
  kept := htop.kept
  once := htop.once
  few := htop.few
  ordered := htop.ordered.imp fun {a b} hab => (h a b).not.mp hab
  complete := fun row hrow hkept hout other hother => (h other row).not.mp (htop.complete row hrow hkept hout other hother)

/-- Ranks that order the rows alike list alike. -/
theorem isTop_congr {κ' : Type*} [LinearOrder κ'] {rank : ρ → κ} {rank' : ρ → κ'} {table : List ρ} {keep : ρ → Prop}
    {limit : Nat} {listed : List ρ} (h : ∀ a b, rank a < rank b ↔ rank' a < rank' b) :
    IsTop rank table keep limit listed ↔ IsTop rank' table keep limit listed :=
  ⟨IsTop.of_lt_iff h, IsTop.of_lt_iff fun a b => (h a b).symm⟩

/-- Two ranks that bring the same one of two kept rows to the front do not order the two against each other. -/
theorem IsTop.agree_of_one {κ' : Type*} [LinearOrder κ'] {rank : ρ → κ} {rank' : ρ → κ'} {table : List ρ}
    {keep : ρ → Prop} {listed : List ρ}
    (h : IsTop rank table keep 1 listed) (h' : IsTop rank' table keep 1 listed) (hne : listed ≠ []) {a b : ρ}
    (htwo : ∀ row ∈ table, keep row → row = a ∨ row = b) (ha : a ∈ table) (hkeepa : keep a) (hb : b ∈ table) (hkeepb : keep b)
    (hrank : rank a < rank b) : ¬ rank' b < rank' a := by
  obtain ⟨first, rfl⟩ : ∃ first, listed = [first] :=
    List.length_eq_one_iff.mp (Nat.le_antisymm h.few (List.length_pos_iff.mpr hne))
  have hne' : a ≠ b := fun heq => lt_irrefl _ (heq ▸ hrank)
  obtain ⟨hfirst, hkept⟩ := h.kept first List.mem_cons_self
  rcases htwo first hfirst hkept with rfl | rfl
  · exact absurd hrank (h.complete b hb hkeepb (by simpa using hne'.symm) first List.mem_cons_self)
  · exact h'.complete a ha hkeepa (by simpa using hne') first List.mem_cons_self

variable {table : List ρ} {keep : ρ → Prop} [DecidablePred keep] {limit : Nat}

theorem mem_sorted (rank : ρ → κ) (scan : Scan table) {row : ρ} :
    row ∈ (scan.rows.filter keep).mergeSort (fun a b => rank b ≤ rank a) ↔ row ∈ table ∧ keep row := by
  rw [List.mem_mergeSort, List.mem_filter, scan.mem_rows, decide_eq_true_eq]

theorem pairwise_sorted (rank : ρ → κ) (rows : List ρ) :
    (rows.mergeSort fun a b => rank b ≤ rank a).Pairwise fun a b => ¬ rank a < rank b := by
  have htrans : ∀ a b c : ρ, decide (rank b ≤ rank a) = true → decide (rank c ≤ rank b) = true →
      decide (rank c ≤ rank a) = true := by simpa using fun a b c => ge_trans
  have htotal : ∀ a b : ρ, (decide (rank b ≤ rank a) || decide (rank a ≤ rank b)) = true := by
    simpa using fun a b => le_total (rank b) (rank a)
  exact (List.pairwise_mergeSort htrans htotal rows).imp fun h => not_lt.mpr (of_decide_eq_true h)

theorem top_isTop (rank : ρ → κ) (keep : ρ → Prop) [DecidablePred keep] (limit : Nat) (hnodup : table.Nodup)
    (scan : Scan table) : IsTop rank table keep limit (top rank keep limit scan) := by
  have hsorted := pairwise_sorted rank (scan.rows.filter keep)
  constructor
  · exact fun row hrow => (mem_sorted rank scan).mp (List.mem_of_mem_take hrow)
  · have hrows : (scan.rows.filter keep).Nodup := (scan.perm.nodup_iff.mpr hnodup).filter _
    exact ((List.mergeSort_perm _ _).nodup_iff.mpr hrows).sublist (List.take_sublist _ _)
  · exact List.length_take_le _ _
  · exact hsorted.sublist (List.take_sublist _ _)
  · intro row hrow hkept hout other hother
    have hmem := (mem_sorted rank scan).mpr (⟨hrow, hkept⟩ : row ∈ table ∧ keep row)
    rw [← List.take_append_drop limit ((scan.rows.filter keep).mergeSort _)] at hmem hsorted
    exact (List.pairwise_append.mp hsorted).2.2 other hother row ((List.mem_append.mp hmem).resolve_left hout)

theorem top_congr (rank : ρ → κ) {keep' : ρ → Prop} [DecidablePred keep'] (limit : Nat) (scan : Scan table)
    (h : ∀ row, keep row ↔ keep' row) : top rank keep limit scan = top rank keep' limit scan := by
  rw [top, top, List.filter_congr fun row _ => decide_eq_decide.mpr (h row)]

theorem top_eq_nil (rank : ρ → κ) (limit : Nat) (scan : Scan table) (h : ∀ row ∈ table, ¬ keep row) :
    top rank keep limit scan = [] := by
  have hnone : scan.rows.filter keep = [] := by
    rw [List.filter_eq_nil_iff]
    exact fun row hrow => by simpa using h row (scan.mem_rows.mp hrow)
  rw [top, hnone]
  simp

/-- As many are listed as may be, out of those that are kept. -/
theorem length_top (rank : ρ → κ) (keep : ρ → Prop) [DecidablePred keep] (limit : Nat) (scan : Scan table) :
    (top rank keep limit scan).length = min limit (table.filter keep).length := by
  rw [top, List.length_take, List.length_mergeSort, (scan.perm.filter _).length_eq]

/-- Something is listed if anything may be. -/
theorem top_ne_nil (rank : ρ → κ) (scan : Scan table) (hlimit : limit ≠ 0) {row : ρ} (hrow : row ∈ table) (hkept : keep row) :
    top rank keep limit scan ≠ [] := by
  have hmem : row ∈ (scan.rows.filter keep).mergeSort fun a b => rank b ≤ rank a :=
    (mem_sorted rank scan).mpr ⟨hrow, hkept⟩
  rw [top, Ne, List.take_eq_nil_iff, not_or]
  exact ⟨hlimit, List.ne_nil_of_mem hmem⟩

end Top

end Runs.Query
