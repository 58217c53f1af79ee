import Mathlib.Data.List.Nodup

/-!
# Tables with a unique key

A table is a list of rows, and a unique constraint says that no two of them share a key. Rows are found by their key,
inserted at the end, and saved in place.
-/

namespace Runs.Table

variable {κ ρ : Type*} (key : ρ → κ)

/-- The unique constraint. -/
def Unique (rows : List ρ) : Prop := (rows.map key).Nodup

variable {key} {row old new : ρ} {rows : List ρ} {k : κ}

theorem Unique.eq (h : Unique key rows) (hrow : row ∈ rows) (hold : old ∈ rows) (hkey : key row = key old) :
    row = old :=
  List.inj_on_of_nodup_map h hrow hold hkey

theorem unique_append (h : Unique key rows) (hnew : ∀ row ∈ rows, key row ≠ key new) :
    Unique key (rows ++ [new]) := by
  rw [Unique, List.map_append, List.nodup_append]
  refine ⟨h, List.nodup_singleton _, ?_⟩
  rintro _ hrow _ hlast rfl
  obtain ⟨row, hmem, hkey⟩ := List.mem_map.mp hrow
  exact hnew row hmem (hkey.trans (List.mem_singleton.mp hlast))

/-- An insert keeps what holds of every row, if it holds of the new one. -/
theorem forall_mem_insert {p : ρ → Prop} (h : ∀ row ∈ rows, p row) (hnew : p new) : ∀ row ∈ rows ++ [new], p row :=
  List.forall_mem_append.mpr ⟨h, List.forall_mem_singleton.mpr hnew⟩

/-- Writing rows in place keeps them apart by a key they keep. -/
theorem unique_map_iff {write : ρ → ρ} (hkey : ∀ row, key (write row) = key row) :
    Unique key (rows.map write) ↔ Unique key rows := by
  have hkeys : (rows.map write).map key = rows.map key := by
    rw [List.map_map]
    exact List.map_congr_left fun row _ => hkey row
  rw [Unique, hkeys, Unique]

/-! ### Columns -/

/-- The rows that are still there have, in the columns that are kept, what they had. -/
def Keeps {χ ν : Type*} (key : ρ → κ) (get : χ → ρ → ν) (kept : κ → χ → Prop) (before after : List ρ) : Prop :=
  ∀ old ∈ before, ∀ new ∈ after, key new = key old → ∀ column, kept (key old) column → get column new = get column old

/-- Rows written in place keep what each of them keeps. -/
theorem keeps_map_iff {χ ν : Type*} {get : χ → ρ → ν} {kept : κ → χ → Prop} (hunique : Unique key rows) {write : ρ → ρ}
    (hkey : ∀ row, key (write row) = key row) :
    Keeps key get kept rows (rows.map write) ↔
      ∀ row ∈ rows, ∀ column, kept (key row) column → get column (write row) = get column row := by
  constructor
  · intro h row hrow column hkept
    exact h row hrow (write row) (List.mem_map_of_mem hrow) (hkey row) column hkept
  · intro h old hold new hnew hsame column hkept
    obtain ⟨row, hrow, rfl⟩ := List.mem_map.mp hnew
    obtain rfl := hunique.eq hrow hold ((hkey row).symm.trans hsame)
    exact h row hrow column hkept

theorem keeps_refl {χ ν : Type*} {get : χ → ρ → ν} {kept : κ → χ → Prop} (hunique : Unique key rows) :
    Keeps key get kept rows rows := by
  intro old hold new hnew hsame column _
  rw [hunique.eq hnew hold hsame]

/-! ### Reading and writing -/

variable [DecidableEq κ]

instance : Decidable (Unique key rows) := inferInstanceAs (Decidable (List.Nodup _))

variable (key)

def find (k : κ) (rows : List ρ) : Option ρ := rows.find? fun row => key row = k

def save (row : ρ) (rows : List ρ) : List ρ := rows.map fun old => if key old = key row then row else old

/-- `get_or_create` with the row it would create. -/
def getOrCreate (new : ρ) (rows : List ρ) : ρ × List ρ :=
  match find key (key new) rows with
  | some row => (row, rows)
  | none => (new, rows ++ [new])

variable {key}

theorem find_eq_some (h : find key k rows = some row) : row ∈ rows ∧ key row = k :=
  ⟨List.mem_of_find?_eq_some h, by simpa using List.find?_some h⟩

theorem find_eq_none (h : find key k rows = none) : ∀ row ∈ rows, key row ≠ k := by
  simpa [find] using h

@[simp] theorem map_key_save : (save key row rows).map key = rows.map key := by
  rw [save, List.map_map]
  apply List.map_congr_left
  intro old _
  simp only [Function.comp_apply]
  split
  · rename_i hkey
    exact hkey.symm
  · rfl

@[simp] theorem unique_save : Unique key (save key row rows) ↔ Unique key rows := by
  rw [Unique, map_key_save, Unique]

/-- Saving replaces the row with the same key, if there is one, and leaves the others. -/
theorem mem_save : old ∈ save key row rows ↔
    (old ∈ rows ∧ key old ≠ key row) ∨ (old = row ∧ ∃ replaced ∈ rows, key replaced = key row) := by
  simp only [save, List.mem_map]
  constructor
  · rintro ⟨before, hbefore, hsaved⟩
    split at hsaved
    · rename_i hkey
      exact .inr ⟨hsaved.symm, before, hbefore, hkey⟩
    · rename_i hkey
      subst hsaved
      exact .inl ⟨hbefore, hkey⟩
  · rintro (⟨hold, hkey⟩ | ⟨rfl, replaced, hreplaced, hkey⟩)
    · exact ⟨old, hold, if_neg hkey⟩
    · exact ⟨replaced, hreplaced, if_pos hkey⟩

/-- A saved row keeps what the one it replaces keeps. -/
theorem keeps_save_iff {χ ν : Type*} {get : χ → ρ → ν} {kept : κ → χ → Prop} (hunique : Unique key rows) :
    Keeps key get kept rows (save key row rows) ↔
      ∀ old ∈ rows, key old = key row → ∀ column, kept (key old) column → get column row = get column old := by
  have hkey : ∀ old, key (if key old = key row then row else old) = key old := by
    intro old
    split
    · rename_i hsame
      exact hsame.symm
    · rfl
  rw [save, keeps_map_iff hunique hkey]
  refine forall₂_congr fun old _ => ?_
  by_cases hsame : key old = key row <;> simp [hsame]

/-- Saving over a row that is there keeps another unique constraint exactly when no other row is in the way. -/
theorem unique_save_iff {κ' : Type*} {key' : ρ → κ'} (hkey : Unique key rows) (hunique : Unique key' rows)
    (hexists : ∃ old ∈ rows, key old = key row) :
    Unique key' (save key row rows) ↔ ∀ old ∈ rows, key old ≠ key row → key' old ≠ key' row := by
  have hnodup : (save key row rows).Nodup := List.Nodup.of_map key (unique_save.mpr hkey)
  obtain ⟨replaced, hreplaced, hsame⟩ := hexists
  have hrow : row ∈ save key row rows := mem_save.mpr (.inr ⟨rfl, replaced, hreplaced, hsame⟩)
  constructor
  · intro h old hold hother heq
    have hold' : old ∈ save key row rows := mem_save.mpr (.inl ⟨hold, hother⟩)
    exact hother (congrArg key (h.eq hold' hrow heq))
  · intro h
    apply (List.nodup_map_iff_inj_on hnodup).mpr
    intro first hfirst second hsecond heq
    rcases mem_save.mp hfirst with ⟨hold, hother⟩ | ⟨rfl, -⟩
    · rcases mem_save.mp hsecond with ⟨hold', -⟩ | ⟨rfl, -⟩
      · exact hunique.eq hold hold' heq
      · exact absurd heq (h first hold hother)
    · rcases mem_save.mp hsecond with ⟨hold', hother'⟩ | ⟨rfl, -⟩
      · exact absurd heq.symm (h second hold' hother')
      · rfl

/-- `get_or_create` gives the row with the key, which is the one that was there if there was one. -/
theorem getOrCreate_row (key : ρ → κ) (new : ρ) (rows : List ρ) :
    ((getOrCreate key new rows).1 ∈ rows ∧ key (getOrCreate key new rows).1 = key new) ∨
      ((∀ row ∈ rows, key row ≠ key new) ∧ (getOrCreate key new rows).1 = new) := by
  unfold getOrCreate
  cases hfind : find key (key new) rows with
  | some row => exact .inl (find_eq_some hfind)
  | none => exact .inr ⟨find_eq_none hfind, rfl⟩

theorem key_getOrCreate (key : ρ → κ) (new : ρ) (rows : List ρ) : key (getOrCreate key new rows).1 = key new := by
  rcases getOrCreate_row key new rows with ⟨-, hkey⟩ | ⟨-, hnew⟩
  · exact hkey
  · rw [hnew]

/-- Its row is in the table it leaves, among the rows that were there. -/
theorem mem_getOrCreate (h : Unique key rows) :
    old ∈ (getOrCreate key new rows).2 ↔ (old ∈ rows ∧ key old ≠ key new) ∨ old = (getOrCreate key new rows).1 := by
  unfold getOrCreate
  cases hfind : find key (key new) rows with
  | some row =>
    obtain ⟨hmem, hkey⟩ := find_eq_some hfind
    constructor
    · intro hold
      by_cases hsame : key old = key new
      · exact .inr (h.eq hold hmem (hsame.trans hkey.symm))
      · exact .inl ⟨hold, hsame⟩
    · rintro (⟨hold, -⟩ | rfl)
      · exact hold
      · exact hmem
  | none =>
    simp only [List.mem_append, List.mem_singleton]
    exact or_congr_left ⟨fun hold => ⟨hold, find_eq_none hfind old hold⟩, fun hold => hold.1⟩

theorem unique_getOrCreate (h : Unique key rows) : Unique key (getOrCreate key new rows).2 := by
  unfold getOrCreate
  cases hfind : find key (key new) rows with
  | some row => exact h
  | none => exact unique_append h (find_eq_none hfind)

/-- Saving the row that `get_or_create` gave leaves it and the rows with other keys. -/
theorem mem_save_getOrCreate (h : Unique key rows) (hrow : key row = key new) :
    old ∈ save key row (getOrCreate key new rows).2 ↔ (old ∈ rows ∧ key old ≠ key new) ∨ old = row := by
  rw [mem_save, hrow, mem_getOrCreate h]
  constructor
  · rintro (⟨⟨hold, -⟩ | hold, hkey⟩ | ⟨hold, -⟩)
    · exact .inl ⟨hold, hkey⟩
    · exact absurd (hold ▸ key_getOrCreate key new rows) hkey
    · exact .inr hold
  · rintro (⟨hold, hkey⟩ | hold)
    · exact .inl ⟨.inl ⟨hold, hkey⟩, hkey⟩
    · exact .inr ⟨hold, _, (mem_getOrCreate h).mpr (.inr rfl), key_getOrCreate key new rows⟩

end Runs.Table
