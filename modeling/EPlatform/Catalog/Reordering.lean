import EPlatform.Catalog.Curriculum

/-!
# Putting siblings in order

`reorder_sections` and `reorder_lessons` on any list of ids: repeated, missing or somebody else's.
-/

namespace EPlatform.Catalog

open Runs

section Order

variable {ρ : Type} (pk : ρ → Uuid) (position : ρ → Int) (setPosition : Int → ρ → ρ) (inScope : ρ → Prop)
  [DecidablePred inScope]

def siblings (table : List ρ) : List Uuid := (table.filter fun row => inScope row).map pk

/-- A row with the position the ids give it. -/
def moved (orderedIds : List Uuid) (row : ρ) : ρ :=
  if inScope row then setPosition (orderedIds.idxOf (pk row) + 1) row else row

/-- A position is a column of its own. -/
structure IsPosition : Prop where
  get : ∀ p row, position (setPosition p row) = p
  key : ∀ p row, pk (setPosition p row) = pk row
  scope : ∀ p row, inScope (setPosition p row) ↔ inScope row

/-- The siblings stand as the ids name them, and nothing but a position of theirs has changed. -/
structure Reordered (orderedIds : List Uuid) (before after : List ρ) : Prop where
  named : ∀ k (hk : k < orderedIds.length), ∃ row ∈ after, inScope row ∧ pk row = orderedIds[k] ∧ position row = k + 1
  positions : ((after.filter fun row => inScope row).map position).Perm
    ((List.range orderedIds.length).map fun k : Nat => (k + 1 : Int))
  keeps : List.Forall₂ (fun old new => new = old ∨ inScope old ∧ ∃ p, new = setPosition p old) before after

variable {pk position setPosition inScope} {orderedIds : List Uuid} {table table' : List ρ}

/-- The guard is the test for a permutation. -/
theorem guard_iff_perm (hunique : Table.Unique pk table) :
    (orderedIds.Nodup ∧ (∀ id ∈ orderedIds, id ∈ siblings pk inScope table) ∧
      ∀ id ∈ siblings pk inScope table, id ∈ orderedIds) ↔ orderedIds.Perm (siblings pk inScope table) := by
  have hsiblings : (siblings pk inScope table).Nodup := hunique.sublist (List.filter_sublist.map pk)
  constructor
  · intro ⟨hnodup, hbelong, hnamed⟩
    exact (List.perm_ext_iff_of_nodup hnodup hsiblings).mpr fun id => ⟨hbelong id, hnamed id⟩
  · intro hperm
    exact ⟨hperm.nodup_iff.mpr hsiblings, fun id => hperm.mem_iff.mp, fun id => hperm.mem_iff.mpr⟩

theorem applyOrder_eq_ok_iff (hunique : Table.Unique pk table) :
    applyOrder pk setPosition inScope orderedIds table = .ok table' ↔
      orderedIds.Perm (siblings pk inScope table) ∧ table' = table.map (moved pk setPosition inScope orderedIds) := by
  simp only [applyOrder, bind_eq_ok, require_eq_ok, exists_const, pure_eq_ok]
  exact and_congr_left' (guard_iff_perm hunique)

theorem applyOrder_eq_error {e : CurriculumError} (h : applyOrder pk setPosition inScope orderedIds table = .error e) :
    e = .invalidReorder := by
  unfold applyOrder at h
  simp only at h
  by_cases hguard : orderedIds.Nodup ∧ (∀ id ∈ orderedIds, id ∈ (table.filter fun row => inScope row).map pk) ∧
      ∀ id ∈ (table.filter fun row => inScope row).map pk, id ∈ orderedIds
  · rw [require_bind_of hguard] at h
    cases h
  · rw [require_bind_of_not hguard] at h
    cases h
    rfl

theorem map_idxOf_self (hnodup : orderedIds.Nodup) : orderedIds.map (orderedIds.idxOf ·) = List.range orderedIds.length := by
  apply List.ext_getElem
  · simp
  · intro k hk _
    have hk' : k < orderedIds.length := by simpa using hk
    simp [hnodup.idxOf_getElem k hk']

/-- What no position has a part in stays as it is. -/
theorem moved_of_kept {ν : Type} {f : ρ → ν} (hf : ∀ p row, f (setPosition p row) = f row) (row : ρ) :
    f (moved pk setPosition inScope orderedIds row) = f row := by
  unfold moved
  split
  · exact hf _ row
  · rfl

theorem map_moved_of_kept {ν : Type} {f : ρ → ν} (hf : ∀ p row, f (setPosition p row) = f row) :
    (table.map (moved pk setPosition inScope orderedIds)).map f = table.map f := by
  rw [List.map_map]
  exact List.map_congr_left fun row _ => moved_of_kept hf row

/-- The rows in scope are the old ones, moved. -/
theorem filter_moved (hposition : IsPosition pk position setPosition inScope) :
    (table.map (moved pk setPosition inScope orderedIds)).filter (fun row => inScope row) =
      (table.filter fun row => inScope row).map fun row => setPosition (orderedIds.idxOf (pk row) + 1) row := by
  have hscope : ∀ row, inScope (moved pk setPosition inScope orderedIds row) ↔ inScope row := by
    intro row
    unfold moved
    split
    · exact hposition.scope _ row
    · exact Iff.rfl
  rw [List.filter_map]
  have hsame : table.filter ((fun row => decide (inScope row)) ∘ moved pk setPosition inScope orderedIds) =
      table.filter fun row => inScope row := List.filter_congr fun row _ => by simp [hscope]
  rw [hsame]
  exact List.map_congr_left fun row hrow => if_pos (by simpa using (List.mem_filter.mp hrow).2)

theorem reordered (hposition : IsPosition pk position setPosition inScope)
    (hperm : orderedIds.Perm (siblings pk inScope table)) (hnodup : orderedIds.Nodup) :
    Reordered pk position setPosition inScope orderedIds table (table.map (moved pk setPosition inScope orderedIds)) := by
  constructor
  · intro k hk
    obtain ⟨row, hrow, hpk⟩ := List.mem_map.mp (hperm.mem_iff.mp (List.getElem_mem hk))
    obtain ⟨hmem, hscope⟩ := List.mem_filter.mp hrow
    have hscope' : inScope row := by simpa using hscope
    refine ⟨_, List.mem_map_of_mem hmem, ?_⟩
    rw [moved, if_pos hscope', hposition.scope, hposition.key, hposition.get, hpk, hnodup.idxOf_getElem k hk]
    exact ⟨hscope', rfl, rfl⟩
  · have hplaces : ((table.filter fun row => inScope row).map fun row => (orderedIds.idxOf (pk row) + 1 : Int)) =
        (siblings pk inScope table).map fun id => (orderedIds.idxOf id + 1 : Int) := by
      rw [siblings, List.map_map]
      rfl
    rw [filter_moved hposition, List.map_map]
    simp only [Function.comp_def, hposition.get]
    rw [hplaces, ← map_idxOf_self hnodup, List.map_map]
    exact hperm.symm.map _
  · rw [List.forall₂_map_right_iff, List.forall₂_same]
    intro row _
    unfold moved
    split
    · exact .inr ⟨‹_›, _, rfl⟩
    · exact .inl rfl

/-- Places stay unique: within the scope by the order, and elsewhere because they are as they were. -/
theorem unique_moved {κ : Type} [DecidableEq κ] (parent : ρ → κ) {k : κ}
    (hposition : IsPosition pk position setPosition (parent · = k)) (hparent : ∀ p row, parent (setPosition p row) = parent row)
    (hpks : Table.Unique pk table) (hplaces : Table.Unique (fun row => (parent row, position row)) table)
    (hnamed : ∀ row ∈ table, parent row = k → pk row ∈ orderedIds) :
    Table.Unique (fun row => (parent row, position row)) (table.map (moved pk setPosition (parent · = k) orderedIds)) := by
  rw [Table.Unique, List.map_map]
  refine (List.nodup_map_iff_inj_on hpks.of_map).mpr fun row hrow other hother hsame => ?_
  obtain ⟨hparents, hpositions⟩ := Prod.mk.inj hsame
  rw [moved_of_kept hparent, moved_of_kept hparent] at hparents
  by_cases hscope : parent row = k
  · have hscope' : parent other = k := hparents.symm.trans hscope
    simp only [moved, if_pos hscope, if_pos hscope', hposition.get] at hpositions
    have hindex : orderedIds.idxOf (pk row) = orderedIds.idxOf (pk other) := by omega
    have hkey : pk row = pk other := (List.idxOf_inj (hnamed row hrow hscope)).mp hindex
    exact hpks.eq hrow hother hkey
  · have hscope' : parent other ≠ k := fun hother => hscope (hparents.trans hother)
    simp only [moved, if_neg hscope, if_neg hscope'] at hpositions
    exact hplaces.eq hrow hother (Prod.ext hparents hpositions)

theorem mem_of_perm_siblings (hperm : orderedIds.Perm (siblings pk inScope table)) {row : ρ} (hrow : row ∈ table)
    (hscope : inScope row) : pk row ∈ orderedIds :=
  hperm.mem_iff.mpr (List.mem_map_of_mem (List.mem_filter.mpr ⟨hrow, by simpa using hscope⟩))

theorem idxOf_isPositiveInteger (hcount : orderedIds.length ≤ 2147483647) {id : Uuid} (hid : id ∈ orderedIds) :
    IsPositiveInteger (orderedIds.idxOf id + 1) := by
  have hlt := List.idxOf_lt_length_of_mem hid
  exact ⟨by omega, by omega⟩

end Order

theorem section_isPosition (course : Uuid) :
    IsPosition (·.pk) Section.position Section.setPosition (fun s : Section => s.courseId = course) :=
  ⟨fun _ _ => rfl, fun _ _ => rfl, fun _ _ => Iff.rfl⟩

theorem lesson_isPosition (parent : Uuid) :
    IsPosition (·.pk) Lesson.position Lesson.setPosition (fun l : Lesson => l.sectionId = parent) :=
  ⟨fun _ _ => rfl, fun _ _ => rfl, fun _ _ => Iff.rfl⟩

section Commit

variable {orderedIds : List Uuid} {rows rows' : Curriculum}

theorem reorderSections_eq_ok_iff (course : Course) (hrows : rows.Valid) :
    reorderSections course orderedIds rows = .ok rows' ↔
      orderedIds.Perm (siblings (·.pk) (fun s : Section => s.courseId = course.pk) rows.sections) ∧
        rows' = { rows with
          sections := rows.sections.map (moved (·.pk) Section.setPosition (·.courseId = course.pk) orderedIds) } := by
  simp only [reorderSections, bind_eq_ok, pure_eq_ok, applyOrder_eq_ok_iff hrows.sectionKeys]
  constructor
  · rintro ⟨_, ⟨hperm, rfl⟩, rfl⟩
    exact ⟨hperm, rfl⟩
  · rintro ⟨hperm, rfl⟩
    exact ⟨_, ⟨hperm, rfl⟩, rfl⟩

theorem reorderLessons_eq_ok_iff (parent : Section) (hrows : rows.Valid) :
    reorderLessons parent orderedIds rows = .ok rows' ↔
      orderedIds.Perm (siblings (·.pk) (fun l : Lesson => l.sectionId = parent.pk) rows.lessons) ∧
        rows' = { rows with
          lessons := rows.lessons.map (moved (·.pk) Lesson.setPosition (·.sectionId = parent.pk) orderedIds) } := by
  simp only [reorderLessons, bind_eq_ok, pure_eq_ok, applyOrder_eq_ok_iff hrows.lessonKeys]
  constructor
  · rintro ⟨_, ⟨hperm, rfl⟩, rfl⟩
    exact ⟨hperm, rfl⟩
  · rintro ⟨hperm, rfl⟩
    exact ⟨_, ⟨hperm, rfl⟩, rfl⟩

/-- The deferred constraint and the columns accept the new order of a course's sections. -/
theorem reorderSections_valid {course : Course} (hrows : rows.Valid) (hcount : orderedIds.length ≤ 2147483647)
    (h : reorderSections course orderedIds rows = .ok rows') : rows'.Valid := by
  obtain ⟨hperm, rfl⟩ := (reorderSections_eq_ok_iff course hrows).mp h
  have hkeys : (rows.sections.map (moved (·.pk) Section.setPosition (·.courseId = course.pk) orderedIds)).map (·.pk) =
      rows.sections.map (·.pk) := map_moved_of_kept fun _ _ => rfl
  have hplaces := unique_moved Section.courseId (section_isPosition course.pk) (fun _ _ => rfl) hrows.sectionKeys
    hrows.sectionPositionUniquePerCourse fun s hs hscope => mem_of_perm_siblings hperm hs hscope
  refine ⟨hrows.courseKeys, ?_, hrows.lessonKeys, ?_, ?_, hplaces, hrows.lessonSlugUniquePerCourse,
    hrows.lessonPositionUniquePerSection⟩
  · rw [Table.Unique, hkeys]
    exact hrows.sectionKeys
  · intro s' hs'
    obtain ⟨s, hs, rfl⟩ := List.mem_map.mp hs'
    by_cases hscope : s.courseId = course.pk
    · rw [moved, if_pos hscope]
      obtain ⟨hcourse, htitle, -⟩ := hrows.sections s hs
      exact ⟨hcourse, htitle, idxOf_isPositiveInteger hcount (mem_of_perm_siblings hperm hs hscope)⟩
    · rw [moved, if_neg hscope]
      exact hrows.sections s hs
  · intro l hl
    obtain ⟨hcourse, ⟨s, hs, hparent⟩, hslug, htitle, hposition⟩ := hrows.lessons l hl
    have hpk : l.sectionId ∈ (rows.sections.map (moved (·.pk) Section.setPosition (·.courseId = course.pk) orderedIds)).map
        (·.pk) := by
      rw [hkeys]
      exact List.mem_map.mpr ⟨s, hs, hparent⟩
    exact ⟨hcourse, List.mem_map.mp hpk, hslug, htitle, hposition⟩

theorem reorderLessons_valid {parent : Section} (hrows : rows.Valid) (hcount : orderedIds.length ≤ 2147483647)
    (h : reorderLessons parent orderedIds rows = .ok rows') : rows'.Valid := by
  obtain ⟨hperm, rfl⟩ := (reorderLessons_eq_ok_iff parent hrows).mp h
  have hkeys : (rows.lessons.map (moved (·.pk) Lesson.setPosition (·.sectionId = parent.pk) orderedIds)).map (·.pk) =
      rows.lessons.map (·.pk) := map_moved_of_kept fun _ _ => rfl
  have haddresses : (rows.lessons.map (moved (·.pk) Lesson.setPosition (·.sectionId = parent.pk) orderedIds)).map
      Lesson.address = rows.lessons.map Lesson.address := map_moved_of_kept fun _ _ => rfl
  have hplaces := unique_moved Lesson.sectionId (lesson_isPosition parent.pk) (fun _ _ => rfl) hrows.lessonKeys
    hrows.lessonPositionUniquePerSection fun l hl hscope => mem_of_perm_siblings hperm hl hscope
  refine ⟨hrows.courseKeys, hrows.sectionKeys, ?_, hrows.sections, ?_, hrows.sectionPositionUniquePerCourse, ?_, hplaces⟩
  · rw [Table.Unique, hkeys]
    exact hrows.lessonKeys
  · intro l' hl'
    obtain ⟨l, hl, rfl⟩ := List.mem_map.mp hl'
    by_cases hscope : l.sectionId = parent.pk
    · rw [moved, if_pos hscope]
      obtain ⟨hcourse, hparent, hslug, htitle, -⟩ := hrows.lessons l hl
      exact ⟨hcourse, hparent, hslug, htitle, idxOf_isPositiveInteger hcount (mem_of_perm_siblings hperm hl hscope)⟩
    · rw [moved, if_neg hscope]
      exact hrows.lessons l hl
  · rw [Table.Unique, haddresses]
    exact hrows.lessonSlugUniquePerCourse

end Commit

/-- What a reorder may do with these ids. Only more siblings than a position column can count would be refused after all. -/
structure PermutesOrRaises (db : Curriculum.Database) (siblings orderedIds : List Uuid) (IsReordered : Curriculum → Prop)
    (result : Except CurriculumError Curriculum) : Prop where
  returns : (∃ rows, result = .ok rows) ↔ orderedIds.Perm siblings
  reorders : ∀ rows, result = .ok rows → IsReordered rows
  commits : ∀ rows, result = .ok rows → orderedIds.length ≤ 2147483647 → (db.settle result).rows = rows
  raises : ∀ e, result = .error e → e = .invalidReorder ∧ db.settle result = db

/-- A reorder that writes the new order for a permutation and raises otherwise. -/
theorem PermutesOrRaises.of_ok_iff {db : Curriculum.Database} {siblings orderedIds : List Uuid}
    {IsReordered : Curriculum → Prop} {result : Except CurriculumError Curriculum} {written : Curriculum}
    (hok : ∀ rows, result = .ok rows ↔ orderedIds.Perm siblings ∧ rows = written)
    (hreordered : orderedIds.Perm siblings → IsReordered written)
    (hvalid : orderedIds.length ≤ 2147483647 → result = .ok written → written.Valid)
    (herror : ∀ e, result = .error e → e = .invalidReorder) : PermutesOrRaises db siblings orderedIds IsReordered result where
  returns := by simp only [hok, exists_and_left, exists_eq, and_true]
  reorders := by
    intro rows hrows
    obtain ⟨hperm, rfl⟩ := (hok rows).mp hrows
    exact hreordered hperm
  commits := by
    intro rows hrows hcount
    obtain ⟨-, rfl⟩ := (hok rows).mp hrows
    rw [hrows, Database.settle_ok (hvalid hcount hrows)]
  raises := by
    intro e he
    exact ⟨herror e he, by rw [he, Database.settle_error]⟩

theorem reorderSections_permutes (db : Curriculum.Database) (course : Course) (orderedIds : List Uuid) :
    PermutesOrRaises db (siblings (·.pk) (fun s : Section => s.courseId = course.pk) db.rows.sections) orderedIds
      (fun rows => rows = { db.rows with sections := rows.sections } ∧
        Reordered (·.pk) Section.position Section.setPosition (fun s => s.courseId = course.pk) orderedIds db.rows.sections
          rows.sections)
      (reorderSections course orderedIds db.rows) := by
  refine .of_ok_iff (fun rows => reorderSections_eq_ok_iff course db.valid) ?_ ?_ ?_
  · intro hperm
    obtain ⟨hnodup, -⟩ := (guard_iff_perm db.valid.sectionKeys).mpr hperm
    exact ⟨rfl, reordered (section_isPosition course.pk) hperm hnodup⟩
  · exact fun hcount hok => reorderSections_valid db.valid hcount hok
  · exact fun e he => applyOrder_eq_error (bind_pure_eq_error.mp he)

theorem reorderLessons_permutes (db : Curriculum.Database) (parent : Section) (orderedIds : List Uuid) :
    PermutesOrRaises db (siblings (·.pk) (fun l : Lesson => l.sectionId = parent.pk) db.rows.lessons) orderedIds
      (fun rows => rows = { db.rows with lessons := rows.lessons } ∧
        Reordered (·.pk) Lesson.position Lesson.setPosition (fun l => l.sectionId = parent.pk) orderedIds db.rows.lessons
          rows.lessons)
      (reorderLessons parent orderedIds db.rows) := by
  refine .of_ok_iff (fun rows => reorderLessons_eq_ok_iff parent db.valid) ?_ ?_ ?_
  · intro hperm
    obtain ⟨hnodup, -⟩ := (guard_iff_perm db.valid.lessonKeys).mpr hperm
    exact ⟨rfl, reordered (lesson_isPosition parent.pk) hperm hnodup⟩
  · exact fun hcount hok => reorderLessons_valid db.valid hcount hok
  · exact fun e he => applyOrder_eq_error (bind_pure_eq_error.mp he)

/-- Both reorders, of any database: they return for the permutations of the siblings' ids, put the siblings in that order,
and raise `InvalidReorder` for every other list. -/
theorem reorder_iff_perm (db : Curriculum.Database) (orderedIds : List Uuid) :
    (∀ course : Course,
      PermutesOrRaises db (siblings (·.pk) (fun s : Section => s.courseId = course.pk) db.rows.sections) orderedIds
        (fun rows => rows = { db.rows with sections := rows.sections } ∧
          Reordered (·.pk) Section.position Section.setPosition (fun s => s.courseId = course.pk) orderedIds
            db.rows.sections rows.sections)
        (reorderSections course orderedIds db.rows)) ∧
      ∀ parent : Section,
        PermutesOrRaises db (siblings (·.pk) (fun l : Lesson => l.sectionId = parent.pk) db.rows.lessons) orderedIds
          (fun rows => rows = { db.rows with lessons := rows.lessons } ∧
            Reordered (·.pk) Lesson.position Lesson.setPosition (fun l => l.sectionId = parent.pk) orderedIds
              db.rows.lessons rows.lessons)
          (reorderLessons parent orderedIds db.rows) :=
  ⟨fun course => reorderSections_permutes db course orderedIds, fun parent => reorderLessons_permutes db parent orderedIds⟩

end EPlatform.Catalog
