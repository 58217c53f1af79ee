import EPlatform.Catalog.Selectors
import EPlatform.Catalog.Services
import EPlatform.Runs.Table

/-!
# The curriculum of a course

Sections and lessons, and the services that write them. A lesson names its course beside its section: no constraint
keeps the two together, so the services do.
-/

namespace EPlatform.Catalog

open Runs

structure Section where
  pk : Uuid
  courseId : Uuid
  title : String
  position : Int
  updatedAt : Instant
  deriving DecidableEq, Repr

structure Lesson where
  pk : Uuid
  courseId : Uuid
  sectionId : Uuid
  slug : String
  title : String
  body : String
  lessonType : LessonType
  position : Int
  isPreview : Bool
  updatedAt : Instant
  deriving DecidableEq, Repr

structure Curriculum where
  courses : List Course
  sections : List Section
  lessons : List Lesson
  deriving DecidableEq, Repr

/-! ### Constraints -/

structure Section.Valid (courses : List Course) (s : Section) : Prop where
  course : ∃ course ∈ courses, course.pk = s.courseId
  title : s.title.length ≤ 200
  position : IsPositiveInteger s.position

structure Lesson.Valid (courses : List Course) (sections : List Section) (l : Lesson) : Prop where
  course : ∃ course ∈ courses, course.pk = l.courseId
  parent : ∃ s ∈ sections, s.pk = l.sectionId
  slug : l.slug.length ≤ 140
  title : l.title.length ≤ 200
  position : IsPositiveInteger l.position

def Section.place (s : Section) : Uuid × Int := (s.courseId, s.position)

def Lesson.place (l : Lesson) : Uuid × Int := (l.sectionId, l.position)

def Lesson.address (l : Lesson) : Uuid × String := (l.courseId, l.slug)

structure Curriculum.Valid (r : Curriculum) : Prop where
  courseKeys : Table.Unique (·.pk) r.courses
  sectionKeys : Table.Unique (·.pk) r.sections
  lessonKeys : Table.Unique (·.pk) r.lessons
  sections : ∀ s ∈ r.sections, s.Valid r.courses
  lessons : ∀ l ∈ r.lessons, l.Valid r.courses r.sections
  sectionPositionUniquePerCourse : Table.Unique Section.place r.sections
  lessonSlugUniquePerCourse : Table.Unique Lesson.address r.lessons
  lessonPositionUniquePerSection : Table.Unique Lesson.place r.lessons

instance (courses : List Course) (s : Section) : Decidable (s.Valid courses) :=
  decidable_of_iff
    ((∃ course ∈ courses, course.pk = s.courseId) ∧ s.title.length ≤ 200 ∧ IsPositiveInteger s.position)
    ⟨fun ⟨h₁, h₂, h₃⟩ => ⟨h₁, h₂, h₃⟩, fun ⟨h₁, h₂, h₃⟩ => ⟨h₁, h₂, h₃⟩⟩

instance (courses : List Course) (sections : List Section) (l : Lesson) : Decidable (l.Valid courses sections) :=
  decidable_of_iff
    ((∃ course ∈ courses, course.pk = l.courseId) ∧ (∃ s ∈ sections, s.pk = l.sectionId) ∧ l.slug.length ≤ 140 ∧
      l.title.length ≤ 200 ∧ IsPositiveInteger l.position)
    ⟨fun ⟨h₁, h₂, h₃, h₄, h₅⟩ => ⟨h₁, h₂, h₃, h₄, h₅⟩, fun ⟨h₁, h₂, h₃, h₄, h₅⟩ => ⟨h₁, h₂, h₃, h₄, h₅⟩⟩

instance (r : Curriculum) : Decidable r.Valid :=
  decidable_of_iff
    (Table.Unique (·.pk) r.courses ∧ Table.Unique (·.pk) r.sections ∧ Table.Unique (·.pk) r.lessons ∧
      (∀ s ∈ r.sections, s.Valid r.courses) ∧ (∀ l ∈ r.lessons, l.Valid r.courses r.sections) ∧
      Table.Unique Section.place r.sections ∧ Table.Unique Lesson.address r.lessons ∧
      Table.Unique Lesson.place r.lessons)
    ⟨fun ⟨h₁, h₂, h₃, h₄, h₅, h₆, h₇, h₈⟩ => ⟨h₁, h₂, h₃, h₄, h₅, h₆, h₇, h₈⟩,
      fun ⟨h₁, h₂, h₃, h₄, h₅, h₆, h₇, h₈⟩ => ⟨h₁, h₂, h₃, h₄, h₅, h₆, h₇, h₈⟩⟩

abbrev Curriculum.Database := Runs.Database Curriculum.Valid

inductive CurriculumError
  | notPermitted
  | invalidReorder
  | noSuchRow
  deriving DecidableEq, Repr

/-- `_require_owner`, and that what the caller names hangs off the course. -/
def requireOwnerOf (course : Course) (actor : User) : Except CurriculumError Unit :=
  (requireOwner course actor).mapError fun _ => .notPermitted

/-! ### Sections -/

def createSection (pk : Uuid) (course : Course) (actor : User) (title : String) (position : Int) (now : Instant)
    (rows : Curriculum) : Except CurriculumError Curriculum := do
  requireOwnerOf course actor
  return { rows with sections := rows.sections ++ [⟨pk, course.pk, title, position, now⟩] }

/-- What an owner may change of a section. An omitted field is `none`. -/
structure SectionEdit where
  title : Option String
  position : Option Int
  deriving DecidableEq, Repr

def SectionEdit.apply (edit : SectionEdit) (s : Section) : Section :=
  { s with title := edit.title.getD s.title, position := edit.position.getD s.position }

/-- `section.save()`: every column, from the copy in memory. No row is ever deleted under it. -/
def Curriculum.saveSection (rows : Curriculum) (s : Section) (now : Instant) : Curriculum :=
  { rows with sections := Table.save (·.pk) { s with updatedAt := now } rows.sections }

def updateSection (s : Section) (course : Course) (actor : User) (edit : SectionEdit) (now : Instant)
    (rows : Curriculum) : Except CurriculumError Curriculum := do
  requireOwnerOf course actor
  require (s.courseId = course.pk) .notPermitted
  return rows.saveSection (edit.apply s) now

/-! ### Lessons -/

/-- What a new lesson is given. `body` and `lesson_type` have defaults. -/
structure NewLesson where
  slug : String
  title : String
  position : Int
  body : Option String
  lessonType : Option LessonType
  deriving DecidableEq, Repr

def createLesson (pk : Uuid) (course : Course) (parent : Section) (actor : User) (new : NewLesson) (now : Instant)
    (rows : Curriculum) : Except CurriculumError Curriculum := do
  requireOwnerOf course actor
  require (parent.courseId = course.pk) .notPermitted
  return { rows with
    lessons := rows.lessons ++
      [{ pk
         courseId := course.pk
         sectionId := parent.pk
         slug := new.slug
         title := new.title
         body := new.body.getD ""
         lessonType := new.lessonType.getD .video
         position := new.position
         isPreview := false
         updatedAt := now }] }

/-- What an owner may change of a lesson. An omitted field is `none`. -/
structure LessonEdit where
  parent : Option Section
  slug : Option String
  title : Option String
  position : Option Int
  body : Option String
  lessonType : Option LessonType
  deriving DecidableEq, Repr

def LessonEdit.apply (edit : LessonEdit) (l : Lesson) : Lesson :=
  { l with
    sectionId := (edit.parent.map (·.pk)).getD l.sectionId
    slug := edit.slug.getD l.slug
    title := edit.title.getD l.title
    position := edit.position.getD l.position
    body := edit.body.getD l.body
    lessonType := edit.lessonType.getD l.lessonType }

/-- `lesson.save()`. -/
def Curriculum.saveLesson (rows : Curriculum) (l : Lesson) (now : Instant) : Curriculum :=
  { rows with lessons := Table.save (·.pk) { l with updatedAt := now } rows.lessons }

def updateLesson (l : Lesson) (course : Course) (actor : User) (edit : LessonEdit) (now : Instant)
    (rows : Curriculum) : Except CurriculumError Curriculum := do
  requireOwnerOf course actor
  require (l.courseId = course.pk) .notPermitted
  require (∀ parent ∈ edit.parent, parent.courseId = course.pk) .notPermitted
  return rows.saveLesson (edit.apply l) now

/-! ### Reordering -/

/-- `_apply_order` on the rows in scope: rewrite every position to match the ids, or change nothing. The rows are read
under their locks, so they are the stored ones. -/
def applyOrder {ρ : Type} (pk : ρ → Uuid) (setPosition : Int → ρ → ρ) (inScope : ρ → Prop) [DecidablePred inScope]
    (orderedIds : List Uuid) (table : List ρ) : Except CurriculumError (List ρ) := do
  let rows := (table.filter fun row => inScope row).map pk
  require (orderedIds.Nodup ∧ (∀ id ∈ orderedIds, id ∈ rows) ∧ ∀ id ∈ rows, id ∈ orderedIds) .invalidReorder
  return table.map fun row => if inScope row then setPosition (orderedIds.idxOf (pk row) + 1) row else row

def Section.setPosition (position : Int) (s : Section) : Section := { s with position }

def Lesson.setPosition (position : Int) (l : Lesson) : Lesson := { l with position }

def reorderSections (course : Course) (orderedIds : List Uuid) (rows : Curriculum) :
    Except CurriculumError Curriculum := do
  let sections ← applyOrder (·.pk) Section.setPosition (·.courseId = course.pk) orderedIds rows.sections
  return { rows with sections }

def reorderLessons (parent : Section) (orderedIds : List Uuid) (rows : Curriculum) :
    Except CurriculumError Curriculum := do
  let lessons ← applyOrder (·.pk) Lesson.setPosition (·.sectionId = parent.pk) orderedIds rows.lessons
  return { rows with lessons }

/-! ### What each service can do -/

@[simp] theorem requireOwnerOf_ok {course : Course} {actor : User} {u : Unit} :
    requireOwnerOf course actor = .ok u ↔ course.instructor = actor.pk := by
  simp only [requireOwnerOf, requireOwner, mapError_eq_ok, require_eq_ok]

theorem createSection_ok {pk : Uuid} {course : Course} {actor : User} {title : String} {position : Int} {now : Instant}
    {rows rows' : Curriculum} :
    createSection pk course actor title position now rows = .ok rows' ↔
      course.instructor = actor.pk ∧
        rows' = { rows with sections := rows.sections ++ [⟨pk, course.pk, title, position, now⟩] } := by
  simp only [createSection, bind_eq_ok, requireOwnerOf_ok, exists_const, pure_eq_ok]

theorem updateSection_ok {s : Section} {course : Course} {actor : User} {edit : SectionEdit} {now : Instant}
    {rows rows' : Curriculum} :
    updateSection s course actor edit now rows = .ok rows' ↔
      course.instructor = actor.pk ∧ s.courseId = course.pk ∧ rows' = rows.saveSection (edit.apply s) now := by
  simp only [updateSection, bind_eq_ok, requireOwnerOf_ok, require_eq_ok, exists_const, pure_eq_ok]

/-- The tables can hold the section in the place of its row. -/
def SectionFits (rows : Curriculum) (s : Section) : Prop :=
  s.Valid rows.courses ∧ ∀ other ∈ rows.sections, other.pk ≠ s.pk → other.place ≠ s.place

instance (rows : Curriculum) (s : Section) : Decidable (SectionFits rows s) := inferInstanceAs (Decidable (_ ∧ _))

def LessonFits (rows : Curriculum) (l : Lesson) : Prop :=
  l.Valid rows.courses rows.sections ∧ (∀ other ∈ rows.lessons, other.pk ≠ l.pk → other.address ≠ l.address) ∧
    ∀ other ∈ rows.lessons, other.pk ≠ l.pk → other.place ≠ l.place

instance (rows : Curriculum) (l : Lesson) : Decidable (LessonFits rows l) := inferInstanceAs (Decidable (_ ∧ _ ∧ _))

theorem Lesson.Valid.of_keys {courses : List Course} {sections sections' : List Section} {l : Lesson}
    (h : l.Valid courses sections) (hkeys : sections'.map (·.pk) = sections.map (·.pk)) : l.Valid courses sections' := by
  refine ⟨h.course, ?_, h.slug, h.title, h.position⟩
  have hparent : l.sectionId ∈ sections.map (·.pk) := by simpa using h.parent
  rw [← hkeys] at hparent
  simpa using hparent

/-- Saving a section over its row leaves valid rows exactly when it fits. -/
theorem saveSection_valid {rows : Curriculum} {s : Section} (now : Instant) (hrows : rows.Valid)
    (hexists : ∃ row ∈ rows.sections, row.pk = s.pk) : (rows.saveSection s now).Valid ↔ SectionFits rows s := by
  have hplaces : Table.Unique Section.place (rows.saveSection s now).sections ↔
      ∀ other ∈ rows.sections, other.pk ≠ s.pk → other.place ≠ s.place :=
    Table.unique_save_iff hrows.sectionKeys hrows.sectionPositionUniquePerCourse hexists
  constructor
  · intro h
    obtain ⟨row, hrow, hpk⟩ := hexists
    have hsaved := h.sections _ (Table.mem_save.mpr (.inr ⟨rfl, row, hrow, hpk⟩))
    exact ⟨⟨hsaved.course, hsaved.title, hsaved.position⟩, hplaces.mp h.sectionPositionUniquePerCourse⟩
  · intro ⟨hvalid, hfree⟩
    refine ⟨hrows.courseKeys, Table.unique_save.mpr hrows.sectionKeys, hrows.lessonKeys, ?_, ?_, hplaces.mpr hfree,
      hrows.lessonSlugUniquePerCourse, hrows.lessonPositionUniquePerSection⟩
    · intro saved hsaved
      rcases Table.mem_save.mp hsaved with ⟨hold, -⟩ | ⟨rfl, -⟩
      · exact hrows.sections saved hold
      · exact ⟨hvalid.course, hvalid.title, hvalid.position⟩
    · exact fun l hl => (hrows.lessons l hl).of_keys Table.map_key_save

theorem saveLesson_valid {rows : Curriculum} {l : Lesson} (now : Instant) (hrows : rows.Valid)
    (hexists : ∃ row ∈ rows.lessons, row.pk = l.pk) : (rows.saveLesson l now).Valid ↔ LessonFits rows l := by
  have haddresses : Table.Unique Lesson.address (rows.saveLesson l now).lessons ↔
      ∀ other ∈ rows.lessons, other.pk ≠ l.pk → other.address ≠ l.address :=
    Table.unique_save_iff hrows.lessonKeys hrows.lessonSlugUniquePerCourse hexists
  have hplaces : Table.Unique Lesson.place (rows.saveLesson l now).lessons ↔
      ∀ other ∈ rows.lessons, other.pk ≠ l.pk → other.place ≠ l.place :=
    Table.unique_save_iff hrows.lessonKeys hrows.lessonPositionUniquePerSection hexists
  constructor
  · intro h
    obtain ⟨row, hrow, hpk⟩ := hexists
    have hsaved := h.lessons _ (Table.mem_save.mpr (.inr ⟨rfl, row, hrow, hpk⟩))
    exact ⟨⟨hsaved.course, hsaved.parent, hsaved.slug, hsaved.title, hsaved.position⟩,
      haddresses.mp h.lessonSlugUniquePerCourse, hplaces.mp h.lessonPositionUniquePerSection⟩
  · intro ⟨hvalid, hslug, hfree⟩
    refine ⟨hrows.courseKeys, hrows.sectionKeys, Table.unique_save.mpr hrows.lessonKeys, hrows.sections, ?_,
      hrows.sectionPositionUniquePerCourse, haddresses.mpr hslug, hplaces.mpr hfree⟩
    intro saved hsaved
    rcases Table.mem_save.mp hsaved with ⟨hold, -⟩ | ⟨rfl, -⟩
    · exact hrows.lessons saved hold
    · exact ⟨hvalid.course, hvalid.parent, hvalid.slug, hvalid.title, hvalid.position⟩

theorem createLesson_ok {pk : Uuid} {course : Course} {parent : Section} {actor : User} {new : NewLesson}
    {now : Instant} {rows rows' : Curriculum} (h : createLesson pk course parent actor new now rows = .ok rows') :
    course.instructor = actor.pk ∧ parent.courseId = course.pk ∧ ∃ l : Lesson,
      l.courseId = course.pk ∧ l.sectionId = parent.pk ∧ l.isPreview = false ∧
        rows' = { rows with lessons := rows.lessons ++ [l] } := by
  simp only [createLesson, bind_eq_ok, requireOwnerOf_ok, require_eq_ok, exists_const, pure_eq_ok] at h
  obtain ⟨howner, hparent, rfl⟩ := h
  exact ⟨howner, hparent, _, rfl, rfl, rfl, rfl⟩

theorem updateLesson_ok {l : Lesson} {course : Course} {actor : User} {edit : LessonEdit} {now : Instant}
    {rows rows' : Curriculum} :
    updateLesson l course actor edit now rows = .ok rows' ↔
      course.instructor = actor.pk ∧ l.courseId = course.pk ∧ (∀ parent ∈ edit.parent, parent.courseId = course.pk) ∧
        rows' = rows.saveLesson (edit.apply l) now := by
  simp only [updateLesson, bind_eq_ok, requireOwnerOf_ok, require_eq_ok, exists_const, pure_eq_ok]

/-- A reorder that returns has rewritten the positions of the rows in scope, each of them one it names. -/
theorem applyOrder_ok {ρ : Type} {pk : ρ → Uuid} {setPosition : Int → ρ → ρ} {inScope : ρ → Prop}
    [DecidablePred inScope] {orderedIds : List Uuid} {table table' : List ρ}
    (h : applyOrder pk setPosition inScope orderedIds table = .ok table') :
    (∀ row ∈ table, inScope row → pk row ∈ orderedIds) ∧
      table' = table.map fun row => if inScope row then setPosition (orderedIds.idxOf (pk row) + 1) row else row := by
  simp only [applyOrder, bind_eq_ok, require_eq_ok, exists_const, pure_eq_ok] at h
  obtain ⟨⟨-, -, hnamed⟩, rfl⟩ := h
  refine ⟨fun row hrow hscope => ?_, rfl⟩
  exact hnamed _ (List.mem_map_of_mem (List.mem_filter.mpr ⟨hrow, by simpa using hscope⟩))

theorem reorderSections_ok {course : Course} {orderedIds : List Uuid} {rows rows' : Curriculum}
    (h : reorderSections course orderedIds rows = .ok rows') :
    ∃ sections, applyOrder (·.pk) Section.setPosition (·.courseId = course.pk) orderedIds rows.sections = .ok sections ∧
      rows' = { rows with sections } := by
  simpa only [reorderSections, bind_eq_ok, pure_eq_ok] using h

theorem reorderLessons_ok {parent : Section} {orderedIds : List Uuid} {rows rows' : Curriculum}
    (h : reorderLessons parent orderedIds rows = .ok rows') :
    ∃ lessons, applyOrder (·.pk) Lesson.setPosition (·.sectionId = parent.pk) orderedIds rows.lessons = .ok lessons ∧
      rows' = { rows with lessons } := by
  simpa only [reorderLessons, bind_eq_ok, pure_eq_ok] using h

end EPlatform.Catalog
