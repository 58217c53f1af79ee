import EPlatform.Catalog.Curriculum
import EPlatform.Runs.Run

/-!
# A curriculum stays inside its course

Any callers, one after the other, with any course, section and lesson in hand. Reorders come through their views, which
look the course up among the caller's own and the section up in it.
-/

namespace EPlatform.Catalog

open Runs

/-- What may be changed of a lesson, with the section it is moved to named by its key. -/
structure LessonChange where
  parent : Option Uuid
  slug : Option String
  title : Option String
  position : Option Int
  body : Option String
  lessonType : Option LessonType
  deriving DecidableEq, Repr

/-- Every call names a course and is made by somebody. -/
inductive CurriculumCall
  | createSection (pk : Uuid) (title : String) (position : Int)
  | updateSection (pk : Uuid) (edit : SectionEdit)
  | createLesson (pk parent : Uuid) (new : NewLesson)
  | updateLesson (pk : Uuid) (change : LessonChange)
  | reorderSections (orderedIds : List Uuid)
  | reorderLessons (parent : Uuid) (orderedIds : List Uuid)
  deriving DecidableEq, Repr

structure CurriculumRequest where
  call : CurriculumCall
  course : Uuid
  actor : User
  now : Instant
  deriving DecidableEq, Repr

def lookUp {ρ : Type} (pk : ρ → Uuid) (key : Uuid) (table : List ρ) : Except CurriculumError ρ :=
  match Table.find pk key table with
  | none => .error .noSuchRow
  | some row => .ok row

/-- `get_object_or_404(courses_for_instructor(user=...), pk=...)`. -/
def courseOf (actor : User) (pk : Uuid) (rows : Curriculum) : Except CurriculumError Course := do
  let course ← lookUp (·.pk) pk rows.courses
  require (course.instructor = actor.pk) .noSuchRow
  return course

/-- `get_object_or_404(Section.objects.filter(course=course), pk=...)`. -/
def sectionOf (course : Course) (pk : Uuid) (rows : Curriculum) : Except CurriculumError Section := do
  let parent ← lookUp (·.pk) pk rows.sections
  require (parent.courseId = course.pk) .noSuchRow
  return parent

def LessonChange.resolve (change : LessonChange) (rows : Curriculum) : Except CurriculumError LessonEdit :=
  match change.parent with
  | none => .ok ⟨none, change.slug, change.title, change.position, change.body, change.lessonType⟩
  | some pk => do
    let parent ← lookUp (·.pk) pk rows.sections
    return ⟨some parent, change.slug, change.title, change.position, change.body, change.lessonType⟩

def CurriculumRequest.transaction (rows : Curriculum) (request : CurriculumRequest) :
    Except CurriculumError Curriculum :=
  match request.call with
  | .createSection pk title position => do
    let course ← lookUp (·.pk) request.course rows.courses
    createSection pk course request.actor title position request.now rows
  | .updateSection pk edit => do
    let course ← lookUp (·.pk) request.course rows.courses
    let s ← lookUp (·.pk) pk rows.sections
    updateSection s course request.actor edit request.now rows
  | .createLesson pk parent new => do
    let course ← lookUp (·.pk) request.course rows.courses
    let parent ← lookUp (·.pk) parent rows.sections
    createLesson pk course parent request.actor new request.now rows
  | .updateLesson pk change => do
    let course ← lookUp (·.pk) request.course rows.courses
    let l ← lookUp (·.pk) pk rows.lessons
    let edit ← change.resolve rows
    updateLesson l course request.actor edit request.now rows
  | .reorderSections orderedIds => do
    let course ← courseOf request.actor request.course rows
    reorderSections course orderedIds rows
  | .reorderLessons parent orderedIds => do
    let course ← courseOf request.actor request.course rows
    let parent ← sectionOf course parent rows
    reorderLessons parent orderedIds rows

def arrange (db : Curriculum.Database) (request : CurriculumRequest) : Curriculum.Database :=
  db.settle (request.transaction db.rows)

/-! ### Inside a course -/

structure Lesson.Inside (sections : List Section) (l : Lesson) : Prop where
  course : ∀ s ∈ sections, s.pk = l.sectionId → l.courseId = s.courseId
  isPreview : l.isPreview = false

structure StaysInside (rows : Curriculum) : Prop where
  lessons : ∀ l ∈ rows.lessons, l.Inside rows.sections
  sectionPositions : Table.Unique Section.place rows.sections
  lessonPositions : Table.Unique Lesson.place rows.lessons

/-- Every section is still there, in the course it was in. -/
def KeepsCourses (before after : List Section) : Prop :=
  ∀ s ∈ before, ∃ s' ∈ after, s'.pk = s.pk ∧ s'.courseId = s.courseId

def Owns (rows : Curriculum) (actor : User) (course : Uuid) : Prop :=
  ∃ found ∈ rows.courses, found.pk = course ∧ found.instructor = actor.pk

/-! ### What a call does to the sections -/

theorem lookUp_ok {ρ : Type} {pk : ρ → Uuid} {key : Uuid} {table : List ρ} {row : ρ}
    (h : lookUp pk key table = .ok row) : row ∈ table ∧ pk row = key := by
  simp only [lookUp] at h
  split at h
  · cases h
  · rename_i hfind
    cases h
    exact Table.find_eq_some hfind

theorem courseOf_ok {actor : User} {pk : Uuid} {rows : Curriculum} {course : Course}
    (h : courseOf actor pk rows = .ok course) :
    course ∈ rows.courses ∧ course.pk = pk ∧ course.instructor = actor.pk := by
  simp only [courseOf, bind_eq_ok, require_eq_ok, exists_const, pure_eq_ok] at h
  obtain ⟨found, hfound, howner, rfl⟩ := h
  obtain ⟨hmem, hpk⟩ := lookUp_ok hfound
  exact ⟨hmem, hpk, howner⟩

theorem keepsCourses_refl (sections : List Section) : KeepsCourses sections sections :=
  fun s hs => ⟨s, hs, rfl, rfl⟩

theorem keepsCourses_append (sections : List Section) (new : Section) : KeepsCourses sections (sections ++ [new]) :=
  fun s hs => ⟨s, List.mem_append_left _ hs, rfl, rfl⟩

/-- Rows written in place under their own key and course. -/
theorem keepsCourses_map {sections : List Section} {write : Section → Section}
    (hwrite : ∀ s ∈ sections, (write s).pk = s.pk ∧ (write s).courseId = s.courseId) :
    KeepsCourses sections (sections.map write) :=
  fun s hs => ⟨write s, List.mem_map_of_mem hs, hwrite s hs⟩

/-- A lesson inside its course stays there while no section changes course and its own section is one that was there. -/
theorem Lesson.Inside.of_keepsCourses {before after : List Section} {l : Lesson} (h : l.Inside before)
    (hkeeps : KeepsCourses before after) (hunique : Table.Unique (·.pk) after)
    (hparent : ∃ s ∈ before, s.pk = l.sectionId) : l.Inside after := by
  refine ⟨fun s hs hpk => ?_, h.isPreview⟩
  obtain ⟨old, hold, holdPk⟩ := hparent
  obtain ⟨kept, hkept, hkeptPk, hcourse⟩ := hkeeps old hold
  have hsame : s = kept := hunique.eq hs hkept (hpk.trans (holdPk.symm.trans hkeptPk.symm))
  rw [hsame, hcourse]
  exact h.course old hold holdPk

/-- What a call leaves of the sections and lessons it found. -/
structure Arranges (before after : Curriculum) : Prop where
  sections : KeepsCourses before.sections after.sections
  lessons : ∀ l ∈ after.lessons, (l ∈ before.lessons ∨ l.Inside before.sections) ∧
    ∃ s ∈ before.sections, s.pk = l.sectionId

theorem Arranges.staysInside {before after : Curriculum} (h : Arranges before after) (hbefore : StaysInside before)
    (hafter : after.Valid) : StaysInside after := by
  refine ⟨fun l hl => ?_, hafter.sectionPositionUniquePerCourse, hafter.lessonPositionUniquePerSection⟩
  obtain ⟨hinside, hparent⟩ := h.lessons l hl
  have hwas : l.Inside before.sections := by
    rcases hinside with hold | hinside
    · exact hbefore.lessons l hold
    · exact hinside
  exact hwas.of_keepsCourses h.sections hafter.sectionKeys hparent

/-- Only the sections were written. -/
theorem arranges_sections {before : Curriculum} {sections : List Section} (hvalid : before.Valid)
    (h : KeepsCourses before.sections sections) : Arranges before { before with sections } where
  sections := h
  lessons := fun l hl => ⟨.inl hl, (hvalid.lessons l hl).parent⟩

/-- Only the lessons were written. -/
theorem arranges_lessons {before : Curriculum} {lessons : List Lesson}
    (h : ∀ l ∈ lessons, (l ∈ before.lessons ∨ l.Inside before.sections) ∧ ∃ s ∈ before.sections, s.pk = l.sectionId) :
    Arranges before { before with lessons } where
  sections := keepsCourses_refl before.sections
  lessons := h

theorem saveLesson_arranges {before : Curriculum} {l : Lesson} (now : Instant) (hvalid : before.Valid)
    (hinside : l.Inside before.sections) (hparent : ∃ s ∈ before.sections, s.pk = l.sectionId) :
    Arranges before (before.saveLesson l now) := by
  refine arranges_lessons fun saved hsaved => ?_
  rcases Table.mem_save.mp hsaved with ⟨hold, -⟩ | ⟨rfl, -⟩
  · exact ⟨.inl hold, (hvalid.lessons saved hold).parent⟩
  · exact ⟨.inr ⟨hinside.course, hinside.isPreview⟩, hparent⟩

theorem saveSection_arranges {before : Curriculum} {s s' : Section} (now : Instant) (hvalid : before.Valid)
    (hs : s ∈ before.sections) (hpk : s'.pk = s.pk) (hcourse : s'.courseId = s.courseId) :
    Arranges before (before.saveSection s' now) := by
  refine arranges_sections hvalid (keepsCourses_map fun old hold => ?_)
  split
  · rename_i hsame
    have holds : old = s := hvalid.sectionKeys.eq hold hs (hsame.trans hpk)
    exact ⟨hpk.trans (holds ▸ rfl), hcourse.trans (holds ▸ rfl)⟩
  · exact ⟨rfl, rfl⟩

/-- A lesson edit inside a course leaves the lesson in it: a section it is moved to belongs to the same course. -/
theorem updateLesson_inside {rows : Curriculum} (hvalid : rows.Valid) {l : Lesson} {edit : LessonEdit}
    (hinside : l.Inside rows.sections) (hmoves : ∀ parent ∈ edit.parent, parent ∈ rows.sections)
    (hcourse : ∀ parent ∈ edit.parent, parent.courseId = l.courseId) : (edit.apply l).Inside rows.sections := by
  refine ⟨?_, hinside.isPreview⟩
  cases hparent : edit.parent with
  | none =>
    intro s hs hpk
    refine hinside.course s hs ?_
    simpa [LessonEdit.apply, hparent] using hpk
  | some parent =>
    intro s hs hpk
    have hpk' : s.pk = parent.pk := by simpa [LessonEdit.apply, hparent] using hpk
    have hsame : s = parent := hvalid.sectionKeys.eq hs (hmoves parent hparent) hpk'
    rw [hsame]
    exact (hcourse parent hparent).symm

theorem updateLesson_parent {rows : Curriculum} {l : Lesson} {edit : LessonEdit}
    (hparent : ∃ s ∈ rows.sections, s.pk = l.sectionId) (hmoves : ∀ parent ∈ edit.parent, parent ∈ rows.sections) :
    ∃ s ∈ rows.sections, s.pk = (edit.apply l).sectionId := by
  cases hedit : edit.parent with
  | none => simpa [LessonEdit.apply, hedit] using hparent
  | some parent => exact ⟨parent, hmoves parent hedit, by simp [LessonEdit.apply, hedit]⟩

theorem resolve_parent {change : LessonChange} {rows : Curriculum} {edit : LessonEdit}
    (h : change.resolve rows = .ok edit) : ∀ parent ∈ edit.parent, parent ∈ rows.sections := by
  simp only [LessonChange.resolve] at h
  split at h
  · cases h
    simp
  · obtain ⟨parent, hparent, hedit⟩ := bind_eq_ok.mp h
    rw [pure_eq_ok] at hedit
    subst hedit
    simpa using (lookUp_ok hparent).1

/-- A call that returns was made by the owner of the course it names, and arranges the curriculum within it. -/
theorem transaction_arranges {rows rows' : Curriculum} {request : CurriculumRequest} (hvalid : rows.Valid)
    (hinside : StaysInside rows) (h : request.transaction rows = .ok rows') :
    Owns rows request.actor request.course ∧ Arranges rows rows' := by
  obtain ⟨call, course, actor, now⟩ := request
  cases call with
  | createSection pk title position =>
    obtain ⟨found, hfound, hcall⟩ := bind_eq_ok.mp h
    obtain ⟨hcourse, hpk⟩ := lookUp_ok hfound
    obtain ⟨howner, rfl⟩ := createSection_ok.mp hcall
    exact ⟨⟨found, hcourse, hpk, howner⟩, arranges_sections hvalid (keepsCourses_append _ _)⟩
  | updateSection pk edit =>
    obtain ⟨found, hfound, s, hs, hcall⟩ := by simpa only [CurriculumRequest.transaction, bind_eq_ok] using h
    obtain ⟨hcourse, hpk⟩ := lookUp_ok hfound
    obtain ⟨howner, -, rfl⟩ := updateSection_ok.mp hcall
    exact ⟨⟨found, hcourse, hpk, howner⟩, saveSection_arranges now hvalid (lookUp_ok hs).1 rfl rfl⟩
  | createLesson pk parent new =>
    obtain ⟨found, hfound, s, hs, hcall⟩ := by simpa only [CurriculumRequest.transaction, bind_eq_ok] using h
    obtain ⟨hcourse, hpk⟩ := lookUp_ok hfound
    obtain ⟨hparent, -⟩ := lookUp_ok hs
    obtain ⟨howner, hsame, l, hlcourse, hlparent, hpreview, rfl⟩ := createLesson_ok hcall
    refine ⟨⟨found, hcourse, hpk, howner⟩, arranges_lessons fun l' hl' => ?_⟩
    rcases List.mem_append.mp hl' with hold | hnew
    · exact ⟨.inl hold, (hvalid.lessons l' hold).parent⟩
    · obtain rfl := List.mem_singleton.mp hnew
      refine ⟨.inr ⟨fun s' hs' hpk' => ?_, hpreview⟩, s, hparent, hlparent.symm⟩
      rw [hvalid.sectionKeys.eq hs' hparent (hpk'.trans hlparent), hsame, hlcourse]
  | updateLesson pk change =>
    obtain ⟨found, hfound, l, hl, edit, hedit, hcall⟩ := by
      simpa only [CurriculumRequest.transaction, bind_eq_ok] using h
    obtain ⟨hcourse, hpk⟩ := lookUp_ok hfound
    obtain ⟨hlesson, -⟩ := lookUp_ok hl
    obtain ⟨howner, hsame, hmoved, rfl⟩ := updateLesson_ok.mp hcall
    have hmoves := resolve_parent hedit
    have hwithin := updateLesson_inside hvalid (hinside.lessons l hlesson) hmoves fun parent hparent =>
      (hmoved parent hparent).trans hsame.symm
    refine ⟨⟨found, hcourse, hpk, howner⟩, saveLesson_arranges now hvalid hwithin ?_⟩
    exact updateLesson_parent (hvalid.lessons l hlesson).parent hmoves
  | reorderSections orderedIds =>
    obtain ⟨found, hfound, hcall⟩ := bind_eq_ok.mp h
    obtain ⟨sections, happly, rfl⟩ := reorderSections_ok hcall
    obtain ⟨-, rfl⟩ := applyOrder_ok happly
    refine ⟨⟨found, courseOf_ok hfound⟩, arranges_sections hvalid (keepsCourses_map fun s _ => ?_)⟩
    split <;> exact ⟨rfl, rfl⟩
  | reorderLessons parent orderedIds =>
    obtain ⟨found, hfound, s, hs, hcall⟩ := by simpa only [CurriculumRequest.transaction, bind_eq_ok] using h
    obtain ⟨lessons, happly, rfl⟩ := reorderLessons_ok hcall
    obtain ⟨-, rfl⟩ := applyOrder_ok happly
    refine ⟨⟨found, courseOf_ok hfound⟩, arranges_lessons fun l hl => ?_⟩
    obtain ⟨old, hold, rfl⟩ := List.mem_map.mp hl
    have hwas := hinside.lessons old hold
    have hparent := (hvalid.lessons old hold).parent
    split
    · exact ⟨.inr ⟨hwas.course, hwas.isPreview⟩, hparent⟩
    · exact ⟨.inl hold, hparent⟩

/-! ### Runs -/

theorem arrange_staysInside {db : Curriculum.Database} {request : CurriculumRequest} (h : StaysInside db.rows) :
    StaysInside (arrange db request).rows :=
  Database.settle_induction h fun _ hok hvalid => (transaction_arranges db.valid h hok).2.staysInside h hvalid

/-- What one call does in a curriculum that is in order: no section changes course, and a call by somebody who does not
own the course it names changes nothing. -/
def RespectsCourses (db : Curriculum.Database) (request : CurriculumRequest) : Prop :=
  KeepsCourses db.rows.sections (arrange db request).rows.sections ∧
    (¬ Owns db.rows request.actor request.course → arrange db request = db)

theorem arrange_respectsCourses {db : Curriculum.Database} {request : CurriculumRequest} (h : StaysInside db.rows) :
    RespectsCourses db request := by
  constructor
  · have hstart := keepsCourses_refl db.rows.sections
    refine Database.settle_induction (P := fun rows : Curriculum => KeepsCourses _ rows.sections) hstart ?_
    exact fun rows hok _ => (transaction_arranges db.valid h hok).2.sections
  · intro hforeign
    cases hresult : request.transaction db.rows with
    | error e => rw [arrange, hresult, Database.settle_error]
    | ok rows => exact absurd (transaction_arranges db.valid h hresult).1 hforeign

/-- Whatever is called, in whatever order, a curriculum in order stays so, and so an empty one does; and every call
respects the courses it finds. -/
theorem throughout_staysInside_iff (db : Curriculum.Database) (run : List CurriculumRequest) :
    Throughout arrange (fun db => StaysInside db.rows) db run ∧ Along arrange RespectsCourses db run ↔
      StaysInside db.rows := by
  apply throughout_and_along_iff (I := fun db : Curriculum.Database => StaysInside db.rows)
  · exact fun db request h => arrange_staysInside h
  · exact fun db request h => arrange_respectsCourses h

/-- An empty curriculum is in order. -/
example (courses : List Course) : StaysInside ⟨courses, [], []⟩ :=
  ⟨by simp, List.nodup_nil, List.nodup_nil⟩

end EPlatform.Catalog
