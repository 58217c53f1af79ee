import EPlatform.Catalog.Curriculum
import EPlatform.Learning.Progress
import EPlatform.Runs.Query
import Mathlib.Data.Prod.Lex

/-!
# What a learner sees of their courses

The selectors over the tables of a whole platform, the row of "my courses" as it goes over the wire, and what the
interface makes of it.
-/

namespace EPlatform.Learning

open Runs Runs.Query

structure Study where
  curriculum : Catalog.Curriculum
  progress : List LessonProgress
  enrollments : List Enrollment
  deriving DecidableEq, Repr

structure Study.Valid (s : Study) : Prop where
  curriculum : s.curriculum.Valid
  progress : ∀ p ∈ s.progress, p.Valid ∧ ∃ lesson ∈ s.curriculum.lessons, lesson.pk = p.lesson
  oneProgressRowPerLesson : Table.Unique LessonProgress.key s.progress
  enrollments : ∀ e ∈ s.enrollments, (∃ course ∈ s.curriculum.courses, course.pk = e.course) ∧
    ∀ pk ∈ e.lastLesson, ∃ lesson ∈ s.curriculum.lessons, lesson.pk = pk
  oneEnrollmentPerCourse : Table.Unique Enrollment.key s.enrollments

instance Study.Valid.decidable (s : Study) : Decidable s.Valid :=
  decidable_of_iff
    (s.curriculum.Valid ∧
      (∀ p ∈ s.progress, p.Valid ∧ ∃ lesson ∈ s.curriculum.lessons, lesson.pk = p.lesson) ∧
      Table.Unique LessonProgress.key s.progress ∧
      (∀ e ∈ s.enrollments, (∃ course ∈ s.curriculum.courses, course.pk = e.course) ∧
        ∀ pk ∈ e.lastLesson, ∃ lesson ∈ s.curriculum.lessons, lesson.pk = pk) ∧
      Table.Unique Enrollment.key s.enrollments)
    ⟨fun ⟨h₁, h₂, h₃, h₄, h₅⟩ => ⟨h₁, h₂, h₃, h₄, h₅⟩, fun ⟨h₁, h₂, h₃, h₄, h₅⟩ => ⟨h₁, h₂, h₃, h₄, h₅⟩⟩

abbrev Study.Database := Runs.Database Study.Valid

/-! ### Where to go next -/

/-- `_completed_lesson_ids`. -/
def completedLessonIds (progress : List LessonProgress) (user : Uuid) : List Uuid :=
  (progress.filter fun p => p.user = user ∧ p.completedAt.isSome).map (·.lesson)

/-- A lesson and the section it is ordered by. -/
abbrev Placed := Catalog.Lesson × Catalog.Section

def Study.placed (s : Study) : List Placed :=
  s.curriculum.lessons.flatMap fun lesson =>
    (s.curriculum.sections.filter fun parent => parent.pk = lesson.sectionId).map (lesson, ·)

/-- `order_by("section__position", "position")`. -/
def curriculumOrder (placed : Placed) : Int ×ₗ Int := toLex (placed.2.position, placed.1.position)

/-- A lesson of the course that the learner has not completed. -/
def Study.IsLeft (s : Study) (user course : Uuid) (placed : Placed) : Prop :=
  placed.1.courseId = course ∧ placed.1.pk ∉ completedLessonIds s.progress user

instance (s : Study) (user course : Uuid) : DecidablePred (s.IsLeft user course) :=
  fun _ => inferInstanceAs (Decidable (_ ∧ _))

/-- `next_lesson_for`. -/
def nextLessonFor (s : Study) (scan : Scan s.placed) (user course : Uuid) : Option Catalog.Lesson :=
  (first curriculumOrder (s.IsLeft user course) scan).map (·.1)

/-- `_next_lesson_id`, correlated on the enrolment's course. -/
def nextLessonId (s : Study) (scan : Scan s.placed) (user course : Uuid) : Option Uuid :=
  (first curriculumOrder (s.IsLeft user course) scan).map (·.1.pk)

/-- `_next_lesson_slug`, likewise. -/
def nextLessonSlug (s : Study) (scan : Scan s.placed) (user course : Uuid) : Option String :=
  (first curriculumOrder (s.IsLeft user course) scan).map (·.1.slug)

/-! ### Courses in progress -/

/-- The join both counts read: a course to its lessons to every learner's progress. -/
def Study.lessonsWithProgress (s : Study) (course : Uuid) : List (Option Catalog.Lesson × Option LessonProgress) :=
  (leftJoin (fun course lesson => lesson.courseId = course) course s.curriculum.lessons).flatMap fun lesson =>
    match lesson with
    | none => [(none, none)]
    | some lesson =>
      (leftJoin (fun lesson p => p.lesson = lesson.pk) lesson s.progress).map (some lesson, ·)

/-- `Q(course__lessons__progress__user=user)`. -/
def IsMine (user : Uuid) (row : Option Catalog.Lesson × Option LessonProgress) : Prop :=
  ∃ p ∈ row.2, p.user = user

def IsCompleted (user : Uuid) (row : Option Catalog.Lesson × Option LessonProgress) : Prop :=
  ∃ p ∈ row.2, p.user = user ∧ p.completedAt.isSome

instance (user : Uuid) : DecidablePred (IsMine user) := fun _ => inferInstanceAs (Decidable (∃ p ∈ _, _))

instance (user : Uuid) : DecidablePred (IsCompleted user) := fun _ => inferInstanceAs (Decidable (∃ p ∈ _, _))

/-- An enrolment with what `courses_in_progress` annotates it with. -/
structure CourseInProgress where
  enrollment : Enrollment
  course : Catalog.Course
  lastLesson : Option Catalog.Lesson
  lessonCount : Nat
  completedLessonCount : Nat
  lastActivity : Option Instant
  nextLesson : Option Uuid
  nextLessonSlug : Option String
  deriving DecidableEq, Repr

/-- How the three queries for the next lesson meet the lessons. -/
structure Scans (s : Study) where
  nextLesson : Scan s.placed
  nextLessonSlug : Scan s.placed
  nextLessonFor : Scan s.placed

def courseInProgress (s : Study) (scans : Scans s) (user : Uuid) (enrollment : Enrollment) (course : Catalog.Course) :
    CourseInProgress :=
  let rows := s.lessonsWithProgress enrollment.course
  { enrollment := enrollment
    course := course
    lastLesson := enrollment.lastLesson.bind fun pk => Table.find (·.pk) pk s.curriculum.lessons
    lessonCount := countDistinct (rows.map fun row => row.1.map (·.pk))
    completedLessonCount := countDistinct ((rows.filter (IsCompleted user)).map fun row => row.1.map (·.pk))
    lastActivity := ((rows.filter (IsMine user)).filterMap fun row => row.2.map (·.updatedAt)).max?
    nextLesson := nextLessonId s scans.nextLesson user enrollment.course
    nextLessonSlug := nextLessonSlug s scans.nextLessonSlug user enrollment.course }

def coursesInProgress (s : Study) (scans : Enrollment → Scans s) (user : Uuid) : List CourseInProgress :=
  (s.enrollments.filter fun enrollment => enrollment.user = user).flatMap fun enrollment =>
    (s.curriculum.courses.filter fun course => course.pk = enrollment.course).map
      (courseInProgress s (scans enrollment) user enrollment)

/-! ### Over the wire -/

/-- `EnrollmentSerializer`. -/
structure EnrollmentJson where
  courseSlug : String
  courseTitle : String
  lastLesson : Option Uuid
  lastLessonSlug : Option String
  nextLesson : Option Uuid
  nextLessonSlug : Option String
  completedLessonCount : Nat
  lessonCount : Nat
  lastActivity : Option Instant
  startedAt : Instant
  completedAt : Option Instant
  deriving DecidableEq, Repr

def CourseInProgress.serialize (row : CourseInProgress) : EnrollmentJson where
  courseSlug := row.course.slug
  courseTitle := row.course.title
  lastLesson := row.enrollment.lastLesson
  lastLessonSlug := row.lastLesson.map (·.slug)
  nextLesson := row.nextLesson
  nextLessonSlug := row.nextLessonSlug
  completedLessonCount := row.completedLessonCount
  lessonCount := row.lessonCount
  lastActivity := row.lastActivity
  startedAt := row.enrollment.startedAt
  completedAt := row.enrollment.completedAt

inductive ResumePoint
  | finished
  | resume (href : String) (started : Bool)
  deriving DecidableEq, Repr

def resumePoint (enrollment : EnrollmentJson) : ResumePoint :=
  match enrollment.nextLessonSlug with
  | none => .finished
  | some slug =>
    .resume ("/courses/" ++ enrollment.courseSlug ++ "/lessons/" ++ slug) enrollment.lastLessonSlug.isSome

end EPlatform.Learning
