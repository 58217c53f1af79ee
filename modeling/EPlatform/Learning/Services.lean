import EPlatform.Learning.Progress
import EPlatform.Runs.Transaction

/-!
# Recording what a learner has watched

The two entry points and the helpers they share. What they read outside their own tables, the resolver's decision, the
lesson's asset and the lessons there are, is part of the environment of a call.
-/

namespace EPlatform.Learning

open Runs Entitlements

structure Rows where
  progress : List LessonProgress
  enrollments : List Enrollment
  deriving DecidableEq, Repr

structure Rows.Valid (r : Rows) : Prop where
  oneProgressRowPerLesson : Table.Unique LessonProgress.key r.progress
  oneEnrollmentPerCourse : Table.Unique Enrollment.key r.enrollments
  progress : ∀ p ∈ r.progress, p.Valid

instance : DecidablePred Rows.Valid := fun r =>
  decidable_of_iff
    (Table.Unique LessonProgress.key r.progress ∧ Table.Unique Enrollment.key r.enrollments ∧
      ∀ p ∈ r.progress, p.Valid)
    ⟨fun ⟨h₁, h₂, h₃⟩ => ⟨h₁, h₂, h₃⟩, fun ⟨h₁, h₂, h₃⟩ => ⟨h₁, h₂, h₃⟩⟩

abbrev Database := Runs.Database Rows.Valid

inductive Error
  | entitlementDenied (decision : AccessDecision)
  deriving DecidableEq, Repr

structure Env where
  decision : AccessDecision
  asset : Option MediaAssets.MediaAsset
  lessons : List Lesson
  now : Instant

/-- `_bookmark`. It enrols on first contact and writes only when the bookmark moves. -/
def bookmark (user : Uuid) (lesson : Lesson) (now : Instant) (enrollments : List Enrollment) :
    Enrollment × List Enrollment :=
  match Table.find Enrollment.key (user, lesson.course) enrollments with
  | none =>
    let enrollment := Enrollment.new user lesson now
    (enrollment, enrollments ++ [enrollment])
  | some enrollment =>
    if enrollment.lastLesson = some lesson.pk then (enrollment, enrollments)
    else
      let moved := { enrollment with lastLesson := some lesson.pk, updatedAt := now }
      (moved, Table.save Enrollment.key moved enrollments)

/-- `_complete_course_if_finished`. -/
def completeCourseIfFinished (user : Uuid) (enrollment : Enrollment) (env : Env) (rows : Rows) : Rows :=
  if enrollment.completedAt.isSome then rows
  else if courseIsComplete env.lessons rows.progress user enrollment.course then
    let completed := { enrollment with completedAt := some env.now, updatedAt := env.now }
    { rows with enrollments := Table.save Enrollment.key completed rows.enrollments }
  else rows

/-- The last lines of both entry points. -/
def bookmarkAndFinish (user : Uuid) (lesson : Lesson) (justFinishedTheLesson : Bool) (env : Env) (rows : Rows) : Rows :=
  let (enrollment, enrollments) := bookmark user lesson env.now rows.enrollments
  let rows := { rows with enrollments }
  if justFinishedTheLesson then completeCourseIfFinished user enrollment env rows else rows

def recordProgress (settings : Settings) (user : Uuid) (lesson : Lesson) (heartbeat : Heartbeat) (env : Env)
    (rows : Rows) : Except Error Rows := do
  require env.decision.allowed (.entitlementDenied env.decision)
  let duration := lessonDuration env.asset
  let (progress, table) := Table.getOrCreate LessonProgress.key (.new user lesson.pk env.now) rows.progress
  let table := Table.save LessonProgress.key (progress.fold settings heartbeat duration env.now) table
  return bookmarkAndFinish user lesson (progress.finishedBy settings heartbeat duration) env
    { rows with progress := table }

def markComplete (user : Uuid) (lesson : Lesson) (env : Env) (rows : Rows) : Except Error Rows := do
  require env.decision.allowed (.entitlementDenied env.decision)
  let (progress, table) := Table.getOrCreate LessonProgress.key (.new user lesson.pk env.now) rows.progress
  let justFinishedTheLesson := progress.completedAt.isNone
  let table := if justFinishedTheLesson then Table.save LessonProgress.key (progress.mark env.now) table else table
  return bookmarkAndFinish user lesson justFinishedTheLesson env { rows with progress := table }

/-! ### What each helper can do -/

/-- No enrolment is lost, and a completion date stays. -/
def EnrollmentsKept (before after : List Enrollment) : Prop :=
  ∀ e ∈ before, ∃ e' ∈ after, e'.key = e.key ∧ ∀ t, e.completedAt = some t → e'.completedAt = some t

theorem EnrollmentsKept.refl (enrollments : List Enrollment) : EnrollmentsKept enrollments enrollments :=
  fun e he => ⟨e, he, rfl, fun _ h => h⟩

theorem EnrollmentsKept.trans {first second third : List Enrollment} (h : EnrollmentsKept first second)
    (h' : EnrollmentsKept second third) : EnrollmentsKept first third := by
  intro e he
  obtain ⟨e', he', hkey, hcompleted⟩ := h e he
  obtain ⟨e'', he'', hkey', hcompleted'⟩ := h' e' he'
  exact ⟨e'', he'', hkey'.trans hkey, fun t ht => hcompleted' t (hcompleted t ht)⟩

/-- Saving over a row whose completion date it keeps. -/
theorem enrollmentsKept_save {enrollments : List Enrollment} {saved : Enrollment}
    (h : ∀ e ∈ enrollments, e.key = saved.key → ∀ t, e.completedAt = some t → saved.completedAt = some t) :
    EnrollmentsKept enrollments (Table.save Enrollment.key saved enrollments) := by
  intro e he
  by_cases hkey : e.key = saved.key
  · exact ⟨saved, Table.mem_save.mpr (.inr ⟨rfl, e, he, hkey⟩), hkey.symm, h e he hkey⟩
  · exact ⟨e, Table.mem_save.mpr (.inl ⟨he, hkey⟩), rfl, fun _ ht => ht⟩

variable {user : Uuid} {lesson : Lesson} {now : Instant} {env : Env} {rows rows' : Rows}

/-- The bookmark is kept in a row of the table, which stays a table with a unique key. -/
theorem bookmark_spec (user : Uuid) (lesson : Lesson) (now : Instant) {enrollments : List Enrollment}
    (hunique : Table.Unique Enrollment.key enrollments) :
    Table.Unique Enrollment.key (bookmark user lesson now enrollments).2 ∧
      EnrollmentsKept enrollments (bookmark user lesson now enrollments).2 ∧
      (bookmark user lesson now enrollments).1 ∈ (bookmark user lesson now enrollments).2 := by
  unfold bookmark
  cases hfind : Table.find Enrollment.key (user, lesson.course) enrollments with
  | none =>
    refine ⟨Table.unique_append hunique (Table.find_eq_none hfind), ?_, ?_⟩
    · intro e he
      exact ⟨e, List.mem_append_left _ he, rfl, fun _ h => h⟩
    · exact List.mem_append_right _ (List.mem_singleton_self _)
  | some enrollment =>
    obtain ⟨hmem, hkey⟩ := Table.find_eq_some hfind
    dsimp only
    split
    · exact ⟨hunique, .refl enrollments, hmem⟩
    · refine ⟨Table.unique_save.mpr hunique, ?_, ?_⟩
      · apply enrollmentsKept_save
        intro e he hsame t ht
        rw [hunique.eq he hmem hsame] at ht
        exact ht
      · exact Table.mem_save.mpr (.inr ⟨rfl, enrollment, hmem, rfl⟩)

theorem completeCourseIfFinished_spec (user : Uuid) (env : Env) (rows : Rows) {enrollment : Enrollment}
    (hunique : Table.Unique Enrollment.key rows.enrollments) (hmem : enrollment ∈ rows.enrollments) :
    (completeCourseIfFinished user enrollment env rows).progress = rows.progress ∧
      Table.Unique Enrollment.key (completeCourseIfFinished user enrollment env rows).enrollments ∧
      EnrollmentsKept rows.enrollments (completeCourseIfFinished user enrollment env rows).enrollments := by
  unfold completeCourseIfFinished
  split
  · exact ⟨rfl, hunique, .refl _⟩
  · rename_i hopen
    split
    · refine ⟨rfl, Table.unique_save.mpr hunique, ?_⟩
      apply enrollmentsKept_save
      intro e he hsame t ht
      rw [hunique.eq he hmem hsame] at ht
      simp [ht] at hopen
    · exact ⟨rfl, hunique, .refl _⟩

theorem bookmarkAndFinish_spec (user : Uuid) (lesson : Lesson) (justFinishedTheLesson : Bool) (env : Env) (rows : Rows)
    (hunique : Table.Unique Enrollment.key rows.enrollments) :
    (bookmarkAndFinish user lesson justFinishedTheLesson env rows).progress = rows.progress ∧
      Table.Unique Enrollment.key (bookmarkAndFinish user lesson justFinishedTheLesson env rows).enrollments ∧
      EnrollmentsKept rows.enrollments
        (bookmarkAndFinish user lesson justFinishedTheLesson env rows).enrollments := by
  obtain ⟨hunique', hkept, hmem⟩ := bookmark_spec user lesson env.now hunique
  cases justFinishedTheLesson with
  | false => exact ⟨rfl, hunique', hkept⟩
  | true =>
    obtain ⟨hprogress, hunique'', hkept'⟩ := completeCourseIfFinished_spec user env
      { rows with enrollments := (bookmark user lesson env.now rows.enrollments).2 } hunique' hmem
    exact ⟨hprogress, hunique'', hkept.trans hkept'⟩

end EPlatform.Learning
