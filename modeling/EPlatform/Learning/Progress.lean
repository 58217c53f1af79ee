import EPlatform.MediaAssets.MediaAsset
import EPlatform.Entitlements.Resolver
import EPlatform.Runs.Table
import Mathlib.Data.Rat.Defs

/-!
# What a learner has done, as rows

One row for each learner and lesson, one for each learner and course, and what a heartbeat or a mark makes of a row.
-/

namespace EPlatform.Learning

open Runs

/-- What the services read of a lesson. -/
structure Lesson where
  pk : Uuid
  course : Uuid
  deriving DecidableEq, Repr

structure LessonProgress where
  user : Uuid
  lesson : Uuid
  lastPositionSeconds : Int
  maxPositionSeconds : Int
  watchedSeconds : Int
  completedAt : Option Instant
  updatedAt : Instant
  deriving DecidableEq, Repr

structure Enrollment where
  user : Uuid
  course : Uuid
  lastLesson : Option Uuid
  startedAt : Instant
  completedAt : Option Instant
  updatedAt : Instant
  deriving DecidableEq, Repr

def LessonProgress.key (progress : LessonProgress) : Uuid × Uuid := (progress.user, progress.lesson)

def Enrollment.key (enrollment : Enrollment) : Uuid × Uuid := (enrollment.user, enrollment.course)

structure LessonProgress.Valid (p : LessonProgress) : Prop where
  lastPositionSeconds : IsPositiveInteger p.lastPositionSeconds
  maxPositionSeconds : IsPositiveInteger p.maxPositionSeconds
  watchedSeconds : IsPositiveInteger p.watchedSeconds
  maxPositionIsAtLeastLast : p.lastPositionSeconds ≤ p.maxPositionSeconds

instance (p : LessonProgress) : Decidable p.Valid :=
  decidable_of_iff
    (IsPositiveInteger p.lastPositionSeconds ∧ IsPositiveInteger p.maxPositionSeconds ∧
      IsPositiveInteger p.watchedSeconds ∧ p.lastPositionSeconds ≤ p.maxPositionSeconds)
    ⟨fun ⟨h₁, h₂, h₃, h₄⟩ => ⟨h₁, h₂, h₃, h₄⟩, fun ⟨h₁, h₂, h₃, h₄⟩ => ⟨h₁, h₂, h₃, h₄⟩⟩

/-! ### Heartbeats and completion -/

structure Heartbeat where
  positionSeconds : Int
  watchedDeltaSeconds : Int
  deriving DecidableEq, Repr

/-- `completionMark duration` is the float product `duration * LESSON_COMPLETION_THRESHOLD`, as a number. -/
structure Settings where
  progressMaxHeartbeatSeconds : Nat
  completionMark : Int → ℚ

/-- `_lesson_duration`, from the lesson's asset. -/
def lessonDuration (asset : Option MediaAssets.MediaAsset) : Option Int := asset.bind (·.durationSeconds)

def isComplete (settings : Settings) (watchedSeconds : Int) (durationSeconds : Option Int) : Bool :=
  match durationSeconds with
  | none => false
  | some duration => duration ≠ 0 && settings.completionMark duration ≤ watchedSeconds

/-- A row with the columns' defaults. -/
def LessonProgress.new (user lesson : Uuid) (now : Instant) : LessonProgress where
  user := user
  lesson := lesson
  lastPositionSeconds := 0
  maxPositionSeconds := 0
  watchedSeconds := 0
  completedAt := none
  updatedAt := now

/-- What is added to the watched time, capped when the duration is known. -/
def accumulate (settings : Settings) (watchedSeconds delta : Int) (duration : Option Int) : Int :=
  let watched := watchedSeconds + max 0 (min delta settings.progressMaxHeartbeatSeconds)
  match duration with
  | none => watched
  | some duration => if duration = 0 then watched else min watched duration

/-- A heartbeat finishes a lesson that was not finished before. -/
def LessonProgress.finishedBy (settings : Settings) (heartbeat : Heartbeat) (duration : Option Int)
    (progress : LessonProgress) : Bool :=
  progress.completedAt.isNone &&
    isComplete settings (accumulate settings progress.watchedSeconds heartbeat.watchedDeltaSeconds duration) duration

/-- The row a heartbeat saves. -/
def LessonProgress.fold (settings : Settings) (heartbeat : Heartbeat) (duration : Option Int) (now : Instant)
    (progress : LessonProgress) : LessonProgress :=
  { progress with
    lastPositionSeconds := max 0 heartbeat.positionSeconds
    maxPositionSeconds := max progress.maxPositionSeconds (max 0 heartbeat.positionSeconds)
    watchedSeconds := accumulate settings progress.watchedSeconds heartbeat.watchedDeltaSeconds duration
    completedAt := if progress.finishedBy settings heartbeat duration then some now else progress.completedAt
    updatedAt := now }

/-- The row a mark saves. -/
def LessonProgress.mark (now : Instant) (progress : LessonProgress) : LessonProgress :=
  { progress with completedAt := some now, updatedAt := now }

def Enrollment.new (user : Uuid) (lesson : Lesson) (now : Instant) : Enrollment where
  user := user
  course := lesson.course
  lastLesson := some lesson.pk
  startedAt := now
  completedAt := none
  updatedAt := now

/-- Every lesson finished, and a course with no lessons never. The second count joins progress to lessons. -/
def courseIsComplete (lessons : List Lesson) (progress : List LessonProgress) (user course : Uuid) : Bool :=
  let total := (lessons.filter fun lesson => lesson.course = course).length
  let finished := (progress.filter fun p =>
    p.user = user ∧ p.completedAt.isSome ∧ ∃ lesson ∈ lessons, lesson.pk = p.lesson ∧ lesson.course = course).length
  total ≠ 0 && total ≤ finished

/-! ### What a row may become -/

theorem accumulate_le (settings : Settings) (watchedSeconds delta : Int) (duration : Option Int) :
    accumulate settings watchedSeconds delta duration ≤ watchedSeconds + settings.progressMaxHeartbeatSeconds := by
  unfold accumulate
  cases duration with
  | none => dsimp only; omega
  | some duration =>
    dsimp only
    split <;> omega

theorem accumulate_le_duration (settings : Settings) (watchedSeconds delta : Int) {duration : Int}
    (hduration : duration ≠ 0) : accumulate settings watchedSeconds delta (some duration) ≤ duration := by
  simp only [accumulate, if_neg hduration]
  exact Int.min_le_right _ _

theorem isComplete_iff {settings : Settings} {watchedSeconds : Int} {duration : Option Int} :
    isComplete settings watchedSeconds duration = true ↔
      ∃ seconds, duration = some seconds ∧ seconds ≠ 0 ∧ settings.completionMark seconds ≤ watchedSeconds := by
  cases duration with
  | none => simp [isComplete]
  | some seconds => simp [isComplete]

variable {settings : Settings} {heartbeat : Heartbeat} {duration : Option Int} {now : Instant}
  {progress : LessonProgress}

/-- A heartbeat never moves the date a lesson was finished. -/
theorem completedAt_fold {t : Instant} (h : progress.completedAt = some t) :
    (progress.fold settings heartbeat duration now).completedAt = some t := by
  simp [LessonProgress.fold, LessonProgress.finishedBy, h]

/-- A heartbeat that finishes a lesson found enough of it watched. -/
theorem isComplete_of_completedAt_fold (hbefore : progress.completedAt = none)
    (hafter : (progress.fold settings heartbeat duration now).completedAt ≠ none) :
    isComplete settings (progress.fold settings heartbeat duration now).watchedSeconds duration = true := by
  simp only [LessonProgress.fold, LessonProgress.finishedBy, hbefore, Option.isNone_none, Bool.true_and] at hafter ⊢
  split at hafter
  · assumption
  · exact absurd rfl hafter

end EPlatform.Learning
