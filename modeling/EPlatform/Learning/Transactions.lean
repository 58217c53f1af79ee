import EPlatform.Learning.Services
import EPlatform.Runs.ReadCommitted

/-!
# Recording progress, statement by statement

The two entry points once more, cut at every statement they send: one learner, one course with a fixed set of lessons,
and the rows of the two tables under their keys. What the services compute between two statements is what the whole
functions compute.
-/

namespace EPlatform.Learning

open Runs ReadCommitted Entitlements

/-- The learner's row of a lesson, and the enrolment in the course. -/
inductive Key
  | progress (lesson : Uuid)
  | enrollment
  deriving DecidableEq, Repr

abbrev Row : Key → Type
  | .progress _ => LessonProgress
  | .enrollment => Enrollment

/-- Whose progress this is about, and on what. -/
structure Course where
  settings : Settings
  user : Uuid
  pk : Uuid
  lessons : List Uuid

/-- Where a transaction stands: the statement it sends next, with the local variables it still needs. -/
inductive Stage
  | resolving
  | measuring
  | getting (duration : Option Int)
  | creating (duration : Option Int)
  | saving (duration : Option Int) (progress : LessonProgress)
  | bookmarking (justFinishedTheLesson : Bool)
  | enrolling (justFinishedTheLesson : Bool)
  | moving (justFinishedTheLesson : Bool) (enrollment : Enrollment)
  | counting
  | countingFinished (total : Nat)
  | completing
  | leaving

/-- A call on a lesson: a heartbeat, or a mark. -/
structure Flight where
  lesson : Uuid
  heartbeat : Option Heartbeat
  stage : Stage

def Flight.to (flight : Flight) (stage : Stage) : Flight := { flight with stage }

structure Moment where
  decision : AccessDecision
  asset : Option MediaAssets.MediaAsset
  now : Instant

def isFinished (progress : LessonProgress) : Bool := progress.completedAt.isSome

def isCompleted (enrollment : Enrollment) : Bool := enrollment.completedAt.isSome

/-- `LessonProgress.objects.filter(user=user, lesson__course_id=course_id, completed_at__isnull=False).count()`. -/
def finishedCount (lessons : List Uuid) (view : Store Row) : Nat :=
  (lessons.filter fun lesson => (view (.progress lesson)).any isFinished).length

/-- `_complete_course_if_finished` up to its first query. -/
def afterBookmark (justFinishedTheLesson : Bool) (enrollment : Enrollment) : Stage :=
  if justFinishedTheLesson && !isCompleted enrollment then .counting else .leaving

namespace Course

variable (c : Course)

/-- The statement a call sends, and the stage it comes to. -/
def send (moment : Moment) (flight : Flight) (view : Store Row) : Statement Row Flight Empty :=
  match flight.stage with
  | .resolving =>
    if moment.decision.allowed then
      .select (flight.to (if flight.heartbeat.isSome then .measuring else .getting none))
    else .rollback
  | .measuring => .select (flight.to (.getting (lessonDuration moment.asset)))
  | .getting duration =>
    match view (.progress flight.lesson) with
    | some progress => .lock (.progress flight.lesson) (flight.to (.saving duration progress))
    | none => .select (flight.to (.creating duration))
  | .creating duration =>
    -- an insert that meets the row of another call is followed by a second `get`
    match view (.progress flight.lesson) with
    | some _ => .select (flight.to (.getting duration))
    | none =>
      let progress := LessonProgress.new c.user flight.lesson moment.now
      .write (.progress flight.lesson) progress (flight.to (.saving duration progress))
  | .saving duration progress =>
    match flight.heartbeat with
    | some heartbeat =>
      let saved := progress.fold c.settings heartbeat duration moment.now
      if saved.Valid then
        .write (.progress flight.lesson) saved
          (flight.to (.bookmarking (progress.finishedBy c.settings heartbeat duration)))
      else .rollback
    | none =>
      if progress.completedAt.isNone then
        .write (.progress flight.lesson) (progress.mark moment.now) (flight.to (.bookmarking true))
      else .select (flight.to (.bookmarking false))
  | .bookmarking justFinished =>
    match view .enrollment with
    | none => .select (flight.to (.enrolling justFinished))
    | some enrollment =>
      if enrollment.lastLesson = some flight.lesson then .select (flight.to (afterBookmark justFinished enrollment))
      else .select (flight.to (.moving justFinished enrollment))
  | .enrolling justFinished =>
    match view .enrollment with
    | some _ => .rollback
    | none =>
      let enrollment := Enrollment.new c.user ⟨flight.lesson, c.pk⟩ moment.now
      .write .enrollment enrollment (flight.to (afterBookmark justFinished enrollment))
  | .moving justFinished enrollment =>
    match view .enrollment with
    | none => .select (flight.to (afterBookmark justFinished enrollment))
    | some current =>
      .write .enrollment { current with lastLesson := some flight.lesson, updatedAt := moment.now }
        (flight.to (afterBookmark justFinished enrollment))
  | .counting => .select (flight.to (if c.lessons.length = 0 then .leaving else .countingFinished c.lessons.length))
  | .countingFinished total =>
    .select (flight.to (if total ≤ finishedCount c.lessons view then .completing else .leaving))
  | .completing =>
    match view .enrollment with
    | none => .rollback
    | some current =>
      .write .enrollment { current with completedAt := some moment.now, updatedAt := moment.now } (flight.to .leaving)
  | .leaving => .commit

/-- A request is a lesson of the course, and a heartbeat unless the lesson is marked. -/
def learning : Program Row (Uuid × Option Heartbeat) Moment Flight Empty where
  start := fun (lesson, heartbeat) => if lesson ∈ c.lessons then some ⟨lesson, heartbeat, .resolving⟩ else none
  statement := c.send

end Course

end EPlatform.Learning
