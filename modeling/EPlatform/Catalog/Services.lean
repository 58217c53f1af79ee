import EPlatform.Catalog.Course
import EPlatform.Notifications.Reviews

/-!
# Catalogue writes

The publication state machine and the content editor. Each service acts on a `Course` its caller loaded earlier, decides
on that copy, and writes the columns its `save` names: the transitions their own, `updateCourse` all of them. A submission
and a decision also leave a notice, which waits for the commit.
-/

namespace EPlatform.Catalog

open Runs
open Notifications (Notice)

/-- Every legal move. A transition absent here cannot happen, whoever asks. -/
def ALLOWED_TRANSITIONS : List (CourseStatus × CourseStatus) :=
  [(.draft, .inReview), (.inReview, .published), (.inReview, .draft), (.published, .archived), (.archived, .draft)]

instance (move : CourseStatus × CourseStatus) : Decidable (move ∈ ALLOWED_TRANSITIONS) := inferInstance

def requireTransition (course : Course) (target : CourseStatus) : Except Error Unit :=
  require ((course.status, target) ∈ ALLOWED_TRANSITIONS) (.invalidTransition course.status target)

def requireOwner (course : Course) (actor : User) : Except Error Unit :=
  require (course.instructor = actor.pk) .notPermitted

def requireAdmin (actor : User) : Except Error Unit := require (actor.role = .admin) .notPermitted

/-! ### The content editor -/

/-- The fields an owner may edit. An omitted one is `none`. -/
structure CourseEdit where
  slug : Option String
  title : Option String
  description : Option String
  language : Option Nat
  level : Option Level
  skillAreas : Option (List String)
  deriving DecidableEq, Repr

def CourseEdit.apply (edit : CourseEdit) (course : Course) : Course :=
  { course with
    slug := edit.slug.getD course.slug
    title := edit.title.getD course.title
    description := edit.description.getD course.description
    language := edit.language.getD course.language
    level := edit.level.getD course.level
    skillAreas := edit.skillAreas.getD course.skillAreas }

/-- `Course.objects.filter(pk=...).update(search_vector=...)`, computed in the database from the stored row. -/
def refreshSearchVector (rows : Rows) : Rows :=
  { rows with
    course := { rows.course with
      searchVector := some ⟨rows.course.title, rows.course.skillAreas, rows.course.description⟩ } }

/-- `course.save()`: every column, `status` and `published_at` among them, from the copy in memory. -/
def Rows.saveCourse (rows : Rows) (course : Course) (now : Instant) : Rows :=
  { rows with course := { course with updatedAt := now } }

/-- `takenSlugs` are the slugs of the other courses. -/
def updateCourse (course : Course) (actor : User) (edit : CourseEdit) (takenSlugs : List String) (now : Instant)
    (rows : Rows) : Except Error Rows := do
  requireOwner course actor
  let course := edit.apply course
  require (course.slug ∉ takenSlugs) (.slugTaken course.slug)
  return refreshSearchVector (rows.saveCourse course now)

/-! ### The transitions -/

def Rows.addReviewEvent (rows : Rows) (actor : User) (action : ReviewEventAction) (notes : String) (now : Instant) :
    Rows :=
  { rows with
    reviewEvents := rows.reviewEvents ++ [⟨rows.course.pk, actor.pk, action, notes, now⟩] }

/-- `course.save(update_fields=["status", "updated_at"])`. -/
def Rows.saveStatus (rows : Rows) (status : CourseStatus) (now : Instant) : Rows :=
  { rows with course := { rows.course with status, updatedAt := now } }

/-- `course.save(update_fields=["status", "published_at", "updated_at"])`. -/
def Rows.savePublication (rows : Rows) (status : CourseStatus) (publishedAt : Option Instant) (now : Instant) : Rows :=
  { rows with course := { rows.course with status, publishedAt, updatedAt := now } }

/-- `instructorEmail` is `course.instructor.email`. -/
def submitForReview (course : Course) (actor : User) (instructorEmail : String) (now : Instant) (rows : Rows) :
    Except Error (Rows × Notice) := do
  requireOwner course actor
  requireTransition course .inReview
  return ((rows.saveStatus .inReview now).addReviewEvent actor .submitted "" now, .submitted course.title instructorEmail)

/-- A reviewer's decision: what an administrator hands to `approve`, `reject` and `request_changes`. -/
structure Decision where
  notes : String
  ipAddress : Option String
  deriving DecidableEq, Repr

def recordReview (course : Course) (actor : User) (action : AdminAction) (reason : String) (decision : Decision)
    (now : Instant) (rows : Rows) : Except Error Rows := do
  let entry ← (recordAdminAction actor action "course" course.pk reason decision.ipAddress
    [("course_slug", course.slug)] now).mapError .notAuditable
  return { rows with auditLog := rows.auditLog ++ [entry] }

/-- The only route to `published` in the system. -/
def approve (course : Course) (actor : User) (instructorEmail : String) (decision : Decision) (now : Instant)
    (rows : Rows) : Except Error (Rows × Notice) := do
  requireAdmin actor
  requireTransition course .published
  let rows := (rows.savePublication .published (some now) now).addReviewEvent actor .approved decision.notes now
  let rows ← recordReview course actor .courseApproved (reasonOr decision.notes "Approved with no notes recorded") decision
    now rows
  return (rows, .reviewed ⟨instructorEmail, course.title, "Approved", strip decision.notes⟩)

/-- `_AUDIT_FOR_REVIEW_ACTION`. A decision that returns a course to draft is one of these two. -/
inductive ReturnAction
  | rejected
  | changesRequested
  deriving DecidableEq, Repr

def ReturnAction.event : ReturnAction → ReviewEventAction
  | .rejected => .rejected
  | .changesRequested => .changesRequested

def ReturnAction.audit : ReturnAction → AdminAction
  | .rejected => .courseRejected
  | .changesRequested => .courseChangesRequested

/-- What the instructor reads. -/
def ReturnAction.decision : ReturnAction → String
  | .rejected => "Rejected"
  | .changesRequested => "Changes requested"

def returnToDraft (course : Course) (actor : User) (instructorEmail : String) (action : ReturnAction) (decision : Decision)
    (now : Instant) (rows : Rows) : Except Error (Rows × Notice) := do
  requireAdmin actor
  requireTransition course .draft
  let rows := (rows.savePublication .draft none now).addReviewEvent actor action.event decision.notes now
  let rows ← recordReview course actor action.audit (reasonOr decision.notes "Returned to draft with no notes recorded")
    decision now rows
  return (rows, .reviewed ⟨instructorEmail, course.title, action.decision, strip decision.notes⟩)

def reject (course : Course) (actor : User) (instructorEmail : String) (decision : Decision) (now : Instant) (rows : Rows) :
    Except Error (Rows × Notice) :=
  returnToDraft course actor instructorEmail .rejected decision now rows

def requestChanges (course : Course) (actor : User) (instructorEmail : String) (decision : Decision) (now : Instant)
    (rows : Rows) : Except Error (Rows × Notice) :=
  returnToDraft course actor instructorEmail .changesRequested decision now rows

def archive (course : Course) (actor : User) (now : Instant) (rows : Rows) : Except Error Rows := do
  requireAdmin actor
  requireTransition course .archived
  return rows.savePublication .archived none now

/-! ### What each service can do -/

theorem updateCourse_ok {course : Course} {actor : User} {edit : CourseEdit} {takenSlugs : List String}
    {now : Instant} {rows rows' : Rows} :
    updateCourse course actor edit takenSlugs now rows = .ok rows' ↔
      course.instructor = actor.pk ∧ (edit.apply course).slug ∉ takenSlugs ∧
        rows' = refreshSearchVector (rows.saveCourse (edit.apply course) now) := by
  simp only [updateCourse, requireOwner, bind_eq_ok, require_eq_ok, exists_const, pure_eq_ok]

theorem submitForReview_ok {course : Course} {actor : User} {instructorEmail : String} {now : Instant} {rows : Rows}
    {written : Rows × Notice} :
    submitForReview course actor instructorEmail now rows = .ok written ↔
      course.instructor = actor.pk ∧ (course.status, .inReview) ∈ ALLOWED_TRANSITIONS ∧
        written = ((rows.saveStatus .inReview now).addReviewEvent actor .submitted "" now,
          .submitted course.title instructorEmail) := by
  simp only [submitForReview, requireOwner, requireTransition, bind_eq_ok, require_eq_ok, exists_const, pure_eq_ok]

theorem recordReview_ok {course : Course} {actor : User} {action : AdminAction} {reason : String}
    {decision : Decision} {now : Instant} {rows rows' : Rows} :
    recordReview course actor action reason decision now rows = .ok rows' ↔
      actor.email ≠ "" ∧ strip reason ≠ "" ∧
        rows' = { rows with
          auditLog := rows.auditLog ++
            [auditEntry actor action "course" course.pk reason decision.ipAddress [("course_slug", course.slug)] now] } := by
  simp only [recordReview, bind_eq_ok, mapError_eq_ok, recordAdminAction_ok, pure_eq_ok]
  constructor
  · rintro ⟨entry, ⟨hlabel, hreason, rfl⟩, rfl⟩
    exact ⟨hlabel, hreason, rfl⟩
  · rintro ⟨hlabel, hreason, rfl⟩
    exact ⟨_, ⟨hlabel, hreason, rfl⟩, rfl⟩

theorem approve_ok {course : Course} {actor : User} {instructorEmail : String} {decision : Decision} {now : Instant}
    {rows : Rows} {written : Rows × Notice} :
    approve course actor instructorEmail decision now rows = .ok written ↔
      actor.role = .admin ∧ (course.status, .published) ∈ ALLOWED_TRANSITIONS ∧
        recordReview course actor .courseApproved (reasonOr decision.notes "Approved with no notes recorded") decision
          now ((rows.savePublication .published (some now) now).addReviewEvent actor .approved decision.notes now) =
            .ok written.1 ∧
        written.2 = .reviewed ⟨instructorEmail, course.title, "Approved", strip decision.notes⟩ := by
  obtain ⟨rows', notice⟩ := written
  simp only [approve, requireAdmin, requireTransition, bind_eq_ok, require_eq_ok, exists_const, pure_eq_ok, Prod.mk.injEq]
  constructor
  · rintro ⟨hadmin, hmove, _, hrecord, rfl, hnotice⟩
    exact ⟨hadmin, hmove, hrecord, hnotice⟩
  · rintro ⟨hadmin, hmove, hrecord, hnotice⟩
    exact ⟨hadmin, hmove, _, hrecord, rfl, hnotice⟩

theorem returnToDraft_ok {course : Course} {actor : User} {instructorEmail : String} {action : ReturnAction}
    {decision : Decision} {now : Instant} {rows : Rows} {written : Rows × Notice} :
    returnToDraft course actor instructorEmail action decision now rows = .ok written ↔
      actor.role = .admin ∧ (course.status, .draft) ∈ ALLOWED_TRANSITIONS ∧
        recordReview course actor action.audit (reasonOr decision.notes "Returned to draft with no notes recorded")
          decision now
          ((rows.savePublication .draft none now).addReviewEvent actor action.event decision.notes now) = .ok written.1 ∧
        written.2 = .reviewed ⟨instructorEmail, course.title, action.decision, strip decision.notes⟩ := by
  obtain ⟨rows', notice⟩ := written
  simp only [returnToDraft, requireAdmin, requireTransition, bind_eq_ok, require_eq_ok, exists_const, pure_eq_ok,
    Prod.mk.injEq]
  constructor
  · rintro ⟨hadmin, hmove, _, hrecord, rfl, hnotice⟩
    exact ⟨hadmin, hmove, hrecord, hnotice⟩
  · rintro ⟨hadmin, hmove, hrecord, hnotice⟩
    exact ⟨hadmin, hmove, _, hrecord, rfl, hnotice⟩

theorem archive_ok {course : Course} {actor : User} {now : Instant} {rows rows' : Rows} :
    archive course actor now rows = .ok rows' ↔
      actor.role = .admin ∧ (course.status, .archived) ∈ ALLOWED_TRANSITIONS ∧
        rows' = rows.savePublication .archived none now := by
  simp only [archive, requireAdmin, requireTransition, bind_eq_ok, require_eq_ok, exists_const, pure_eq_ok]

end EPlatform.Catalog
