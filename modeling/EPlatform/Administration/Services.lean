import EPlatform.Accounts.RoleChanges
import EPlatform.Administration.Rows

/-!
# Administrative acts

Seven services, statement by statement, each with the block its source puts around it. Some of them write before the
record of what they did can be refused.
-/

namespace EPlatform.Administration

open Runs
open Accounts (Account BetaInvitation betaInvitation roleText INVITATION_LIFETIME)
open Catalog (Course CourseStatus CourseReviewEvent ReviewEventAction ReturnAction)
open Notifications (CourseReviewed)

/-- A `Course` in memory. `related` is the instructor, if it was loaded with the course. -/
structure CourseObject extends Course where
  related : Option Account
  deriving DecidableEq, Repr

def ACCESS_OVERRIDE_MAX_DAYS : Int := 90

/-- `role in Role.values`, and which. -/
def roleOf (role : String) : Option Role := [Role.student, .instructor, .admin].find? (roleText · = role)

/-- What tells the three decisions apart. -/
structure Verdict where
  target : CourseStatus
  publishedAt : Option Instant
  event : ReviewEventAction
  audit : AdminAction
  noNotes : String
  decision : String
  deriving DecidableEq, Repr

def Rows.record (rows : Rows) (entry : AuditLog) : Rows := { rows with auditLog := rows.auditLog ++ [entry] }

namespace Env

variable (env : Env)

/-! ### The record -/

/-- `AuditLog.objects.create(...)`. -/
def createAuditLog (entry : AuditLog) : Call Unit :=
  env.write .insertAuditLog
    (fun rows => do
      require (entry.actorLabel.length ≤ 254) .dataError
      require (rows.HasUser entry.actor) .integrityError)
    (·.record entry)

def recordAdminAction (actor : Option Account) (action : AdminAction) (targetType : String) (targetId : Uuid)
    (reason : String) (ipAddress : Option String) (details : List (String × String)) : Call Unit :=
  match actor with
  | none => Code.lift (.error .noActor)
  | some actor => do
    let entry ← Code.lift ((EPlatform.recordAdminAction actor.toUser action targetType targetId reason ipAddress details
      env.now).mapError .notAuditable)
    env.createAuditLog entry

/-! ### Overrides -/

def newOverride (actor user : Account) (days : Int) (reason : String) : AccessOverride where
  user := user.pk
  startsAt := env.now
  endsAt := env.now + days.toNat * Entitlements.DAY
  pk := env.pk
  grantedBy := actor.pk
  reason := strip reason

/-- `AccessOverride.objects.create(...)`. `granted_by` is not nullable. -/
def createOverride (actor : Option Account) (user : Account) (days : Int) (reason : String) : Call AccessOverride :=
  match actor with
  | none =>
    Code.lift do
      env.answer .insertOverride
      .error (.database .integrityError)
  | some actor => do
    let override := env.newOverride actor user days reason
    env.write .insertOverride (fun _ => .ok ()) fun rows => { rows with overrides := rows.overrides ++ [override] }
    return override

def grantAccessOverride (actor : Option Account) (user : Account) (days : Int) (reason : String)
    (ipAddress : Option String) : Call Unit := do
  Code.lift (require (1 ≤ days ∧ days ≤ ACCESS_OVERRIDE_MAX_DAYS) .invalidOverride)
  Code.lift (require (strip reason ≠ "") .invalidOverride)
  env.atomic do
    let override ← env.createOverride actor user days reason
    env.recordAdminAction actor .accessOverrideGranted "user" user.pk reason ipAddress
      [("days", toString days), ("ends_at", env.isoformat override.endsAt), ("override_id", toString override.pk)]

/-! ### Reviews -/

def approved : Verdict where
  target := .published
  publishedAt := some env.now
  event := .approved
  audit := .courseApproved
  noNotes := "Approved with no notes recorded"
  decision := "Approved"

def returned (action : ReturnAction) : Verdict where
  target := .draft
  publishedAt := none
  event := action.event
  audit := action.audit
  noNotes := "Returned to draft with no notes recorded"
  decision := if action = .changesRequested then "Changes requested" else "Rejected"

/-- `_require_admin`. Nobody has no role to read. -/
def requireAdmin (actor : Option Account) : Except Failure Account :=
  match actor with
  | none => .error .attributeError
  | some actor => do
    (Catalog.requireAdmin actor.toUser).mapError .catalog
    return actor

/-- The row as `course.save(update_fields=["status", "published_at", "updated_at"])` leaves it. -/
def decided (verdict : Verdict) (row : Course) : Course :=
  { row with status := verdict.target, publishedAt := verdict.publishedAt, updatedAt := env.now }

def withDecision (course : CourseObject) (verdict : Verdict) (rows : Rows) : Rows :=
  { rows with courses := rows.courses.map fun row => if row.pk = course.pk then env.decided verdict row else row }

def saveCourse (course : CourseObject) (verdict : Verdict) : Call Unit :=
  env.write .updateCourse (fun rows => require (∃ row ∈ rows.courses, row.pk = course.pk) .noRowsAffected)
    (env.withDecision course verdict)

def newReviewEvent (actor : Account) (course : CourseObject) (verdict : Verdict) (notes : String) : CourseReviewEvent where
  course := course.pk
  actor := actor.pk
  action := verdict.event
  notes := notes
  createdAt := env.now

def withReviewEvent (event : CourseReviewEvent) (rows : Rows) : Rows :=
  { rows with reviewEvents := rows.reviewEvents ++ [event] }

def createReviewEvent (actor : Account) (course : CourseObject) (verdict : Verdict) (notes : String) : Call Unit :=
  env.write .insertReviewEvent (fun _ => .ok ()) (withReviewEvent (env.newReviewEvent actor course verdict notes))

/-- `course.instructor.email`. -/
def instructorEmail (course : CourseObject) : Call String :=
  match course.related with
  | some instructor => return instructor.email
  | none => do
    let found ← env.select .selectInstructor fun rows => Table.find (·.pk) course.instructor rows.users
    match found with
    | some instructor => return instructor.email
    | none => Code.lift (.error .doesNotExist)

def notifyInstructorOfReview (course : CourseObject) (decision notes : String) : Call Unit := do
  let address ← env.instructorEmail course
  Code.onCommit env.backend ⟨address, course.title, decision, strip notes⟩

/-- What `approve` and `_return_to_draft` do, each with its own verdict. -/
def review (verdict : Verdict) (actor : Option Account) (course : CourseObject) (notes : String)
    (ipAddress : Option String) : Call Unit := do
  let actor ← Code.lift (requireAdmin actor)
  Code.lift ((Catalog.requireTransition course.toCourse verdict.target).mapError .catalog)
  env.saveCourse course verdict
  env.createReviewEvent actor course verdict notes
  env.recordAdminAction (some actor) verdict.audit "course" course.pk (reasonOr notes verdict.noNotes) ipAddress
    [("course_slug", course.slug)]
  env.notifyInstructorOfReview course verdict.decision notes

def approve (actor : Option Account) (course : CourseObject) (notes : String) (ipAddress : Option String) : Call Unit :=
  env.atomic (env.review env.approved actor course notes ipAddress)

def returnToDraft (action : ReturnAction) (actor : Option Account) (course : CourseObject) (notes : String)
    (ipAddress : Option String) : Call Unit :=
  env.review (returned action) actor course notes ipAddress

def reject (actor : Option Account) (course : CourseObject) (notes : String) (ipAddress : Option String) : Call Unit :=
  env.atomic (env.returnToDraft .rejected actor course notes ipAddress)

def requestChanges (actor : Option Account) (course : CourseObject) (notes : String) (ipAddress : Option String) :
    Call Unit :=
  env.atomic (env.returnToDraft .changesRequested actor course notes ipAddress)

/-! ### Roles -/

def withRole (user : Account) (role : Role) (rows : Rows) : Rows :=
  { rows with users := rows.users.map fun row => if row.pk = user.pk then { row with role } else row }

/-- `user.save(update_fields=["role"])`. -/
def saveRole (user : Account) (role : Role) : Call Unit :=
  env.write .updateUser (fun rows => require (rows.HasUser user.pk) .noRowsAffected) (withRole user role)

def changeRole (actor : Option Account) (user : Account) (role reason : String) (ipAddress : Option String) :
    Call Unit :=
  env.atomic do
    let new ← Code.lift ((roleOf role).elim (.error (.invalidRole role)) .ok)
    let previous := user.role
    Code.lift (require (previous ≠ new) (.roleUnchanged role))
    env.saveRole user new
    env.recordAdminAction actor .roleChanged "user" user.pk reason ipAddress
      [("previous_role", roleText previous), ("new_role", role)]

/-! ### Invitations -/

/-- `_invitations_for(email).select_for_update().first()`. -/
def invitationFor (email : String) (rows : Rows) : Option BetaInvitation :=
  rows.invitations.find? (·.IsFor env.casing email)

def createInvitation (invitation : BetaInvitation) : Call Unit :=
  env.write .insertInvitation (fun _ => require (invitation.email.length ≤ 254) .dataError) fun rows =>
    { rows with invitations := rows.invitations ++ [invitation] }

/-- `save(update_fields=...)` of a row that is locked. -/
def saveInvitation (invitation : BetaInvitation) : Call Unit :=
  env.write .updateInvitation
    (fun rows => do
      require (invitation.email.length ≤ 254) .dataError
      require (∃ row ∈ rows.invitations, row.pk = invitation.pk) .noRowsAffected)
    fun rows => { rows with invitations := Table.save (·.pk) invitation rows.invitations }

/-- `except IntegrityError as error: raise InvitationIssueConflict(...) from error`. -/
def conflict : Failure → Failure
  | .database .integrityError => .accounts .invitationIssueConflict
  | e => e

/-- The invitation of the address, as it is to be recorded, and whether it was there before. -/
def admission (email : String) (expiresAt : Instant) : Option BetaInvitation → Call (BetaInvitation × Bool)
  | none => do
    let invitation := BetaInvitation.new email expiresAt ⟨env.pk, env.now⟩
    Code.mapError conflict (env.atomic (env.createInvitation invitation))
    return (invitation, false)
  | some existing => do
    Code.lift (require (existing.consumedAt = none) (.accounts .invitationAlreadyConsumed))
    let invitation := existing.reopen email expiresAt env.now
    env.saveInvitation invitation
    return (invitation, true)

def issueInvitation (actor : Option Account) (email reason : String) (ipAddress : Option String) : Call Unit :=
  env.atomic do
    let actor ← Code.lift ((Accounts.requireAdmin actor).mapError .accounts)
    let normalised := strip email
    Code.lift (require (normalised ≠ "") (.accounts .invitationNotFound))
    let expiresAt := env.now + INVITATION_LIFETIME
    let existing ← env.select .selectInvitation (env.invitationFor normalised)
    let (invitation, reopened) ← env.admission normalised expiresAt existing
    env.recordAdminAction (some actor) .betaInvitationIssued betaInvitation invitation.pk reason ipAddress
      [("invited_email", normalised), ("expires_at", env.isoformat expiresAt),
        ("reopened", if reopened then "True" else "False")]

def revokeInvitation (actor : Option Account) (email reason : String) (ipAddress : Option String) : Call Unit :=
  env.atomic do
    let actor ← Code.lift ((Accounts.requireAdmin actor).mapError .accounts)
    let found ← env.select .selectInvitation (env.invitationFor email)
    match found with
    | none => Code.lift (.error (.accounts .invitationNotFound))
    | some invitation => do
      Code.lift (require (invitation.consumedAt = none) (.accounts .invitationAlreadyConsumed))
      if invitation.revokedAt.isSome then return
      env.saveInvitation (invitation.revoke env.now)
      env.recordAdminAction (some actor) .betaInvitationRevoked betaInvitation invitation.pk reason ipAddress
        [("invited_email", invitation.email)]

/-! ### What they say by returning -/

variable {env} {rows : Rows} {registered : List CourseReviewed} {t : Connection Rows CourseReviewed} {u : Unit}

/-- What it takes to record an act. -/
structure Records (env : Env) (rows : Rows) (actor : Account) (reason : String) (entry : AuditLog) : Prop where
  label : actor.email ≠ ""
  reason : strip reason ≠ ""
  answered : env.refusal .insertAuditLog = none
  length : actor.email.length ≤ 254
  known : rows.HasUser actor.pk
  checked : (rows.record entry).Checked env.casing

theorem recordAdminAction_some_eq_ok {actor : Account} {action : AdminAction} {targetType : String} {targetId : Uuid}
    {reason : String} {ipAddress : Option String} {details : List (String × String)} :
    env.recordAdminAction (some actor) action targetType targetId reason ipAddress details ⟨rows, true, registered⟩ =
        (.ok u, t) ↔
      env.Records rows actor reason
          (auditEntry actor.toUser action targetType targetId reason ipAddress details env.now) ∧
        t = ⟨rows.record (auditEntry actor.toUser action targetType targetId reason ipAddress details env.now), true,
          registered⟩ := by
  simp only [recordAdminAction, createAuditLog, Code.bind_eq_ok, Code.lift_eq_ok, mapError_eq_ok, recordAdminAction_ok]
  constructor
  · intro h
    obtain ⟨entry, s, ⟨⟨hlabel, hreason, hentry⟩, hs⟩, hwrite⟩ := h
    subst hentry hs
    obtain ⟨hanswered, hfits, hchecked, ht⟩ := write_eq_ok.mp hwrite
    simp only [bind_eq_ok, require_eq_ok, exists_const] at hfits
    exact ⟨⟨hlabel, hreason, hanswered, hfits.1, hfits.2, hchecked⟩, ht⟩
  · intro hrecorded
    obtain ⟨h, ht⟩ := hrecorded
    refine ⟨_, _, ⟨⟨h.label, h.reason, rfl⟩, rfl⟩, write_eq_ok.mpr ⟨h.answered, ?_, h.checked, ht⟩⟩
    simp only [bind_eq_ok, require_eq_ok, exists_const]
    exact ⟨h.length, h.known⟩

/-- Nobody's act is recorded. -/
theorem recordAdminAction_eq_ok {actor : Option Account} {action : AdminAction} {targetType : String} {targetId : Uuid}
    {reason : String} {ipAddress : Option String} {details : List (String × String)}
    (h : env.recordAdminAction actor action targetType targetId reason ipAddress details ⟨rows, true, registered⟩ =
      (.ok u, t)) :
    ∃ by_, actor = some by_ ∧
      env.Records rows by_ reason (auditEntry by_.toUser action targetType targetId reason ipAddress details env.now) ∧
      t = ⟨rows.record (auditEntry by_.toUser action targetType targetId reason ipAddress details env.now), true,
        registered⟩ := by
  cases actor with
  | none => cases h
  | some actor => exact ⟨actor, rfl, recordAdminAction_some_eq_ok.mp h⟩

theorem createOverride_eq_ok {actor : Option Account} {user : Account} {days : Int} {reason : String}
    {override : AccessOverride}
    (h : env.createOverride actor user days reason ⟨rows, true, registered⟩ = (.ok override, t)) :
    ∃ grantor, actor = some grantor ∧ override = env.newOverride grantor user days reason ∧
      t = ⟨{ rows with overrides := rows.overrides ++ [override] }, true, registered⟩ := by
  cases actor with
  | none =>
    obtain ⟨hrefused, _⟩ := Code.lift_eq_ok.mp h
    simp only [bind_eq_ok] at hrefused
    obtain ⟨_, _, hraised⟩ := hrefused
    cases hraised
  | some actor =>
    simp only [createOverride, Code.bind_eq_ok, Code.pure_eq_ok] at h
    obtain ⟨_, s, hwrite, hoverride, hs⟩ := h
    obtain ⟨_, _, _, rfl⟩ := write_eq_ok.mp hwrite
    exact ⟨actor, rfl, hoverride, by rw [hs, hoverride]⟩

theorem changeRole_eq_ok {actor : Option Account} {user : Account} {role reason : String} {ipAddress : Option String}
    (h : env.changeRole actor user role reason ipAddress ⟨rows, true, registered⟩ = (.ok u, t)) :
    ∃ new by_, roleOf role = some new ∧ actor = some by_ ∧ user.role ≠ new ∧ rows.HasUser user.pk ∧
      env.Records (withRole user new rows) by_ reason
        (auditEntry by_.toUser .roleChanged "user" user.pk reason ipAddress
          [("previous_role", roleText user.role), ("new_role", role)] env.now) ∧
      t = ⟨(withRole user new rows).record
        (auditEntry by_.toUser .roleChanged "user" user.pk reason ipAddress
          [("previous_role", roleText user.role), ("new_role", role)] env.now), true, registered⟩ := by
  have hblock := Code.atomic_eq_ok.mp h
  simp only [Code.bind_eq_ok, Code.lift_eq_ok, require_eq_ok] at hblock
  obtain ⟨new, _, ⟨hrole, rfl⟩, _, _, ⟨hchanged, rfl⟩, _, _, hsave, hrecord⟩ := hblock
  obtain ⟨_, hstored, _, rfl⟩ := write_eq_ok.mp hsave
  obtain ⟨by_, rfl, hrecords, rfl⟩ := recordAdminAction_eq_ok hrecord
  refine ⟨new, by_, ?_, rfl, hchanged, require_eq_ok.mp hstored, hrecords, rfl⟩
  cases hfound : roleOf role with
  | none =>
    rw [hfound] at hrole
    cases hrole
  | some found =>
    rw [hfound] at hrole
    exact congrArg some (Except.ok.inj hrole)

/-- Whoever may let people in is somebody. -/
theorem eq_some_of_requireAdmin {actor : Option Account} {by_ : Account} (h : Accounts.requireAdmin actor = .ok by_) :
    actor = some by_ := by
  cases actor with
  | none => cases h
  | some actor =>
    simp only [Accounts.requireAdmin] at h
    split_ifs at h
    rw [Except.ok.inj h]

/-- An invitation is new, or one that was not consumed. -/
theorem admission_eq_ok {email : String} {expiresAt : Instant} {found : Option BetaInvitation}
    {admitted : BetaInvitation × Bool}
    (h : env.admission email expiresAt found ⟨rows, true, registered⟩ = (.ok admitted, t)) :
    (found = none ∧ admitted.1 = BetaInvitation.new email expiresAt ⟨env.pk, env.now⟩ ∧
      t = ⟨{ rows with invitations := rows.invitations ++ [admitted.1] }, true, registered⟩) ∨
    ∃ existing, found = some existing ∧ existing.consumedAt = none ∧
      admitted.1 = existing.reopen email expiresAt env.now ∧
      t = ⟨{ rows with invitations := Table.save (·.pk) admitted.1 rows.invitations }, true, registered⟩ := by
  cases found with
  | none =>
    simp only [admission, Code.bind_eq_ok, Code.mapError_eq_ok, Code.pure_eq_ok] at h
    obtain ⟨_, _, hcreate, hadmitted, ht⟩ := h
    obtain ⟨_, _, _, rfl⟩ := write_eq_ok.mp (Code.atomic_eq_ok.mp hcreate)
    subst hadmitted
    exact .inl ⟨rfl, rfl, ht⟩
  | some existing =>
    simp only [admission, Code.bind_eq_ok, Code.lift_eq_ok, require_eq_ok, Code.pure_eq_ok] at h
    obtain ⟨_, _, ⟨hunspent, rfl⟩, _, _, hsave, hadmitted, ht⟩ := h
    obtain ⟨_, _, _, rfl⟩ := write_eq_ok.mp hsave
    subst hadmitted
    exact .inr ⟨existing, rfl, hunspent, rfl, ht⟩

/-! ### Reviews, up to the commit -/

/-- The address that `course.instructor.email` reads. -/
def addressOf (env : Env) (rows : Rows) (course : CourseObject) : Option String :=
  match course.related with
  | some instructor => some instructor.email
  | none =>
    if env.refusal .selectInstructor = none then (Table.find (·.pk) course.instructor rows.users).map (·.email) else none

theorem instructorEmail_eq_ok {course : CourseObject} {address : String} :
    env.instructorEmail course ⟨rows, true, registered⟩ = (.ok address, t) ↔
      env.addressOf rows course = some address ∧ t = ⟨rows, true, registered⟩ := by
  unfold instructorEmail addressOf
  cases course.related with
  | some instructor =>
    rw [Option.some.injEq, eq_comm (b := address)]
    exact Code.pure_eq_ok
  | none =>
    simp only [Code.bind_eq_ok, select_eq_ok]
    constructor
    · intro h
      obtain ⟨found, s, ⟨hanswered, hfound, hs⟩, hrest⟩ := h
      subst hfound hs
      cases hfind : Table.find (·.pk) course.instructor rows.users with
      | none =>
        rw [hfind] at hrest
        cases hrest
      | some instructor =>
        rw [hfind] at hrest
        obtain ⟨haddress, ht⟩ := Code.pure_eq_ok.mp hrest
        rw [if_pos hanswered, haddress]
        exact ⟨rfl, ht⟩
    · intro h
      obtain ⟨haddress, ht⟩ := h
      split_ifs at haddress with hanswered
      obtain ⟨instructor, hfind, haddress⟩ := Option.map_eq_some_iff.mp haddress
      refine ⟨_, _, ⟨hanswered, rfl, rfl⟩, ?_⟩
      rw [hfind]
      exact Code.pure_eq_ok.mpr ⟨haddress.symm, ht⟩

theorem requireAdmin_eq_ok {actor : Option Account} {by_ : Account} :
    requireAdmin actor = .ok by_ ↔ actor = some by_ ∧ by_.role = .admin := by
  cases actor with
  | none => simp [requireAdmin]
  | some actor =>
    simp only [requireAdmin, Catalog.requireAdmin, bind_eq_ok, mapError_eq_ok, require_eq_ok, exists_const, pure_eq_ok]
    constructor
    · intro hchecked
      obtain ⟨hadmin, h⟩ := hchecked
      exact ⟨by rw [h], by rw [h, hadmin]⟩
    · intro hgiven
      obtain ⟨h, hadmin⟩ := hgiven
      obtain rfl := Option.some.inj h
      exact ⟨hadmin, rfl⟩

/-- The rows a decision leaves, but for its record. -/
def reviewed (env : Env) (verdict : Verdict) (actor : Account) (course : CourseObject) (notes : String) (rows : Rows) :
    Rows :=
  withReviewEvent (env.newReviewEvent actor course verdict notes) (env.withDecision course verdict rows)

def reviewEntry (env : Env) (verdict : Verdict) (actor : Account) (course : CourseObject) (notes : String)
    (ipAddress : Option String) : AuditLog :=
  auditEntry actor.toUser verdict.audit "course" course.pk (reasonOr notes verdict.noNotes) ipAddress
    [("course_slug", course.slug)] env.now

/-- What it takes to decide. -/
structure Decides (env : Env) (verdict : Verdict) (actor : Account) (course : CourseObject) (notes : String)
    (ipAddress : Option String) (rows : Rows) : Prop where
  admin : actor.role = .admin
  allowed : (course.status, verdict.target) ∈ Catalog.ALLOWED_TRANSITIONS
  updates : env.refusal .updateCourse = none
  stored : ∃ row ∈ rows.courses, row.pk = course.pk
  updated : (env.withDecision course verdict rows).Checked env.casing
  inserts : env.refusal .insertReviewEvent = none
  inserted : (env.reviewed verdict actor course notes rows).Checked env.casing
  records : env.Records (env.reviewed verdict actor course notes rows) actor (reasonOr notes verdict.noNotes)
    (env.reviewEntry verdict actor course notes ipAddress)

theorem review_eq_ok {verdict : Verdict} {actor : Option Account} {course : CourseObject} {notes : String}
    {ipAddress : Option String} :
    env.review verdict actor course notes ipAddress ⟨rows, true, registered⟩ = (.ok u, t) ↔
      ∃ by_ address, actor = some by_ ∧ env.Decides verdict by_ course notes ipAddress rows ∧
        env.addressOf rows course = some address ∧
        t = ⟨(env.reviewed verdict by_ course notes rows).record (env.reviewEntry verdict by_ course notes ipAddress), true,
          registered ++ [⟨address, course.title, verdict.decision, strip notes⟩]⟩ := by
  simp only [review, notifyInstructorOfReview, Code.bind_eq_ok, Code.lift_eq_ok, mapError_eq_ok, Catalog.requireTransition,
    require_eq_ok]
  constructor
  · intro h
    obtain ⟨by_, _, ⟨hactor, rfl⟩, _, _, ⟨hallowed, rfl⟩, _, _, hsave, _, _, hevent, _, _, hrecord, address, _,
      hselect, hregister⟩ := h
    obtain ⟨rfl, hadmin⟩ := requireAdmin_eq_ok.mp hactor
    obtain ⟨hupdates, hstored, hupdated, rfl⟩ := write_eq_ok.mp hsave
    obtain ⟨hinserts, _, hinserted, rfl⟩ := write_eq_ok.mp hevent
    obtain ⟨hrecords, rfl⟩ := recordAdminAction_some_eq_ok.mp hrecord
    obtain ⟨haddress, rfl⟩ := instructorEmail_eq_ok.mp hselect
    exact ⟨by_, address, rfl, ⟨hadmin, hallowed, hupdates, require_eq_ok.mp hstored, hupdated, hinserts, hinserted,
      hrecords⟩, haddress, Code.onCommit_eq_ok.mp hregister⟩
  · intro hgiven
    obtain ⟨by_, address, hactor, h, haddress, ht⟩ := hgiven
    exact ⟨by_, _, ⟨requireAdmin_eq_ok.mpr ⟨hactor, h.admin⟩, rfl⟩, (), _, ⟨h.allowed, rfl⟩, (), _,
      write_eq_ok.mpr ⟨h.updates, require_eq_ok.mpr h.stored, h.updated, rfl⟩, (), _,
      write_eq_ok.mpr ⟨h.inserts, rfl, h.inserted, rfl⟩, (), _,
      recordAdminAction_some_eq_ok.mpr ⟨h.records, rfl⟩, address, _, instructorEmail_eq_ok.mpr ⟨haddress, rfl⟩,
      Code.onCommit_eq_ok.mpr ht⟩

end Env

end EPlatform.Administration
