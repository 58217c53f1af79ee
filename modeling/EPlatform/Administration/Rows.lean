import EPlatform.Accounts.Invitations
import EPlatform.Catalog.Services
import EPlatform.Entitlements.Resolver
import EPlatform.Notifications.Emails
import EPlatform.Runs.Blocks

/-!
# The tables of an administrative act

Everything an administrator's call reads and writes, the constraints on it, and the statements a call sends. Checks and
unique indexes are asked at each statement and foreign keys at the commit. Beyond that the database may refuse anything.
-/

namespace EPlatform.Administration

open Runs
open Accounts (Account BetaInvitation Casing)
open Catalog (Course CourseStatus CourseReviewEvent ReviewEventAction)
open Notifications (CourseReviewed EmailError OutboundEmail sendCourseReviewedEmail)

structure AccessOverride extends Entitlements.AccessOverride where
  pk : Uuid
  grantedBy : Uuid
  reason : String
  deriving DecidableEq, Repr

structure Rows where
  users : List Account
  courses : List Course
  reviewEvents : List CourseReviewEvent
  invitations : List BetaInvitation
  overrides : List AccessOverride
  auditLog : List AuditLog
  deriving DecidableEq, Repr

/-! ### Constraints -/

structure Rows.Checked (casing : Casing) (rows : Rows) : Prop where
  userKeys : Table.Unique (·.pk) rows.users
  userAddresses : Table.Unique (fun user => casing.dbLower user.email) rows.users
  courses : ∀ course ∈ rows.courses, course.Valid
  courseKeys : Table.Unique (·.pk) rows.courses
  slugs : Table.Unique (·.slug) rows.courses
  invitationKeys : Table.Unique (·.pk) rows.invitations
  invitationAddresses : Table.Unique casing.indexed rows.invitations
  expiryAfterIssue : ∀ invitation ∈ rows.invitations, invitation.createdAt < invitation.expiresAt
  consumptionIsComplete : ∀ invitation ∈ rows.invitations, invitation.consumedAt.isSome = invitation.consumedBy.isSome
  overrideKeys : Table.Unique (·.pk) rows.overrides
  overrideEndsAfterItStarts : ∀ override ∈ rows.overrides, override.startsAt < override.endsAt
  overrideRequiresAReason : ∀ override ∈ rows.overrides, override.reason ≠ ""
  auditNamesWhoActed : ∀ entry ∈ rows.auditLog, entry.actorLabel ≠ ""
  auditNamesWhatItHappenedTo : ∀ entry ∈ rows.auditLog, entry.targetType ≠ ""

instance (casing : Casing) (rows : Rows) : Decidable (rows.Checked casing) :=
  decidable_of_iff
    (Table.Unique (·.pk) rows.users ∧ Table.Unique (fun user => casing.dbLower user.email) rows.users ∧
      (∀ course ∈ rows.courses, course.Valid) ∧ Table.Unique (·.pk) rows.courses ∧ Table.Unique (·.slug) rows.courses ∧
      Table.Unique (·.pk) rows.invitations ∧ Table.Unique casing.indexed rows.invitations ∧
      (∀ invitation ∈ rows.invitations, invitation.createdAt < invitation.expiresAt) ∧
      (∀ invitation ∈ rows.invitations, invitation.consumedAt.isSome = invitation.consumedBy.isSome) ∧
      Table.Unique (·.pk) rows.overrides ∧ (∀ override ∈ rows.overrides, override.startsAt < override.endsAt) ∧
      (∀ override ∈ rows.overrides, override.reason ≠ "") ∧ (∀ entry ∈ rows.auditLog, entry.actorLabel ≠ "") ∧
      ∀ entry ∈ rows.auditLog, entry.targetType ≠ "")
    ⟨fun ⟨h₁, h₂, h₃, h₄, h₅, h₆, h₇, h₈, h₉, h₁₀, h₁₁, h₁₂, h₁₃, h₁₄⟩ =>
        ⟨h₁, h₂, h₃, h₄, h₅, h₆, h₇, h₈, h₉, h₁₀, h₁₁, h₁₂, h₁₃, h₁₄⟩,
      fun ⟨h₁, h₂, h₃, h₄, h₅, h₆, h₇, h₈, h₉, h₁₀, h₁₁, h₁₂, h₁₃, h₁₄⟩ =>
        ⟨h₁, h₂, h₃, h₄, h₅, h₆, h₇, h₈, h₉, h₁₀, h₁₁, h₁₂, h₁₃, h₁₄⟩⟩

/-- A foreign key to `users`. -/
def Rows.HasUser (rows : Rows) (pk : Uuid) : Prop := ∃ user ∈ rows.users, user.pk = pk

instance (rows : Rows) (pk : Uuid) : Decidable (rows.HasUser pk) := inferInstanceAs (Decidable (∃ user ∈ rows.users, _))

/-- The foreign keys that hold of every row. An audit row's is cleared when its actor is deleted. -/
structure Rows.Linked (rows : Rows) : Prop where
  instructors : ∀ course ∈ rows.courses, rows.HasUser course.instructor
  reviewedCourses : ∀ event ∈ rows.reviewEvents, ∃ course ∈ rows.courses, course.pk = event.course
  reviewers : ∀ event ∈ rows.reviewEvents, rows.HasUser event.actor
  consumers : ∀ invitation ∈ rows.invitations, ∀ pk ∈ invitation.consumedBy, rows.HasUser pk
  grantees : ∀ override ∈ rows.overrides, rows.HasUser override.user
  grantors : ∀ override ∈ rows.overrides, rows.HasUser override.grantedBy

instance (rows : Rows) : Decidable rows.Linked :=
  decidable_of_iff
    ((∀ course ∈ rows.courses, rows.HasUser course.instructor) ∧
      (∀ event ∈ rows.reviewEvents, ∃ course ∈ rows.courses, course.pk = event.course) ∧
      (∀ event ∈ rows.reviewEvents, rows.HasUser event.actor) ∧
      (∀ invitation ∈ rows.invitations, ∀ pk ∈ invitation.consumedBy, rows.HasUser pk) ∧
      (∀ override ∈ rows.overrides, rows.HasUser override.user) ∧
      ∀ override ∈ rows.overrides, rows.HasUser override.grantedBy)
    ⟨fun ⟨h₁, h₂, h₃, h₄, h₅, h₆⟩ => ⟨h₁, h₂, h₃, h₄, h₅, h₆⟩, fun ⟨h₁, h₂, h₃, h₄, h₅, h₆⟩ => ⟨h₁, h₂, h₃, h₄, h₅, h₆⟩⟩

abbrev Database (casing : Casing) := Runs.Database fun rows : Rows => rows.Checked casing ∧ rows.Linked

/-! ### Statements -/

/-- The statements of the calls. No call sends two of one kind. -/
inductive Statement
  | insertOverride
  | updateCourse
  | insertReviewEvent
  | selectInstructor
  | updateUser
  | selectInvitation
  | insertInvitation
  | updateInvitation
  | insertAuditLog
  | commit
  | selectRecipient
  deriving DecidableEq, Repr

inductive DatabaseError
  | integrityError
  | dataError
  | noRowsAffected
  | operationalError
  deriving DecidableEq, Repr

inductive Failure
  | database (e : DatabaseError)
  | attributeError
  | doesNotExist
  | noActor
  | notAuditable (missing : NotAuditable)
  | invalidOverride
  | catalog (e : Catalog.Error)
  | invalidRole (role : String)
  | roleUnchanged (role : String)
  | accounts (e : Accounts.Failure)
  | email (e : EmailError)
  deriving DecidableEq, Repr

/-- What one call finds: the clock, read once for all of it, a fresh key, what the database refuses of its statements,
whatever they say, and what the broker takes. -/
structure Env where
  casing : Casing
  isoformat : Instant → String
  now : Instant
  pk : Uuid
  refusal : Statement → Option DatabaseError
  takes : OutboundEmail → Bool

abbrev Call := Code Rows CourseReviewed Failure

namespace Env

variable (env : Env)

/-- The database refuses the statement, or goes on. -/
def answer (statement : Statement) : Except Failure Unit :=
  match env.refusal statement with
  | some e => .error (.database e)
  | none => .ok ()

def backend : Backend Rows CourseReviewed Failure where
  commit rows := do
    env.answer .commit
    require rows.Linked (.database .integrityError)
  perform context rows := do
    env.answer .selectRecipient
    let _ ← (sendCourseReviewedEmail env.takes rows.users context).mapError .email
    return

def atomic {α : Type} (x : Call α) : Call α := Code.atomic env.backend x

def select {α : Type} (statement : Statement) (read : Rows → α) : Call α :=
  Code.statement env.backend fun rows => do
    env.answer statement
    return (read rows, rows)

/-- A statement that writes what `f` says, over rows of which `precondition` holds. -/
def write (statement : Statement) (precondition : Rows → Except DatabaseError Unit) (f : Rows → Rows) : Call Unit :=
  Code.statement env.backend fun rows => do
    env.answer statement
    (precondition rows).mapError .database
    require ((f rows).Checked env.casing) (.database .integrityError)
    return ((), f rows)

/-! ### What answering says -/

variable {env} {rows : Rows} {registered : List CourseReviewed} {t : Connection Rows CourseReviewed}
  {statement : Statement}

theorem answer_eq_ok {u : Unit} : env.answer statement = .ok u ↔ env.refusal statement = none := by
  unfold answer
  cases env.refusal statement <;> simp

theorem select_eq_ok {α : Type} {read : Rows → α} {a : α} :
    env.select statement read ⟨rows, true, registered⟩ = (.ok a, t) ↔
      env.refusal statement = none ∧ a = read rows ∧ t = ⟨rows, true, registered⟩ := by
  simp only [select, Code.statement_eq_ok, bind_eq_ok, answer_eq_ok, exists_const, pure_eq_ok, Prod.mk.injEq]
  constructor
  · intro h
    obtain ⟨_, ⟨hanswer, ha, hrows⟩, ht⟩ := h
    rw [hrows] at ht
    exact ⟨hanswer, ha, ht⟩
  · intro h
    obtain ⟨hanswer, ha, ht⟩ := h
    exact ⟨rows, ⟨hanswer, ha, rfl⟩, ht⟩

theorem write_eq_ok {precondition : Rows → Except DatabaseError Unit} {f : Rows → Rows} {u : Unit} :
    env.write statement precondition f ⟨rows, true, registered⟩ = (.ok u, t) ↔
      env.refusal statement = none ∧ precondition rows = .ok () ∧ (f rows).Checked env.casing ∧
        t = ⟨f rows, true, registered⟩ := by
  simp only [write, Code.statement_eq_ok, bind_eq_ok, answer_eq_ok, mapError_eq_ok, require_eq_ok, exists_const,
    pure_eq_ok, Prod.mk.injEq, true_and]
  constructor
  · intro h
    obtain ⟨_, ⟨hanswer, _, hprecondition, hchecked, hrows⟩, ht⟩ := h
    rw [hrows] at ht
    exact ⟨hanswer, hprecondition, hchecked, ht⟩
  · intro h
    obtain ⟨hanswer, hprecondition, hchecked, ht⟩ := h
    exact ⟨f rows, ⟨hanswer, (), hprecondition, hchecked, rfl⟩, ht⟩

theorem commit_eq_ok : env.backend.commit rows = .ok () ↔ env.refusal .commit = none ∧ rows.Linked := by
  simp only [backend, bind_eq_ok, answer_eq_ok, exists_const, require_eq_ok]

end Env

end EPlatform.Administration
