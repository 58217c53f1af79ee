import EPlatform.Accounts.Services
import EPlatform.Runs.ReadCommitted

/-!
# Admission, statement by statement

The services that issue and revoke an invitation, and registration under the admission policy, cut at every statement
they send. An invitation stands under what its unique index compares; an account stands under its key, and that key once
more under what the index on its address compares.
-/

namespace EPlatform.Accounts

open Runs ReadCommitted

inductive Key
  | invitation (address : String)
  | user (pk : Uuid)
  | account (address : String)
  deriving DecidableEq, Repr

abbrev Row : Key → Type
  | .invitation _ => BetaInvitation
  | .user _ => Account
  | .account _ => Uuid

/-- The arguments of an administrator's call. -/
structure Order where
  actor : Option Account
  email : String
  reason : String
  ipAddress : Option String
  deriving DecidableEq, Repr

inductive Request
  | issue (order : Order)
  | revoke (order : Order)
  | register (email password : String)
  deriving DecidableEq, Repr

def invitationAt (view : Store Row) (address : String) : Option BetaInvitation := view (.invitation address)

def saveInvitation {φ : Type} (address : String) (invitation : BetaInvitation) (next : φ) : Statement Row φ AuditLog :=
  .write (.invitation address) invitation next

/-! ### Where a transaction stands -/

inductive Issuing
  | looking
  | inserting (expiresAt : Instant)
  | reopening (expiresAt : Instant) (existing : BetaInvitation)
  | auditing (invitation : BetaInvitation) (reopened : Bool)
  | leaving
  | failing (failure : Failure)

inductive Revoking
  | looking
  | withdrawing (invitation : BetaInvitation)
  | auditing (invitation : BetaInvitation)
  | leaving
  | failing (failure : Failure)

inductive Registering
  | inserting
  | indexing (account : Account)
  | consuming (account : Account) (now : Instant)
  | explaining (account : Account)
  | reading (account : Account)
  | auditing (account : Account) (invitation : BetaInvitation)
  | leaving
  | failing (failure : Failure)

/-- The call, with its arguments, and the statement it sends next. -/
inductive Stage
  | issuing (actor : Account) (order : Order) (stage : Issuing)
  | revoking (actor : Account) (order : Order) (stage : Revoking)
  | registering (email password : String) (stage : Registering)

/-- A fresh key, and the clock. -/
structure Moment where
  pk : Uuid
  now : Instant

def requireAdmin (actor : Option Account) : Except Failure Account :=
  match actor with
  | none => .error .notPermitted
  | some actor => if actor.isActive && isPlatformAdministrator actor.toUser then .ok actor else .error .notPermitted

/-- What a call checks before it sends anything. -/
def Request.start : Request → Except Failure Stage
  | .issue order => do
    let actor ← requireAdmin order.actor
    require (strip order.email ≠ "") .invitationNotFound
    return .issuing actor order .looking
  | .revoke order => do
    let actor ← requireAdmin order.actor
    return .revoking actor order .looking
  | .register email password => do
    require (email ≠ "") .valueError
    return .registering email password .inserting

def INVITATION_LIFETIME : Nat := 30 * 24 * 60 * 60 * 1000000

def BetaInvitation.new (email : String) (expiresAt : Instant) (moment : Moment) : BetaInvitation where
  pk := moment.pk
  email := email
  createdAt := moment.now
  updatedAt := moment.now
  expiresAt := expiresAt
  revokedAt := none
  consumedAt := none
  consumedBy := none

def BetaInvitation.reopen (email : String) (expiresAt now : Instant) (invitation : BetaInvitation) : BetaInvitation :=
  { invitation with email, expiresAt, revokedAt := none, updatedAt := now }

def BetaInvitation.revoke (now : Instant) (invitation : BetaInvitation) : BetaInvitation :=
  { invitation with revokedAt := some now, updatedAt := now }

theorem indexed_revoke {casing : Casing} (now : Instant) (invitation : BetaInvitation) :
    casing.indexed (invitation.revoke now) = casing.indexed invitation := rfl

/-- `isoformat` writes an instant out for the trail. -/
structure Beta where
  casing : Casing
  makePassword : String → String
  isoformat : Instant → String

namespace Beta

variable (beta : Beta)

/-- The account a registration asks for. -/
def account (email password : String) (pk : Uuid) : Account :=
  Account.new beta.casing beta.makePassword email password pk

/-- What `_invitations_for` looks for in the index. -/
def sought (email : String) : String := beta.casing.lower (strip email)

def auditIssue (actor : Account) (order : Order) (invitation : BetaInvitation) (reopened : Bool) (now : Instant) :
    Except NotAuditable AuditLog :=
  recordAdminAction actor.toUser .betaInvitationIssued betaInvitation invitation.pk order.reason order.ipAddress
    [("invited_email", strip order.email), ("expires_at", beta.isoformat invitation.expiresAt),
      ("reopened", if reopened then "True" else "False")] now

def auditRevocation (actor : Account) (order : Order) (invitation : BetaInvitation) (now : Instant) :
    Except NotAuditable AuditLog :=
  recordAdminAction actor.toUser .betaInvitationRevoked betaInvitation invitation.pk order.reason order.ipAddress
    [("invited_email", invitation.email)] now

/-! ### The statements -/

/-- Recording is the last statement; what cannot be recorded fails. -/
def record {φ : Type} (audit : Except NotAuditable AuditLog) (leaving : φ) (failing : Failure → φ) :
    Statement Row φ AuditLog :=
  match audit with
  | .ok entry => .append entry leaving
  | .error missing => .select (failing (.notAuditable missing))

def issueInvitation (moment : Moment) (actor : Account) (order : Order) (view : Store Row) :
    Issuing → Statement Row Issuing AuditLog
  | .looking =>
    let expiresAt := moment.now + INVITATION_LIFETIME
    match invitationAt view (beta.sought (strip order.email)) with
    | none => .select (.inserting expiresAt)
    | some existing =>
      .lock (.invitation (beta.sought (strip order.email)))
        (if existing.consumedAt.isSome then .failing .invitationAlreadyConsumed else .reopening expiresAt existing)
  | .inserting expiresAt =>
    let invitation := BetaInvitation.new (strip order.email) expiresAt moment
    if 254 < invitation.email.length then .select (.failing .dataError)
    else if invitation.createdAt < invitation.expiresAt ∧ (invitationAt view (beta.casing.indexed invitation)).isNone then
      saveInvitation (beta.casing.indexed invitation) invitation (.auditing invitation false)
    else .select (.failing .invitationIssueConflict)
  | .reopening expiresAt existing =>
    let invitation := existing.reopen (strip order.email) expiresAt moment.now
    if 254 < invitation.email.length then .select (.failing .dataError)
    else if invitation.createdAt < invitation.expiresAt then
      saveInvitation (beta.casing.indexed existing) invitation (.auditing invitation true)
    else .select (.failing .integrityError)
  | .auditing invitation reopened =>
    record (beta.auditIssue actor order invitation reopened moment.now) .leaving .failing
  | .leaving => .commit
  | .failing _ => .rollback

def revokeInvitation (moment : Moment) (actor : Account) (order : Order) (view : Store Row) :
    Revoking → Statement Row Revoking AuditLog
  | .looking =>
    match invitationAt view (beta.sought order.email) with
    | none => .select (.failing .invitationNotFound)
    | some invitation =>
      .lock (.invitation (beta.sought order.email))
        (if invitation.consumedAt.isSome then .failing .invitationAlreadyConsumed
        else if invitation.revokedAt.isSome then .leaving
        else .withdrawing invitation)
  | .withdrawing invitation =>
    let revoked := invitation.revoke moment.now
    saveInvitation (beta.casing.indexed invitation) revoked (.auditing revoked)
  | .auditing invitation => record (auditRevocation actor order invitation moment.now) .leaving .failing
  | .leaving => .commit
  | .failing _ => .rollback

/-- An insert asks two indexes in turn; the account is then the one that consumes. -/
def registerAccount (moment : Moment) (email password : String) (view : Store Row) :
    Registering → Statement Row Registering AuditLog
  | .inserting =>
    let account := beta.account email password moment.pk
    if 254 < account.email.length then .select (.failing .dataError)
    else if (view (.user account.pk)).isNone then .write (.user account.pk) account (.indexing account)
    else .select (.failing .emailAlreadyRegistered)
  | .indexing account =>
    let place := Key.account (beta.casing.dbLower account.email)
    if (view place).isNone then
      .write place account.pk
        (if strip account.email = "" then .failing .invitationNotFound else .consuming account moment.now)
    else .select (.failing .emailAlreadyRegistered)
  | .consuming account now =>
    match invitationAt view (beta.sought (strip account.email)) with
    | none => .select (.explaining account)
    | some invitation =>
      -- the condition of the update, asked again whenever the row was waited for
      if invitation.IsUsable now then
        saveInvitation (beta.sought (strip account.email)) (invitation.consume account.pk now) (.reading account)
      else .select (.explaining account)
  | .explaining account =>
    .select (.failing (if (invitationAt view (beta.sought (strip account.email))).isNone then .invitationNotFound
      else .invitationNotUsable))
  | .reading account =>
    match invitationAt view (beta.sought (strip account.email)) with
    | none => .select (.failing .doesNotExist)
    | some invitation => .select (.auditing account invitation)
  | .auditing account invitation =>
    record (auditConsumption account.toUser invitation moment.now) .leaving .failing
  | .leaving => .commit
  | .failing _ => .rollback

def admission : Program Row Request Moment Stage AuditLog where
  start request := request.start.toOption
  statement moment stage view :=
    match stage with
    | .issuing actor order stage => (beta.issueInvitation moment actor order view stage).map (.issuing actor order)
    | .revoking actor order stage => (beta.revokeInvitation moment actor order view stage).map (.revoking actor order)
    | .registering email password stage =>
      (beta.registerAccount moment email password view stage).map (.registering email password)

theorem map_record {φ φ' : Type} {f : φ → φ'} {audit : Except NotAuditable AuditLog} {leaving : φ}
    {failing : Failure → φ} : (record audit leaving failing).map f = record audit (f leaving) fun e => f (failing e) := by
  cases audit <;> rfl

theorem record_ne_commit {φ : Type} {audit : Except NotAuditable AuditLog} {leaving : φ} {failing : Failure → φ} :
    record audit leaving failing ≠ .commit := by
  cases audit <;> simp [record]

end Beta

end EPlatform.Accounts
