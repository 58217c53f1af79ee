import EPlatform.Accounts.Services
import EPlatform.Runs.ReadCommitted
import Mathlib.Data.List.Sort

/-!
# Emailed links, statement by statement

The services that issue and redeem a token by email, cut at every statement they send. A token stands under what its
unique index compares, the hash of a raw value that is itself stored nowhere. `EmailVerificationToken` and
`PasswordResetToken` are two tables with the same columns.
-/

namespace EPlatform.Accounts.Tokens

open Runs ReadCommitted

/-- The table a token is in. -/
inductive Link
  | emailVerification
  | passwordReset
  deriving DecidableEq, Repr

structure Token where
  user : Uuid
  tokenHash : String
  createdAt : Instant
  updatedAt : Instant
  expiresAt : Instant
  consumedAt : Option Instant
  deriving DecidableEq, Repr

inductive Key
  | token (link : Link) (tokenHash : String)
  | user (pk : Uuid)
  deriving DecidableEq, Repr

abbrev Row : Key → Type
  | .token .. => Token
  | .user _ => Account

/-- What a call has done once it has committed. `judgedAt` is the clock as the check of the expiry read it. -/
inductive Entry
  | issued (link : Link) (user : Uuid) (raw : String) (expiresAt : Instant)
  | redeemed (link : Link) (user : Uuid) (raw : String) (judgedAt : Instant)
  deriving DecidableEq, Repr

inductive Request
  | issueEmailVerification (user : Uuid) (raw : String)
  | issuePasswordReset (user : Uuid) (raw : String)
  | verifyEmail (token : String)
  | resetPassword (token newPassword : String)
  deriving DecidableEq, Repr

/-- The clock, whether the transaction is aborted here, and the order in which a scan of a table comes upon its rows. -/
structure Moment where
  now : Instant
  aborted : Bool
  place : String → Nat

/-! ### Where a transaction stands -/

inductive Issuing
  | starting
  | inserting (expiresAt : Instant)
  | returning (token : Token)
  | leaving
  deriving DecidableEq

inductive Redeeming
  | looking
  | checking
  | consuming (record : Token) (judgedAt : Instant)
  | loading (record : Token) (judgedAt : Instant)
  | saving (record : Token) (judgedAt : Instant)
  | scanning (record : Token) (judgedAt : Instant)
  | sweeping (record : Token) (judgedAt : Instant) (now : Instant) (hashes : List String)
  | returning (record : Token) (judgedAt : Instant)
  | leaving
  deriving DecidableEq

/-- The call, with its arguments, and the statement it sends next. -/
inductive Stage
  | issuingEmailVerification (user : Uuid) (raw : String) (stage : Issuing)
  | issuingPasswordReset (user : Uuid) (raw : String) (stage : Issuing)
  | verifyingEmail (token : String) (stage : Redeeming)
  | resettingPassword (token newPassword : String) (stage : Redeeming)
  deriving DecidableEq

def tokenAt (view : Store Row) (link : Link) (tokenHash : String) : Option Token := view (.token link tokenHash)

def accountAt (view : Store Row) (pk : Uuid) : Option Account := view (.user pk)

def saveToken {φ : Type} (link : Link) (tokenHash : String) (token : Token) (next : φ) : Statement Row φ Entry :=
  .write (.token link tokenHash) token next

def saveAccount {φ : Type} (pk : Uuid) (account : Account) (next : φ) : Statement Row φ Entry :=
  .write (.user pk) account next

def VERIFICATION_TOKEN_LIFETIME : Nat := 24 * 60 * 60 * 1000000

def PASSWORD_RESET_TOKEN_LIFETIME : Nat := 60 * 60 * 1000000

def Token.new (user : Uuid) (tokenHash : String) (expiresAt now : Instant) : Token where
  user := user
  tokenHash := tokenHash
  createdAt := now
  updatedAt := now
  expiresAt := expiresAt
  consumedAt := none

def Token.isConsumed (token : Token) : Bool := token.consumedAt.isSome

/-- `filter(user=user, consumed_at__isnull=True)`, as the condition on a row. -/
def Token.isOutstanding (user : Uuid) (token : Token) : Bool := token.user = user && token.consumedAt.isNone

def markVerified (account : Account) : Account := { account with isEmailVerified := true }

/-- `hashToken` is SHA-256, and `drawn` lists what `secrets.token_urlsafe` returns. -/
structure Secrets where
  hashToken : String → String
  makePassword : String → String
  drawn : List String

namespace Secrets

variable (secrets : Secrets)

/-! ### Issuing -/

/-- `raw` has been drawn already. -/
def issue (link : Link) (lifetime : Nat) (moment : Moment) (user : Uuid) (raw : String) (view : Store Row) :
    Issuing → Statement Row Issuing Entry
  | .starting => .select (.inserting (moment.now + lifetime))
  | .inserting expiresAt =>
    let token := Token.new user (secrets.hashToken raw) expiresAt moment.now
    -- the foreign key and the unique index are what an insert can fail on
    if (accountAt view user).isSome ∧ (tokenAt view link (secrets.hashToken raw)).isNone then
      saveToken link (secrets.hashToken raw) token (.returning token)
    else .rollback
  | .returning token => .append (.issued link user raw token.expiresAt) .leaving
  | .leaving => .commit

def issueEmailVerification (moment : Moment) (user : Uuid) (raw : String) (view : Store Row) :
    Issuing → Statement Row Issuing Entry :=
  secrets.issue .emailVerification VERIFICATION_TOKEN_LIFETIME moment user raw view

def issuePasswordReset (moment : Moment) (user : Uuid) (raw : String) (view : Store Row) :
    Issuing → Statement Row Issuing Entry :=
  secrets.issue .passwordReset PASSWORD_RESET_TOKEN_LIFETIME moment user raw view

/-! ### Redeeming -/

/-- The rows an update of the user's outstanding tokens finds when it starts, in the order it takes them. -/
def outstanding (link : Link) (user : Uuid) (place : String → Nat) (view : Store Row) : List String :=
  ((secrets.drawn.map secrets.hashToken).filter fun tokenHash =>
    (tokenAt view link tokenHash).any (·.isOutstanding user)).insertionSort fun earlier later =>
      place earlier ≤ place later

/-- `change` is what becomes of the account, and `sweeps` says whether its other tokens are consumed too. -/
def redeem (link : Link) (change : Account → Account) (sweeps : Bool) (moment : Moment) (raw : String)
    (view : Store Row) : Redeeming → Statement Row Redeeming Entry
  | .looking =>
    if raw = "" then .rollback
    else match tokenAt view link (secrets.hashToken raw) with
      | none => .rollback
      | some _ => .lock (.token link (secrets.hashToken raw)) .checking
  | .checking =>
    match tokenAt view link (secrets.hashToken raw) with
    | none => .rollback
    | some record =>
      if record.isConsumed then .rollback
      else if record.expiresAt ≤ moment.now then .rollback
      else .select (.consuming record moment.now)
  | .consuming record judgedAt =>
    match tokenAt view link (secrets.hashToken raw) with
    | none => .rollback
    | some current =>
      saveToken link (secrets.hashToken raw) { current with consumedAt := some moment.now, updatedAt := moment.now }
        (.loading record judgedAt)
  | .loading record judgedAt =>
    match accountAt view record.user with
    | none => .rollback
    | some _ => .select (.saving record judgedAt)
  | .saving record judgedAt =>
    match accountAt view record.user with
    | none => .rollback
    | some current =>
      saveAccount record.user (change current)
        (if sweeps then .scanning record judgedAt else .returning record judgedAt)
  | .scanning record judgedAt =>
    .select (.sweeping record judgedAt moment.now (secrets.outstanding link record.user moment.place view))
  | .sweeping record judgedAt _ [] => .select (.returning record judgedAt)
  | .sweeping record judgedAt now (tokenHash :: hashes) =>
    -- a row that another transaction had locked is judged again as that one left it
    match (tokenAt view link tokenHash).filter (·.isOutstanding record.user) with
    | some token => saveToken link tokenHash { token with consumedAt := some now } (.sweeping record judgedAt now hashes)
    | none => .lock (.token link tokenHash) (.sweeping record judgedAt now hashes)
  | .returning record judgedAt => .append (.redeemed link record.user raw judgedAt) .leaving
  | .leaving => .commit

def setPassword (newPassword : String) (account : Account) : Account :=
  { account with password := secrets.makePassword newPassword }

def verifyEmail (moment : Moment) (token : String) (view : Store Row) : Redeeming → Statement Row Redeeming Entry :=
  secrets.redeem .emailVerification markVerified false moment token view

def resetPassword (moment : Moment) (token newPassword : String) (view : Store Row) :
    Redeeming → Statement Row Redeeming Entry :=
  secrets.redeem .passwordReset (secrets.setPassword newPassword) true moment token view

/-! ### The calls as one program -/

def start : Request → Option Stage
  | .issueEmailVerification user raw =>
    if raw ∈ secrets.drawn then some (.issuingEmailVerification user raw .starting) else none
  | .issuePasswordReset user raw =>
    if raw ∈ secrets.drawn then some (.issuingPasswordReset user raw .starting) else none
  | .verifyEmail token => some (.verifyingEmail token .looking)
  | .resetPassword token newPassword => some (.resettingPassword token newPassword .looking)

def send (moment : Moment) (view : Store Row) : Stage → Statement Row Stage Entry
  | .issuingEmailVerification user raw stage =>
    (secrets.issueEmailVerification moment user raw view stage).map (.issuingEmailVerification user raw)
  | .issuingPasswordReset user raw stage =>
    (secrets.issuePasswordReset moment user raw view stage).map (.issuingPasswordReset user raw)
  | .verifyingEmail token stage => (secrets.verifyEmail moment token view stage).map (.verifyingEmail token)
  | .resettingPassword token newPassword stage =>
    (secrets.resetPassword moment token newPassword view stage).map (.resettingPassword token newPassword)

/-- A deadlock, a lost connection or a failure of the caller ends a transaction anywhere. -/
def mailing : Program Row Request Moment Stage Entry where
  start := secrets.start
  statement moment stage view := if moment.aborted then .rollback else secrets.send moment view stage

end Secrets

end EPlatform.Accounts.Tokens
