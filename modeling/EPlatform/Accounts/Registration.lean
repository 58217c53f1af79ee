import EPlatform.Accounts.Services

/-!
# What registration says

The register endpoint, from an accepted body to its answer. On success it reads the account it made back, by the address
it was sent.
-/

namespace EPlatform.Accounts

open Runs

/-- Django's validators of an address and of a password. -/
structure Validators where
  email : String → Bool
  password : String → Bool

structure RegisterInput where
  email : String
  password : String
  deriving DecidableEq, Repr

/-- A `CharField` trims, and refuses what is blank or too long, before it asks a validator. -/
def charField (maxLength : Nat) (validator : String → Bool) (raw : String) : Option String :=
  if strip raw ≠ "" ∧ (strip raw).length ≤ maxLength ∧ validator (strip raw) then some (strip raw) else none

def emailField (validators : Validators) (raw : String) : Option String := charField 254 validators.email raw

def registerSerializer (validators : Validators) (body : RegisterInput) : Option RegisterInput := do
  let email ← emailField validators body.email
  let password ← charField 128 validators.password body.password
  return ⟨email, password⟩

structure Response where
  statusCode : Nat
  detail : String
  deriving DecidableEq, Repr

def REGISTRATION_ACCEPTED : Response where
  statusCode := 202
  detail := "If that address can be registered, a verification email is on its way."

/-- A row of `EmailVerificationToken` or of `PasswordResetToken`. -/
structure SingleUseToken where
  user : Uuid
  tokenHash : String
  expiresAt : Instant
  consumedAt : Option Instant
  deriving DecidableEq, Repr

/-- `VERIFICATION_TOKEN_LIFETIME`. -/
def VERIFICATION_TOKEN_LIFETIME : Nat := 24 * 60 * 60 * 1000000

/-- The tables, and the addresses that were written to. -/
structure Site (casing : Casing) where
  db : Database casing
  verificationTokens : List SingleUseToken
  resetTokens : List SingleUseToken
  outbox : List String

/-- The random key and token of the moment, and the clock. -/
structure Env where
  pk : Uuid
  tokenHash : String
  now : Instant
  deriving DecidableEq, Repr

/-- `User.objects.get(email=email)`. -/
def getUser (email : String) (users : List Account) : Except Failure Account :=
  match users.filter (·.email = email) with
  | [] => .error .doesNotExist
  | [user] => .ok user
  | _ => .error .multipleObjectsReturned

/-- The hash of a fresh random token is new. -/
def Site.issueEmailVerification {casing : Casing} (user : Account) (env : Env) (site : Site casing) : Site casing :=
  { site with
    verificationTokens :=
      site.verificationTokens ++ [⟨user.pk, env.tokenHash, env.now + VERIFICATION_TOKEN_LIFETIME, none⟩] }

/-- `RegisterView.post` on an accepted body. An error is an exception nobody catches. -/
def registerView (casing : Casing) (makePassword : String → String) (betaInvitationRequired : Bool) (env : Env)
    (input : RegisterInput) (site : Site casing) : Except Failure Response × Site casing :=
  match registerAccount casing makePassword betaInvitationRequired input.email input.password env.pk env.now
      site.db.rows with
  | .error .emailAlreadyRegistered => (.ok REGISTRATION_ACCEPTED, site)
  | .error .invitationNotFound => (.ok REGISTRATION_ACCEPTED, site)
  | .error .invitationNotUsable => (.ok REGISTRATION_ACCEPTED, site)
  | .error e => (.error e, site)
  | .ok (_, rows) =>
    let site := { site with db := site.db.settle (.ok rows : Except Failure Rows) }
    match getUser input.email site.db.rows.users with
    | .error e => (.error e, site)
    | .ok user =>
      let site := site.issueEmailVerification user env
      (.ok REGISTRATION_ACCEPTED, { site with outbox := site.outbox ++ [input.email] })

/-! ### The property -/

/-- One body is answered alike in any two states, under either policy. -/
def RevealsNothing (casing : Casing) (makePassword : String → String) (input : RegisterInput) : Prop :=
  ∀ (required required' : Bool) (env env' : Env) (site site' : Site casing), ∃ response : Response,
    response.statusCode = 202 ∧
      (registerView casing makePassword required env input site).1 = .ok response ∧
      (registerView casing makePassword required' env' input site').1 = .ok response

variable {casing : Casing} {makePassword : String → String} {required : Bool} {env : Env} {input : RegisterInput}
  {site : Site casing}

theorem charField_eq_some {maxLength : Nat} {validator : String → Bool} {raw value : String}
    (h : charField maxLength validator raw = some value) : value ≠ "" ∧ value.length ≤ maxLength := by
  unfold charField at h
  split at h
  · rename_i haccepted
    cases h
    exact ⟨haccepted.1, haccepted.2.1⟩
  · cases h

theorem registerSerializer_eq_some {validators : Validators} {body : RegisterInput}
    (h : registerSerializer validators body = some input) : input.email ≠ "" ∧ input.email.length ≤ 254 := by
  simp only [registerSerializer, emailField, Option.bind_eq_bind, Option.bind_eq_some_iff, Option.pure_def,
    Option.some.injEq] at h
  obtain ⟨email, hemail, password, -, rfl⟩ := h
  exact charField_eq_some hemail

/-- The account just made is found by its own address, and by no other. -/
theorem getUser_append {users : List Account} {user : Account} (hfree : ∀ other ∈ users, ¬ user.Clashes casing other) :
    getUser user.email (users ++ [user]) = .ok user := by
  have hnone : users.filter (·.email = user.email) = [] := by
    rw [List.filter_eq_nil_iff]
    intro other hother hemail
    exact hfree other hother (.inr (.inl (of_decide_eq_true hemail)))
  simp only [getUser, List.filter_append, hnone, List.nil_append, List.filter_singleton, decide_true, cond_true]

theorem registerView_of_registered {user : Account} {rows : Rows}
    (hregister : registerAccount casing makePassword required input.email input.password env.pk env.now site.db.rows =
      .ok (user, rows))
    (hvalid : rows.Valid casing) (hfound : getUser input.email rows.users = .ok user) :
    (registerView casing makePassword required env input site).1 = .ok REGISTRATION_ACCEPTED := by
  simp only [registerView, hregister, Database.settle_ok hvalid, hfound]

theorem registerView_of_refused {refusal : Failure}
    (hregister : registerAccount casing makePassword required input.email input.password env.pk env.now site.db.rows =
      .error refusal)
    (hrefusal : refusal ∈ [Failure.emailAlreadyRegistered, .invitationNotFound, .invitationNotUsable]) :
    (registerView casing makePassword required env input site).1 = .ok REGISTRATION_ACCEPTED := by
  simp only [List.mem_cons, List.not_mem_nil, or_false] at hrefusal
  rcases hrefusal with hrefusal | hrefusal | hrefusal <;> simp only [registerView, hregister, hrefusal]

/-- An address in its stored form gets the one answer, whatever becomes of it. -/
theorem registerView_of_stored (hne : input.email ≠ "") (hlength : input.email.length ≤ 254)
    (hstored : casing.storedEmail input.email = input.email) :
    (registerView casing makePassword required env input site).1 = .ok REGISTRATION_ACCEPTED := by
  rcases createAccount_cases makePassword input.password env.pk site.db.rows.users hne (hstored.symm ▸ hlength) with
    htaken | ⟨user, hcreated⟩
  · exact registerView_of_refused (registerAccount_of_not_created required env.now site.db.rows htaken) (by simp)
  · obtain ⟨-, hemail, -, hfree, -⟩ := createAccount_ok hcreated
    have hemail : user.email = input.email := hemail.trans hstored
    have hfound : getUser input.email (site.db.rows.users ++ [user]) = .ok user := hemail ▸ getUser_append hfree
    let created : Rows := { site.db.rows with users := site.db.rows.users ++ [user] }
    have hvalid : created.Valid casing := site.db.valid
    have hregister := registerAccount_of_created required env.now site.db.rows hcreated
    cases required with
    | false => exact registerView_of_registered hregister hvalid hfound
    | true =>
      rcases consumeInvitation_cases env.now hvalid (hemail ▸ hne) with
        hnever | hlapsed | ⟨rows, hspent, husers, hrows⟩
      · rw [if_pos rfl, hnever] at hregister
        exact registerView_of_refused hregister (by simp)
      · rw [if_pos rfl, hlapsed] at hregister
        exact registerView_of_refused hregister (by simp)
      · rw [if_pos rfl, hspent] at hregister
        exact registerView_of_registered hregister hrows (husers ▸ hfound)

/-- Nobody has registered, and nobody was invited. -/
def Site.empty (casing : Casing) : Site casing := ⟨⟨⟨[], [], []⟩, List.nodup_nil⟩, [], [], []⟩

/-- There, with no invitation asked for, any other spelling of an address raises. -/
theorem registerView_of_not_stored (hstored : casing.storedEmail input.email ≠ input.email) (response : Response) :
    (registerView casing makePassword false env input (Site.empty casing)).1 ≠ .ok response := by
  rcases createAccount_nil casing makePassword input.email input.password env.pk with hblank | hlong | ⟨user, hcreated⟩
  · have hregister := registerAccount_of_not_created false env.now (Site.empty casing).db.rows hblank
    simp [registerView, hregister]
  · have hregister := registerAccount_of_not_created false env.now (Site.empty casing).db.rows hlong
    simp [registerView, hregister]
  · obtain ⟨-, hemail, -, -, -⟩ := createAccount_ok hcreated
    have hother : ¬ user.email = input.email := hemail ▸ hstored
    have hmissing : getUser input.email [user] = .error .doesNotExist := by simp [getUser, hother]
    have hregister : registerAccount casing makePassword false input.email input.password env.pk env.now
        (Site.empty casing).db.rows = .ok (user, ⟨[user], [], []⟩) :=
      registerAccount_of_created false env.now (Site.empty casing).db.rows hcreated
    have hvalid : (⟨[user], [], []⟩ : Rows).Valid casing := List.nodup_nil
    simp [registerView, hregister, Database.settle_ok hvalid, hmissing]

/-- Registration reveals nothing about exactly the addresses that are sent in their stored form. -/
theorem registration_revealsNothing_iff {validators : Validators} {body : RegisterInput}
    (haccepted : registerSerializer validators body = some input) :
    RevealsNothing casing makePassword input ↔ casing.storedEmail input.email = input.email := by
  obtain ⟨hne, hlength⟩ := registerSerializer_eq_some haccepted
  constructor
  · intro hreveals
    by_contra hstored
    obtain ⟨response, -, hfirst, -⟩ := hreveals false false ⟨0, "", 0⟩ ⟨0, "", 0⟩ (Site.empty casing) (Site.empty casing)
    exact registerView_of_not_stored hstored response hfirst
  · intro hstored required required' env env' site site'
    exact ⟨REGISTRATION_ACCEPTED, rfl, registerView_of_stored hne hlength hstored,
      registerView_of_stored hne hlength hstored⟩

/-- A validator that asks for an `@`, and one that asks for eight characters. -/
def someValidators : Validators := ⟨fun email => '@' ∈ email.toList, fun password => 8 ≤ password.length⟩

theorem lowercase_address_reveals_nothing :
    registerSerializer someValidators ⟨" learner@example.test", "correct horse"⟩ =
        some ⟨"learner@example.test", "correct horse"⟩ ∧
      RevealsNothing asciiCasing id ⟨"learner@example.test", "correct horse"⟩ :=
  ⟨by decide, (registration_revealsNothing_iff
    (show registerSerializer someValidators ⟨" learner@example.test", "correct horse"⟩ = some _ by decide)).mpr
    (by decide)⟩

/-- The account is made, and is not found by the address it was asked for with. -/
theorem capital_letter_raises :
    registerSerializer someValidators ⟨"Learner@example.test", "correct horse"⟩ =
        some ⟨"Learner@example.test", "correct horse"⟩ ∧
      ¬ RevealsNothing asciiCasing id ⟨"Learner@example.test", "correct horse"⟩ := by
  refine ⟨by decide, fun hreveals => ?_⟩
  obtain ⟨response, -, hfirst, -⟩ :=
    hreveals false false ⟨1, "hash", 0⟩ ⟨1, "hash", 0⟩ (Site.empty asciiCasing) (Site.empty asciiCasing)
  exact registerView_of_not_stored (by decide) response hfirst

end EPlatform.Accounts
