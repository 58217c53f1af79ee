import EPlatform.Accounts.Registration

/-!
# Who an address belongs to

The three views that look an account up by an address somebody typed. They compare it as it was sent with what is stored,
while creating an account compares stored forms.
-/

namespace EPlatform.Accounts

open Runs

def RESEND_ACCEPTED : Response where
  statusCode := 202
  detail := "If that address has an unverified account, a verification email is on its way."

def PASSWORD_RESET_ACCEPTED : Response where
  statusCode := 202
  detail := "If that address has an account, a reset link is on its way."

def LOGIN_REFUSED : Response where
  statusCode := 400
  detail := "Those credentials are not valid."

def PASSWORD_RESET_TOKEN_LIFETIME : Nat := 60 * 60 * 1000000

/-- `User.objects.filter(email=email).first()`. -/
def firstUser (email : String) (users : List Account) : Option Account := users.find? (·.email = email)

variable {casing : Casing}

def resendVerificationView (email : String) (env : Env) (site : Site casing) : Response × Site casing :=
  match firstUser email site.db.rows.users with
  | none => (RESEND_ACCEPTED, site)
  | some user =>
    if user.isEmailVerified then (RESEND_ACCEPTED, site)
    else
      let site := site.issueEmailVerification user env
      (RESEND_ACCEPTED, { site with outbox := site.outbox ++ [user.email] })

def passwordResetView (email : String) (env : Env) (site : Site casing) : Response × Site casing :=
  match firstUser email site.db.rows.users with
  | none => (PASSWORD_RESET_ACCEPTED, site)
  | some user =>
    (PASSWORD_RESET_ACCEPTED,
      { site with
        resetTokens := site.resetTokens ++ [⟨user.pk, env.tokenHash, env.now + PASSWORD_RESET_TOKEN_LIFETIME, none⟩]
        outbox := site.outbox ++ [user.email] })

/-- `ModelBackend.authenticate`, which looks the account up by its natural key. -/
def authenticate (checkPassword : String → String → Bool) (email password : String) (users : List Account) :
    Option Account :=
  (getUser email users).toOption.filter fun user => checkPassword password user.password && user.isActive

/-- The answer, and whose session it opens. -/
def loginView (checkPassword : String → String → Bool) (email password : String) (site : Site casing) :
    Response × Option Account :=
  match authenticate checkPassword email password site.db.rows.users with
  | none => (LOGIN_REFUSED, none)
  | some user => (⟨200, "Signed in."⟩, some user)

inductive View
  | resendVerification
  | passwordReset
  | login
  deriving DecidableEq, Repr

/-- The account a view finds for what was typed, if its serializer accepts it. -/
def View.finds (validators : Validators) (typed : String) (users : List Account) (view : View) : Option Account :=
  (emailField validators typed).bind fun email =>
    match view with
    | .resendVerification => firstUser email users
    | .passwordReset => firstUser email users
    | .login => (getUser email users).toOption

/-- Every view finds the account, and nobody can register it again. -/
structure OneNotion (casing : Casing) (makePassword : String → String) (validators : Validators) (account : Account)
    (users : List Account) (typed : String) : Prop where
  finds : ∀ view : View, view.finds validators typed users = some account
  refuses : ∀ password pk,
    createAccount casing makePassword typed password pk users = .error .emailAlreadyRegistered

variable {makePassword : String → String} {email password typed : String} {pk : Uuid} {users users' : List Account}
  {account : Account}

/-- What `View.finds` stands for: each view acts on the account it finds, and on nobody else. -/
theorem views_act_on_found {validators : Validators} (haccepted : emailField validators typed = some email) (env : Env)
    (site : Site casing) (checkPassword : String → String → Bool) (password : String) :
    (resendVerificationView email env site).2.outbox = site.outbox ++
        (((View.resendVerification.finds validators typed site.db.rows.users).filter fun user =>
          !user.isEmailVerified).map (·.email)).toList ∧
      (passwordResetView email env site).2.outbox = site.outbox ++
        ((View.passwordReset.finds validators typed site.db.rows.users).map (·.email)).toList ∧
      (loginView checkPassword email password site).2 =
        (View.login.finds validators typed site.db.rows.users).filter fun user =>
          checkPassword password user.password && user.isActive := by
  simp only [View.finds, haccepted, Option.bind_some]
  refine ⟨?_, ?_, ?_⟩
  · unfold resendVerificationView
    cases hfound : firstUser email site.db.rows.users with
    | none => simp
    | some user => cases hverified : user.isEmailVerified <;> simp [hverified, Option.filter, Site.issueEmailVerification]
  · unfold passwordResetView
    cases hfound : firstUser email site.db.rows.users <;> simp
  · unfold loginView authenticate
    cases hfound : (getUser email site.db.rows.users).toOption.filter fun user =>
        checkPassword password user.password && user.isActive <;> rfl

/-- An address whose stored form is taken is refused as taken. -/
theorem createAccount_of_taken (hne : typed ≠ "") (hlength : (casing.storedEmail typed).length ≤ 254)
    (hmem : account ∈ users) (hemail : account.email = casing.storedEmail typed) :
    createAccount casing makePassword typed password pk users = .error .emailAlreadyRegistered := by
  apply createAccount_of_clash hne hlength
  intro hfree
  exact hfree account hmem (.inr (.inl hemail))

theorem firstUser_append (hfree : ∀ other ∈ users, ¬ account.Clashes casing other) :
    firstUser account.email (users ++ [account]) = some account := by
  rw [firstUser, List.find?_append, List.find?_eq_none.mpr, Option.none_or]
  · simp
  · intro other hother hemail
    exact hfree other hother (.inr (.inl (of_decide_eq_true hemail)))

/-- The views agree with the manager about an address exactly when it is typed the way it is stored. -/
theorem oneNotion_iff {validators : Validators}
    (hcreated : createAccount casing makePassword email password pk users = .ok (account, users'))
    (hrecasing : casing.lower typed = casing.lower email) :
    OneNotion casing makePassword validators account users' typed ↔
      emailField validators typed = some (casing.storedEmail email) := by
  obtain ⟨hne, hemail, hlength, hfree, rfl⟩ := createAccount_ok hcreated
  have hstored : casing.storedEmail typed = casing.storedEmail email := casing.storedEmail_congr hrecasing
  constructor
  · intro hone
    obtain ⟨sent, haccepted, hfound⟩ := Option.bind_eq_some_iff.mp (hone.finds .resendVerification)
    have hsent : account.email = sent := by simpa using List.find?_some hfound
    rw [haccepted, ← hemail, hsent]
  · intro haccepted
    constructor
    · intro view
      rw [View.finds, haccepted, ← hemail, Option.bind_some]
      cases view with
      | resendVerification => exact firstUser_append hfree
      | passwordReset => exact firstUser_append hfree
      | login => rw [getUser_append hfree, Except.toOption]
    · intro password pk
      have htyped : typed ≠ "" := by
        rw [ne_eq, ← casing.lower_eq_empty, hrecasing, casing.lower_eq_empty]
        exact hne
      apply createAccount_of_taken htyped
      · rw [hstored, ← hemail]
        exact hlength
      · exact List.mem_append_right _ (List.mem_singleton_self _)
      · rw [hstored, hemail]

/-- The account of an address that was asked for in capitals. -/
def learner : Account where
  pk := 1
  email := "learner@example.test"
  role := .student
  isSuperuser := false
  password := "correct horse"
  isEmailVerified := false
  isActive := true

theorem stored_spelling_is_found :
    createAccount asciiCasing id "LEARNER@Example.test" "correct horse" 1 [] = .ok (learner, [learner]) ∧
      OneNotion asciiCasing id someValidators learner [learner] "learner@example.test" :=
  ⟨by decide, (oneNotion_iff
    (show createAccount asciiCasing id "LEARNER@Example.test" "correct horse" 1 [] = .ok (learner, [learner]) by decide)
    (by decide)).mpr (by decide)⟩

/-- Typed the way it was registered, the address finds nobody. -/
theorem registered_spelling_finds_nobody :
    createAccount asciiCasing id "LEARNER@Example.test" "correct horse" 1 [] = .ok (learner, [learner]) ∧
      ¬ OneNotion asciiCasing id someValidators learner [learner] "LEARNER@Example.test" := by
  refine ⟨by decide, fun hone => ?_⟩
  have hfound := hone.finds .login
  revert hfound
  decide

end EPlatform.Accounts
