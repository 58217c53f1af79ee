import EPlatform.Accounts.Email
import EPlatform.Core.Audit
import EPlatform.Runs.Table
import EPlatform.Runs.Transaction

/-!
# Creating accounts

Accounts and beta invitations as rows, and the two services that create an account: on its own, and under the admission
policy.
-/

namespace EPlatform.Accounts

open Runs

structure Account extends User where
  password : String
  isEmailVerified : Bool
  isActive : Bool
  deriving DecidableEq, Repr

structure BetaInvitation where
  pk : Uuid
  email : String
  createdAt : Instant
  updatedAt : Instant
  expiresAt : Instant
  revokedAt : Option Instant
  consumedAt : Option Instant
  consumedBy : Option Uuid
  deriving DecidableEq, Repr

inductive Failure
  | valueError
  | dataError
  | integrityError
  | emailAlreadyRegistered
  | notPermitted
  | invitationNotFound
  | invitationNotUsable
  | invitationAlreadyConsumed
  | invitationIssueConflict
  | notAuditable (missing : NotAuditable)
  | doesNotExist
  | multipleObjectsReturned
  deriving DecidableEq, Repr

structure Rows where
  users : List Account
  invitations : List BetaInvitation
  auditLogs : List AuditLog
  deriving DecidableEq, Repr

/-- What the unique index on the address compares. -/
def Casing.indexed (casing : Casing) (invitation : BetaInvitation) : String := casing.dbLower invitation.email

/-- `beta_invitation_email_ci_unique`, the one constraint on whose strength a lookup relies. -/
def Rows.Valid (casing : Casing) (rows : Rows) : Prop := Table.Unique casing.indexed rows.invitations

instance (casing : Casing) : DecidablePred (Rows.Valid casing) :=
  fun _ => inferInstanceAs (Decidable (Table.Unique _ _))

abbrev Database (casing : Casing) := Runs.Database (Rows.Valid casing)

/-! ### Accounts -/

/-- The keys of `users` that a new row may not share. -/
def Account.Clashes (casing : Casing) (user other : Account) : Prop :=
  other.pk = user.pk ∨ other.email = user.email ∨ casing.dbLower other.email = casing.dbLower user.email

instance (casing : Casing) (user other : Account) : Decidable (user.Clashes casing other) :=
  inferInstanceAs (Decidable (_ ∨ _ ∨ _))

/-- `user.save()`. A value is cut to its column before any index is asked. -/
def insertUser (casing : Casing) (user : Account) (users : List Account) : Except Failure (List Account) := do
  require (user.email.length ≤ 254) .dataError
  require (∀ other ∈ users, ¬ user.Clashes casing other) .integrityError
  return users ++ [user]

/-- `pk` is the random key of the new row. -/
def Account.new (casing : Casing) (makePassword : String → String) (email password : String) (pk : Uuid) : Account where
  pk := pk
  email := casing.storedEmail email
  role := .student
  isSuperuser := false
  password := makePassword password
  isEmailVerified := false
  isActive := true

def createUser (casing : Casing) (makePassword : String → String) (email password : String) (pk : Uuid)
    (users : List Account) : Except Failure (Account × List Account) := do
  require (email ≠ "") .valueError
  let user := Account.new casing makePassword email password pk
  let users ← insertUser casing user users
  return (user, users)

/-- The student profile, which nothing here reads, is left out. -/
def createAccount (casing : Casing) (makePassword : String → String) (email password : String) (pk : Uuid)
    (users : List Account) : Except Failure (Account × List Account) :=
  (createUser casing makePassword email password pk users).mapError fun
    | .integrityError => .emailAlreadyRegistered
    | e => e

/-! ### Admission -/

/-- `_invitations_for`, as the condition on a row. -/
def BetaInvitation.IsFor (casing : Casing) (email : String) (invitation : BetaInvitation) : Prop :=
  casing.indexed invitation = casing.lower (strip email)

def BetaInvitation.IsUsable (now : Instant) (invitation : BetaInvitation) : Prop :=
  invitation.consumedAt = none ∧ invitation.revokedAt = none ∧ now < invitation.expiresAt

instance (casing : Casing) (email : String) (invitation : BetaInvitation) : Decidable (invitation.IsFor casing email) :=
  inferInstanceAs (Decidable (_ = _))

instance (now : Instant) (invitation : BetaInvitation) : Decidable (invitation.IsUsable now) :=
  inferInstanceAs (Decidable (_ ∧ _ ∧ _))

def BetaInvitation.consume (user : Uuid) (now : Instant) (invitation : BetaInvitation) : BetaInvitation :=
  { invitation with consumedAt := some now, consumedBy := some user, updatedAt := now }

/-- The conditional UPDATE. -/
def spend (casing : Casing) (email : String) (user : Uuid) (now : Instant) (invitations : List BetaInvitation) :
    List BetaInvitation :=
  invitations.map fun invitation =>
    if invitation.IsFor casing email ∧ invitation.IsUsable now then invitation.consume user now else invitation

def betaInvitation : String := "betainvitation"

/-- The row that records a consumption. -/
def auditConsumption (user : User) (invitation : BetaInvitation) (now : Instant) : Except NotAuditable AuditLog :=
  recordAdminAction user .betaInvitationConsumed betaInvitation invitation.pk "Account created against a beta invitation."
    none [("invited_email", invitation.email)] now

def consumeInvitation (casing : Casing) (user : Account) (now : Instant) (rows : Rows) : Except Failure Rows := do
  let normalised := strip user.email
  require (normalised ≠ "") .invitationNotFound
  let spent := rows.invitations.countP fun invitation => invitation.IsFor casing normalised ∧ invitation.IsUsable now
  require (spent = 1)
    (if rows.invitations.any (·.IsFor casing normalised) then .invitationNotUsable else .invitationNotFound)
  let invitations := spend casing normalised user.pk now rows.invitations
  match invitations.filter (·.IsFor casing normalised) with
  | [invitation] =>
    let entry ← (auditConsumption user.toUser invitation now).mapError .notAuditable
    return { rows with invitations, auditLogs := rows.auditLogs ++ [entry] }
  | _ => throw .multipleObjectsReturned

/-- One transaction: a refusal leaves no account. -/
def registerAccount (casing : Casing) (makePassword : String → String) (betaInvitationRequired : Bool)
    (email password : String) (pk : Uuid) (now : Instant) (rows : Rows) : Except Failure (Account × Rows) := do
  let (user, users) ← createAccount casing makePassword email password pk rows.users
  let rows := { rows with users }
  let rows ← if betaInvitationRequired then consumeInvitation casing user now rows else pure rows
  return (user, rows)

/-! ### What they can do -/

variable {casing : Casing} {makePassword : String → String} {email password : String} {pk : Uuid} {now : Instant}

theorem insertUser_ok {user : Account} {users users' : List Account} :
    insertUser casing user users = .ok users' ↔
      user.email.length ≤ 254 ∧ (∀ other ∈ users, ¬ user.Clashes casing other) ∧ users' = users ++ [user] := by
  simp only [insertUser, bind_eq_ok, require_eq_ok, exists_const, pure_eq_ok]

/-- An account is created under the stored form of its address, which was free. -/
theorem createAccount_ok {users users' : List Account} {user : Account}
    (h : createAccount casing makePassword email password pk users = .ok (user, users')) :
    email ≠ "" ∧ user.email = casing.storedEmail email ∧ user.email.length ≤ 254 ∧
      (∀ other ∈ users, ¬ user.Clashes casing other) ∧ users' = users ++ [user] := by
  simp only [createAccount, mapError_eq_ok, createUser, bind_eq_ok, require_eq_ok, exists_const, pure_eq_ok,
    Prod.mk.injEq] at h
  obtain ⟨hne, after, hinsert, rfl, rfl⟩ := h
  obtain ⟨hlength, hfree, rfl⟩ := insertUser_ok.mp hinsert
  exact ⟨hne, rfl, hlength, hfree, rfl⟩

theorem indexed_consume (user : Uuid) (now : Instant) (invitation : BetaInvitation) :
    casing.indexed (invitation.consume user now) = casing.indexed invitation := rfl

/-- The UPDATE moves no row from one address to another. -/
theorem filter_spend (user : Uuid) (now : Instant) (invitations : List BetaInvitation) :
    (spend casing email user now invitations).filter (·.IsFor casing email) =
      (invitations.filter (·.IsFor casing email)).map fun invitation =>
        if invitation.IsUsable now then invitation.consume user now else invitation := by
  rw [spend, List.filter_map, List.filter_congr (q := (·.IsFor casing email))]
  · apply List.map_congr_left
    intro invitation hinvitation
    have hfor : invitation.IsFor casing email := of_decide_eq_true (List.mem_filter.mp hinvitation).2
    simp only [hfor, true_and]
  · intro invitation _
    simp only [Function.comp_apply]
    split <;> rfl

/-- A lookup by a unique address finds one row at most. -/
theorem filter_isFor {invitations : List BetaInvitation} (hunique : Table.Unique casing.indexed invitations) :
    invitations.filter (·.IsFor casing email) = [] ∨
      ∃ invitation, invitations.filter (·.IsFor casing email) = [invitation] := by
  cases hfound : invitations.filter (·.IsFor casing email) with
  | nil => exact .inl rfl
  | cons first rest =>
    cases rest with
    | nil => exact .inr ⟨first, rfl⟩
    | cons second rest =>
      have hnodup : Table.Unique casing.indexed (first :: second :: rest) := by
        rw [← hfound]
        exact List.Nodup.sublist (List.filter_sublist.map _) hunique
      have hmem : ∀ invitation ∈ first :: second :: rest, invitation.IsFor casing email := by
        intro invitation hinvitation
        rw [← hfound] at hinvitation
        exact of_decide_eq_true (List.mem_filter.mp hinvitation).2
      have hsame : casing.indexed first = casing.indexed second :=
        (hmem first (by simp)).trans (hmem second (by simp)).symm
      simp [Table.Unique, hsame] at hnodup

/-- An UPDATE that matches a row leaves one to be read. -/
theorem filter_isFor_ne_nil {invitations : List BetaInvitation}
    (hspent : invitations.countP (fun invitation => invitation.IsFor casing email ∧ invitation.IsUsable now) = 1) :
    invitations.filter (·.IsFor casing email) ≠ [] := by
  have hpos : 0 < invitations.countP fun invitation => invitation.IsFor casing email ∧ invitation.IsUsable now := by
    rw [hspent]
    exact Nat.one_pos
  obtain ⟨invitation, hmem, hmatches⟩ := List.countP_pos_iff.mp hpos
  exact List.ne_nil_of_mem (List.mem_filter.mpr ⟨hmem, decide_eq_true (of_decide_eq_true hmatches).1⟩)

theorem unique_spend {user : Uuid} {invitations : List BetaInvitation}
    (hunique : Table.Unique casing.indexed invitations) :
    Table.Unique casing.indexed (spend casing email user now invitations) := by
  have hkept : (spend casing email user now invitations).map casing.indexed = invitations.map casing.indexed := by
    rw [spend, List.map_map]
    apply List.map_congr_left
    intro invitation _
    simp only [Function.comp_apply]
    split <;> rfl
  rw [Table.Unique, hkept]
  exact hunique

/-- Every refusal of an account with an address is one of two. -/
theorem consumeInvitation_cases (now : Instant) {user : Account} {rows : Rows} (hvalid : rows.Valid casing)
    (hemail : user.email ≠ "") :
    consumeInvitation casing user now rows = .error .invitationNotFound ∨
      consumeInvitation casing user now rows = .error .invitationNotUsable ∨
        ∃ rows', consumeInvitation casing user now rows = .ok rows' ∧ rows'.users = rows.users ∧ rows'.Valid casing := by
  by_cases hblank : strip user.email = ""
  · left
    rw [consumeInvitation, require_bind_of_not (not_not.mpr hblank)]
  rw [consumeInvitation, require_bind_of hblank]
  by_cases hspent : rows.invitations.countP
      (fun invitation => invitation.IsFor casing (strip user.email) ∧ invitation.IsUsable now) = 1
  · right; right
    obtain ⟨invitation, hinvitation⟩ := (filter_isFor hvalid).resolve_left (filter_isFor_ne_nil hspent)
    have hreason : strip "Account created against a beta invitation." ≠ "" := by decide
    have haudit : ∀ invitation, auditConsumption user.toUser invitation now = .ok (auditEntry user.toUser
        .betaInvitationConsumed betaInvitation invitation.pk "Account created against a beta invitation." none
        [("invited_email", invitation.email)] now) :=
      fun _ => recordAdminAction_ok.mpr ⟨hemail, hreason, rfl⟩
    rw [require_bind_of hspent]
    simp only [filter_spend, hinvitation, List.map_cons, List.map_nil, haudit]
    exact ⟨_, rfl, rfl, unique_spend hvalid⟩
  · rw [require_bind_of_not hspent]
    split
    · exact .inr (.inl rfl)
    · exact .inl rfl

/-- The address of the account an address is asked for with. -/
theorem email_new : (Account.new casing makePassword email password pk).email = casing.storedEmail email := rfl

theorem createUser_of_ne {users : List Account} (hne : email ≠ "") :
    createUser casing makePassword email password pk users =
      insertUser casing (Account.new casing makePassword email password pk) users >>= fun users =>
        pure (Account.new casing makePassword email password pk, users) := by
  rw [createUser, require_bind_of hne]

theorem createAccount_of_free {users : List Account} (hne : email ≠ "") (hlength : (casing.storedEmail email).length ≤ 254)
    (hfree : ∀ other ∈ users, ¬ (Account.new casing makePassword email password pk).Clashes casing other) :
    createAccount casing makePassword email password pk users =
      .ok (Account.new casing makePassword email password pk,
        users ++ [Account.new casing makePassword email password pk]) := by
  have hinsert := insertUser_ok.mpr ⟨hlength, hfree, rfl⟩
  rw [createAccount, createUser_of_ne hne, hinsert]
  rfl

theorem createAccount_of_clash {users : List Account} (hne : email ≠ "")
    (hlength : (casing.storedEmail email).length ≤ 254)
    (hclash : ¬ ∀ other ∈ users, ¬ (Account.new casing makePassword email password pk).Clashes casing other) :
    createAccount casing makePassword email password pk users = .error .emailAlreadyRegistered := by
  have hinsert : insertUser casing (Account.new casing makePassword email password pk) users = .error .integrityError := by
    rw [insertUser, email_new, require_bind_of hlength, require_bind_of_not hclash]
  rw [createAccount, createUser_of_ne hne, hinsert]
  rfl

theorem createAccount_of_long {users : List Account} (hne : email ≠ "")
    (hlong : ¬ (casing.storedEmail email).length ≤ 254) :
    createAccount casing makePassword email password pk users = .error .dataError := by
  have hinsert : insertUser casing (Account.new casing makePassword email password pk) users = .error .dataError := by
    rw [insertUser, email_new, require_bind_of_not hlong]
  rw [createAccount, createUser_of_ne hne, hinsert]
  rfl

/-- An address whose stored form fits its column is refused as taken, or gets an account. -/
theorem createAccount_cases (makePassword : String → String) (password : String) (pk : Uuid) (users : List Account)
    (hne : email ≠ "")
    (hlength : (casing.storedEmail email).length ≤ 254) :
    createAccount casing makePassword email password pk users = .error .emailAlreadyRegistered ∨
      ∃ user, createAccount casing makePassword email password pk users = .ok (user, users ++ [user]) := by
  by_cases hfree : ∀ other ∈ users, ¬ (Account.new casing makePassword email password pk).Clashes casing other
  · exact .inr ⟨_, createAccount_of_free hne hlength hfree⟩
  · exact .inl (createAccount_of_clash hne hlength hfree)

/-- The first account of all is refused for its address alone. -/
theorem createAccount_nil (casing : Casing) (makePassword : String → String) (email password : String) (pk : Uuid) :
    createAccount casing makePassword email password pk [] = .error .valueError ∨
      createAccount casing makePassword email password pk [] = .error .dataError ∨
        ∃ user, createAccount casing makePassword email password pk [] = .ok (user, [user]) := by
  by_cases hne : email ≠ ""
  · by_cases hlength : (casing.storedEmail email).length ≤ 254
    · exact .inr (.inr ⟨_, createAccount_of_free hne hlength fun other hother => absurd hother List.not_mem_nil⟩)
    · exact .inr (.inl (createAccount_of_long hne hlength))
  · left
    rw [createAccount, createUser, require_bind_of_not hne]
    rfl

theorem registerAccount_of_not_created (required : Bool) (now : Instant) (rows : Rows) {e : Failure}
    (h : createAccount casing makePassword email password pk rows.users = .error e) :
    registerAccount casing makePassword required email password pk now rows = .error e := by
  rw [registerAccount, h]
  rfl

theorem registerAccount_of_created (required : Bool) (now : Instant) (rows : Rows) {user : Account} {users : List Account}
    (h : createAccount casing makePassword email password pk rows.users = .ok (user, users)) :
    registerAccount casing makePassword required email password pk now rows =
      (if required then consumeInvitation casing user now { rows with users } else .ok { rows with users }).map
        fun rows => (user, rows) := by
  simp only [registerAccount, h, bind, Except.bind, pure, Except.pure, Except.map]
  cases required with
  | false => rfl
  | true => simp only [if_true]

end EPlatform.Accounts
