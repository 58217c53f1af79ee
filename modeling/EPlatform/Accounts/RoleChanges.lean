import EPlatform.Accounts.Services
import EPlatform.Runs.Run

/-!
# Role changes through the admin site

One account and the administrative trail, and any sequence of change forms submitted for it by administrators other than
its owner. Django writes the cleaned values onto the object before `save_model` sees it, and lists the fields whose
values differ from the stored ones.
-/

namespace EPlatform.Accounts

open Runs

/-- The text a role is stored as. -/
def roleText : Role → String
  | .student => "STUDENT"
  | .instructor => "INSTRUCTOR"
  | .admin => "ADMIN"

structure Administered where
  account : Account
  auditLog : List AuditLog
  deriving DecidableEq, Repr

/-- What `change_role` raises. A role that is not one of the three is not a `Role`. -/
inductive RoleFailure
  | roleUnchanged (role : Role)
  | notAuditable (missing : NotAuditable)
  deriving DecidableEq, Repr

/-- `user.save(update_fields=["role"])`. -/
def Administered.saveRole (s : Administered) (role : Role) : Administered :=
  { s with account := { s.account with role } }

/-- `obj.save(update_fields=["is_active"])`. -/
def Administered.saveIsActive (s : Administered) (isActive : Bool) : Administered :=
  { s with account := { s.account with isActive } }

def changeRole (actor : User) (user : Account) (role : Role) (reason : String) (ipAddress : Option String)
    (now : Instant) (s : Administered) : Except RoleFailure Administered := do
  let previous := user.role
  require (previous ≠ role) (.roleUnchanged role)
  let s := s.saveRole role
  let entry ← (recordAdminAction actor .roleChanged "user" user.pk reason ipAddress
    [("previous_role", roleText previous), ("new_role", roleText role)] now).mapError .notAuditable
  return { s with auditLog := s.auditLog ++ [entry] }

inductive FormField
  | role
  | isActive
  deriving DecidableEq, Repr

/-- `contextlib.suppress(RoleUnchanged)` around the service's savepoint. -/
def suppressUnchanged (s : Administered) : Except RoleFailure Administered → Except RoleFailure Administered
  | .error (.roleUnchanged _) => .ok s
  | result => result

/-- `UserAdmin.save_model`. `initialRole` is `form.initial["role"]`. -/
def saveModel (actor : User) (obj : Account) (initialRole : Role) (changedData : List FormField)
    (ipAddress : Option String) (now : Instant) (s : Administered) : Except RoleFailure Administered := do
  let s ←
    if .role ∈ changedData then
      suppressUnchanged s (changeRole actor obj obj.role
        ("Changed via the admin site from " ++ roleText initialRole ++ ".") ipAddress now s)
    else .ok s
  return if .isActive ∈ changedData then s.saveIsActive obj.isActive else s

/-- A valid change form, from somebody other than the account's owner. -/
structure Submission where
  actor : User
  role : Role
  isActive : Bool
  ipAddress : Option String
  now : Instant
  deriving DecidableEq, Repr

/-- The instance with the cleaned values written onto it. -/
def Submission.construct (submission : Submission) (stored : Account) : Account :=
  { stored with role := submission.role, isActive := submission.isActive }

def Submission.changedData (submission : Submission) (stored : Account) : List FormField :=
  (if submission.role = stored.role then [] else [.role]) ++
    if submission.isActive = stored.isActive then [] else [.isActive]

/-- The change view is one transaction: what raises leaves nothing behind. -/
def submit (s : Administered) (submission : Submission) : Administered :=
  let stored := s.account
  match saveModel submission.actor (submission.construct stored) stored.role (submission.changedData stored)
      submission.ipAddress submission.now s with
  | .ok after => after
  | .error _ => s

/-! ### What the trail should say -/

/-- The roles an audit row moved the account between. -/
def movedBetween (entry : AuditLog) : Option (String × String) :=
  (entry.details.lookup "previous_role").bind fun previous =>
    (entry.details.lookup "new_role").map fun new => (previous, new)

def Administered.moves (s : Administered) : List (String × String) :=
  (s.auditLog.filter fun entry => entry.action = .roleChanged ∧ entry.targetId = s.account.pk).filterMap movedBetween

/-- Each move starts where the one before it ended, and goes somewhere else. -/
def LeadsTo (first last : String) : List (String × String) → Prop
  | [] => first = last
  | (previous, new) :: later => previous = first ∧ previous ≠ new ∧ LeadsTo new last later

instance LeadsTo.decidable (last : String) :
    (first : String) → (moves : List (String × String)) → Decidable (LeadsTo first last moves)
  | first, [] => inferInstanceAs (Decidable (first = last))
  | first, (previous, new) :: later =>
    have := LeadsTo.decidable last new later
    inferInstanceAs (Decidable (previous = first ∧ previous ≠ new ∧ LeadsTo new last later))

/-- The submission took effect, and the trail leads from the first role to the stored one. -/
structure TakesEffect (first : Role) (submission : Submission) (after : Administered) : Prop where
  role : after.account.role = submission.role
  isActive : after.account.isActive = submission.isActive
  trail : LeadsTo (roleText first) (roleText after.account.role) after.moves

instance (first : Role) (submission : Submission) (after : Administered) :
    Decidable (TakesEffect first submission after) :=
  decidable_of_iff
    (after.account.role = submission.role ∧ after.account.isActive = submission.isActive ∧
      LeadsTo (roleText first) (roleText after.account.role) after.moves)
    ⟨fun ⟨h₁, h₂, h₃⟩ => ⟨h₁, h₂, h₃⟩, fun ⟨h₁, h₂, h₃⟩ => ⟨h₁, h₂, h₃⟩⟩

/-! ### What a submission does -/

/-- The object that reaches the service has the new role already: the service always sees a change to the role there is. -/
theorem changeRole_construct (submission : Submission) (stored : Account) (reason : String) (s : Administered) :
    changeRole submission.actor (submission.construct stored) (submission.construct stored).role reason
      submission.ipAddress submission.now s = .error (.roleUnchanged submission.role) :=
  require_bind_of_not fun hchanged => hchanged rfl

theorem saveModel_construct (submission : Submission) (s : Administered) :
    saveModel submission.actor (submission.construct s.account) s.account.role (submission.changedData s.account)
        submission.ipAddress submission.now s =
      .ok (if .isActive ∈ submission.changedData s.account then s.saveIsActive submission.isActive else s) := by
  rw [saveModel]
  split
  · rw [changeRole_construct]
    rfl
  · rfl

/-- A submission saves `is_active`, and neither a role nor an audit row. -/
theorem submit_eq (s : Administered) (submission : Submission) :
    submit s submission = s.saveIsActive submission.isActive := by
  simp only [submit, saveModel_construct]
  by_cases hactive : submission.isActive = s.account.isActive
  · have hlisted : FormField.isActive ∉ submission.changedData s.account := by
      simp [Submission.changedData, hactive]
    rw [if_neg hlisted, hactive]
    rfl
  · have hlisted : FormField.isActive ∈ submission.changedData s.account := by
      simp [Submission.changedData, hactive]
    rw [if_pos hlisted]

theorem takesEffect_iff {first : Role} {s : Administered} (submission : Submission)
    (htrail : LeadsTo (roleText first) (roleText s.account.role) s.moves) :
    TakesEffect first submission (submit s submission) ↔ submission.role = s.account.role := by
  rw [submit_eq]
  constructor
  · intro heffect
    exact heffect.role.symm
  · intro hsame
    exact ⟨hsame.symm, rfl, htrail⟩

/-! ### Sequences of submissions -/

/-- An account before any of its role changes. -/
def untouched (account : Account) : Administered := ⟨account, []⟩

/-- Every submission takes effect, and is on the trail, in exactly the sequences in which none of them changes the role. -/
theorem along_takesEffect_iff (account : Account) (submissions : List Submission) :
    Along submit (fun s submission => TakesEffect account.role submission (submit s submission)) (untouched account)
        submissions ↔
      Along submit (fun s submission => submission.role = s.account.role) (untouched account) submissions := by
  apply along_congr (I := fun s => LeadsTo (roleText account.role) (roleText s.account.role) s.moves)
  · intro s submission htrail
    rw [submit_eq]
    exact htrail
  · intro s submission htrail
    exact takesEffect_iff submission htrail
  · rfl

def student : Account where
  pk := 9
  email := "student@example.test"
  role := .student
  isSuperuser := false
  password := "!"
  isEmailVerified := true
  isActive := true

/-- An administrator makes a student an instructor, and the student stays a student. -/
theorem role_change_is_lost :
    ¬ Along submit (fun s submission => TakesEffect student.role submission (submit s submission)) (untouched student)
      [⟨⟨8, "admin@example.test", .admin, false⟩, .instructor, true, none, 100⟩] := by
  decide

end EPlatform.Accounts
