import EPlatform.Core.Columns

/-!
# Users and privileges

The part of `accounts` every other app asks about: who somebody is, and whether they administer content they do not own.
-/

namespace EPlatform

inductive Role
  | student
  | instructor
  | admin
  deriving DecidableEq, Repr

structure User where
  pk : Uuid
  email : String
  role : Role
  isSuperuser : Bool
  deriving DecidableEq, Repr

/-- Role or `is_superuser`, and not `is_staff`. -/
def isPlatformAdministrator (user : User) : Bool := user.role = .admin || user.isSuperuser

/-- `media_assets.services.may_manage`, on the instructor of the lesson's course. -/
def mayManage (instructor : Uuid) (user : User) : Bool := isPlatformAdministrator user || instructor = user.pk

end EPlatform
