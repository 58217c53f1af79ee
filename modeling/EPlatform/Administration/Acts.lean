import EPlatform.Administration.Services

/-!
# What an administrative act does

Every change an act may make, with the entry of the trail that names it. The acts that tell nobody make theirs together
with its entry or not at all.
-/

namespace EPlatform.Administration

open Runs
open Accounts (Account BetaInvitation betaInvitation INVITATION_LIFETIME)
open Catalog (ALLOWED_TRANSITIONS)
open Notifications (CourseReviewed)

inductive Act
  | grantAccessOverride (user : Account) (days : Int) (reason : String)
  | approve (course : CourseObject) (notes : String)
  | reject (course : CourseObject) (notes : String)
  | requestChanges (course : CourseObject) (notes : String)
  | changeRole (user : Account) (role reason : String)
  | issueInvitation (email reason : String)
  | revokeInvitation (email reason : String)
  deriving DecidableEq, Repr

structure Request where
  actor : Option Account
  act : Act
  ipAddress : Option String
  deriving DecidableEq, Repr

def Request.call (env : Env) (request : Request) : Call Unit :=
  match request.act with
  | .grantAccessOverride user days reason => env.grantAccessOverride request.actor user days reason request.ipAddress
  | .approve course notes => env.approve request.actor course notes request.ipAddress
  | .reject course notes => env.reject request.actor course notes request.ipAddress
  | .requestChanges course notes => env.requestChanges request.actor course notes request.ipAddress
  | .changeRole user role reason => env.changeRole request.actor user role reason request.ipAddress
  | .issueInvitation email reason => env.issueInvitation request.actor email reason request.ipAddress
  | .revokeInvitation email reason => env.revokeInvitation request.actor email reason request.ipAddress

structure Review where
  course : CourseObject
  verdict : Verdict
  notes : String
  deriving DecidableEq, Repr

/-- The three acts that decide on a course. -/
def Act.review (env : Env) : Act → Option Review
  | .approve course notes => some ⟨course, env.approved, notes⟩
  | .reject course notes => some ⟨course, Env.returned .rejected, notes⟩
  | .requestChanges course notes => some ⟨course, Env.returned .changesRequested, notes⟩
  | _ => none

/-- Where a call is made: by itself, or inside a block of its caller's, that has registered what it has. -/
inductive Setting (casing : Accounts.Casing)
  | alone (db : Database casing)
  | nested (rows : Rows) (registered : List CourseReviewed)

def Setting.connection {casing : Accounts.Casing} : Setting casing → Connection Rows CourseReviewed
  | .alone db => ⟨db.rows, false, []⟩
  | .nested rows registered => ⟨rows, true, registered⟩

/-! ### What an act does -/

structure Target where
  targetType : String
  pk : Uuid
  deriving DecidableEq, Repr

/-- Longer than nothing, and no longer than an administrator may grant. -/
structure AccessOverride.IsBounded (override : AccessOverride) : Prop where
  endsLater : override.startsAt < override.endsAt
  ends : (override.endsAt : Int) ≤ override.startsAt + ACCESS_OVERRIDE_MAX_DAYS * Entitlements.DAY

instance (override : AccessOverride) : Decidable override.IsBounded :=
  decidable_of_iff
    (override.startsAt < override.endsAt ∧
      (override.endsAt : Int) ≤ override.startsAt + ACCESS_OVERRIDE_MAX_DAYS * Entitlements.DAY)
    ⟨fun ⟨h₁, h₂⟩ => ⟨h₁, h₂⟩, fun ⟨h₁, h₂⟩ => ⟨h₁, h₂⟩⟩

/-- The change of an act, by whom, what it is recorded as and against what. -/
inductive Changes (env : Env) (actor : Account) : Act → AdminAction → Target → Rows → Rows → Prop
  | granted {user : Account} {days : Int} {reason : String} {override : AccessOverride} {rows : Rows}
    (huser : override.user = user.pk) (hgrantor : override.grantedBy = actor.pk) (hbounded : override.IsBounded)
    (hends : (override.endsAt : Int) = override.startsAt + days * Entitlements.DAY) :
    Changes env actor (.grantAccessOverride user days reason) .accessOverrideGranted ⟨"user", user.pk⟩ rows
      { rows with overrides := rows.overrides ++ [override] }
  | decided {act : Act} {review : Review} {rows : Rows} (hreview : act.review env = some review)
    (hstored : ∃ row ∈ rows.courses, row.pk = review.course.pk)
    (hallowed : (review.course.status, review.verdict.target) ∈ ALLOWED_TRANSITIONS) :
    Changes env actor act review.verdict.audit ⟨"course", review.course.pk⟩ rows
      (env.reviewed review.verdict actor review.course review.notes rows)
  | roleChanged {user : Account} {role reason : String} {new : Role} {rows : Rows} (hrole : roleOf role = some new)
    (hchanged : user.role ≠ new) (hstored : rows.HasUser user.pk) :
    Changes env actor (.changeRole user role reason) .roleChanged ⟨"user", user.pk⟩ rows
      (Env.withRole user new rows)
  | issued {email reason : String} {invitation : BetaInvitation} {rows : Rows}
    (hfree : env.invitationFor email rows = none) (hemail : invitation.email = strip email)
    (hopen : invitation.revokedAt = none ∧ invitation.consumedAt = none)
    (hexpires : invitation.expiresAt = env.now + INVITATION_LIFETIME) :
    Changes env actor (.issueInvitation email reason) .betaInvitationIssued ⟨betaInvitation, invitation.pk⟩ rows
      { rows with invitations := rows.invitations ++ [invitation] }
  | reopened {email reason : String} {existing : BetaInvitation} {rows : Rows}
    (hfound : env.invitationFor email rows = some existing) (hunspent : existing.consumedAt = none) :
    Changes env actor (.issueInvitation email reason) .betaInvitationIssued ⟨betaInvitation, existing.pk⟩ rows
      { rows with
        invitations := Table.save (·.pk) (existing.reopen (strip email) (env.now + INVITATION_LIFETIME) env.now)
          rows.invitations }
  | revoked {email reason : String} {existing : BetaInvitation} {rows : Rows}
    (hfound : env.invitationFor email rows = some existing) (hunspent : existing.consumedAt = none)
    (hopen : existing.revokedAt = none) :
    Changes env actor (.revokeInvitation email reason) .betaInvitationRevoked ⟨betaInvitation, existing.pk⟩ rows
      { rows with invitations := Table.save (·.pk) (existing.revoke env.now) rows.invitations }

structure Names (actor : Account) (action : AdminAction) (target : Target) (entry : AuditLog) : Prop where
  takenBy : entry.actor = actor.pk
  label : entry.actorLabel = actor.email ∧ actor.email ≠ ""
  taken : entry.action = action
  targetType : entry.targetType = target.targetType
  targetId : entry.targetId = target.pk
  reason : strip entry.reason ≠ ""

/-- The change with its record, or neither if there was nothing left to revoke. -/
inductive Answered (env : Env) (request : Request) (rows : Rows) : Rows → Prop
  | recorded {actor : Account} {action : AdminAction} {target : Target} {changed : Rows} {entry : AuditLog}
    (hactor : request.actor = some actor) (hchanges : Changes env actor request.act action target rows changed)
    (hnames : Names actor action target entry) (hchecked : (changed.record entry).Checked env.casing) :
    Answered env request rows (changed.record entry)
  | alreadyRevoked {email reason : String} {existing : BetaInvitation} (hact : request.act = .revokeInvitation email reason)
    (hfound : env.invitationFor email rows = some existing) (hunspent : existing.consumedAt = none)
    (hrevoked : existing.revokedAt ≠ none) : Answered env request rows rows

variable {env : Env} {request : Request} {rows rows' : Rows}
  {s : Connection Rows CourseReviewed} {actor : Option Account} {ipAddress : Option String}

/-- A change leaves the trail alone: the one entry of an act is its record. -/
theorem Changes.auditLog_eq {by_ : Account} {act : Act} {action : AdminAction} {target : Target}
    (h : Changes env by_ act action target rows rows') : rows'.auditLog = rows.auditLog := by
  cases h with
  | granted | decided | roleChanged | issued | reopened | revoked => rfl

theorem Answered.auditLog_eq (h : Answered env request rows rows') :
    ∃ entries, rows'.auditLog = rows.auditLog ++ entries ∧ entries.length ≤ 1 := by
  cases h with
  | @recorded _ _ _ changed entry _ hchanges =>
    refine ⟨[entry], ?_, Nat.le_refl 1⟩
    show changed.auditLog ++ [entry] = _
    rw [hchanges.auditLog_eq]
  | alreadyRevoked => exact ⟨[], (List.append_nil _).symm, Nat.zero_le 1⟩

/-! ### The acts that tell nobody -/

theorem names_auditEntry {by_ : Account} {action : AdminAction} {targetType : String} {targetId : Uuid} {reason : String}
    {details : List (String × String)} {entry : AuditLog} (h : env.Records rows by_ reason entry) :
    Names by_ action ⟨targetType, targetId⟩
      (auditEntry by_.toUser action targetType targetId reason ipAddress details env.now) where
  takenBy := rfl
  label := ⟨rfl, h.label⟩
  taken := rfl
  targetType := rfl
  targetId := rfl
  reason := by
    show strip (strip reason) ≠ ""
    rw [strip_strip]
    exact h.reason

/-- Days from one to the most an administrator may grant make an override that ends. -/
theorem isBounded_newOverride {grantor user : Account} {days : Int} {reason : String}
    (hdays : 1 ≤ days ∧ days ≤ ACCESS_OVERRIDE_MAX_DAYS) : (env.newOverride grantor user days reason).IsBounded := by
  obtain ⟨n, rfl⟩ := Int.eq_ofNat_of_zero_le (show 0 ≤ days by omega)
  obtain ⟨hleast, hmost⟩ := hdays
  have hmost : (n : Int) ≤ 90 := hmost
  constructor
  · exact Nat.lt_add_of_pos_right (Nat.mul_pos (by omega) (by decide))
  · show ((env.now + (n : Int).toNat * Entitlements.DAY : Nat) : Int) ≤ env.now + 90 * Entitlements.DAY
    simp only [Int.toNat_natCast, Entitlements.DAY]
    omega

theorem grantAccessOverride_allOrNothing {user : Account} {days : Int} {reason : String}
    (hs : s.inBlock = true ∨ s.registered = []) :
    Code.AllOrNothing (Answered env ⟨actor, .grantAccessOverride user days reason, ipAddress⟩)
      (env.grantAccessOverride actor user days reason ipAddress) s := by
  refine Code.allOrNothing_lift_bind.mpr fun _ hdays => Code.allOrNothing_lift_bind.mpr fun _ _ => ?_
  have hdays := require_eq_ok.mp hdays
  refine Code.Does.allOrNothing (fun rows registered u t h => ?_) env.backend hs
  obtain ⟨override, _, hcreate, hrecord⟩ := Code.bind_eq_ok.mp h
  obtain ⟨grantor, rfl, rfl, rfl⟩ := Env.createOverride_eq_ok hcreate
  obtain ⟨by_, hby, hrecords, rfl⟩ := Env.recordAdminAction_eq_ok hrecord
  obtain rfl := Option.some.inj hby
  refine ⟨.recorded rfl (.granted rfl rfl (isBounded_newOverride hdays) ?_) (names_auditEntry hrecords)
    hrecords.checked, rfl⟩
  show ((env.now + days.toNat * Entitlements.DAY : Nat) : Int) = env.now + days * Entitlements.DAY
  have hnonneg : (days.toNat : Int) = days := Int.toNat_of_nonneg (by omega)
  push_cast
  rw [hnonneg]

theorem changeRole_allOrNothing {user : Account} {role reason : String} (hs : s.inBlock = true ∨ s.registered = []) :
    Code.AllOrNothing (Answered env ⟨actor, .changeRole user role reason, ipAddress⟩)
      (env.changeRole actor user role reason ipAddress) s := by
  refine Code.Does.allOrNothing (fun rows registered u t h => ?_) env.backend hs
  obtain ⟨new, by_, hrole, rfl, hchanged, hstored, hrecords, rfl⟩ := Env.changeRole_eq_ok (Code.atomic_eq_ok.mpr h)
  exact ⟨.recorded rfl (.roleChanged hrole hchanged hstored) (names_auditEntry hrecords) hrecords.checked, rfl⟩

/-- Looking an address up without the white space around it finds the same. -/
theorem invitationFor_strip (email : String) : env.invitationFor (strip email) rows = env.invitationFor email rows := by
  have hfor : ∀ invitation : BetaInvitation,
      invitation.IsFor env.casing (strip email) ↔ invitation.IsFor env.casing email := by
    intro invitation
    show _ = env.casing.lower (strip (strip email)) ↔ _
    rw [strip_strip]
    rfl
  simp only [Env.invitationFor, hfor]

theorem issueInvitation_allOrNothing {email reason : String} (hs : s.inBlock = true ∨ s.registered = []) :
    Code.AllOrNothing (Answered env ⟨actor, .issueInvitation email reason, ipAddress⟩)
      (env.issueInvitation actor email reason ipAddress) s := by
  refine Code.Does.allOrNothing (fun rows registered u t h => ?_) env.backend hs
  simp only [Code.bind_eq_ok, Code.lift_eq_ok, mapError_eq_ok, require_eq_ok] at h
  obtain ⟨by_, _, ⟨hadmin, rfl⟩, _, _, ⟨_, rfl⟩, found, _, hselect, ⟨invitation, reopened⟩, _, hadmit, hrecord⟩ := h
  obtain rfl := Env.eq_some_of_requireAdmin hadmin
  obtain ⟨_, rfl, rfl⟩ := Env.select_eq_ok.mp hselect
  rw [invitationFor_strip] at hadmit
  rcases Env.admission_eq_ok hadmit with ⟨hfree, hnew, rfl⟩ | ⟨existing, hfound, hunspent, hreopened, rfl⟩
  · obtain ⟨hrecords, rfl⟩ := Env.recordAdminAction_some_eq_ok.mp hrecord
    obtain rfl : invitation = _ := hnew
    exact ⟨.recorded rfl (.issued hfree rfl ⟨rfl, rfl⟩ rfl) (names_auditEntry hrecords) hrecords.checked, rfl⟩
  · obtain ⟨hrecords, rfl⟩ := Env.recordAdminAction_some_eq_ok.mp hrecord
    obtain rfl : invitation = _ := hreopened
    exact ⟨.recorded rfl (.reopened hfound hunspent) (names_auditEntry hrecords) hrecords.checked, rfl⟩

theorem revokeInvitation_allOrNothing {email reason : String} (hs : s.inBlock = true ∨ s.registered = []) :
    Code.AllOrNothing (Answered env ⟨actor, .revokeInvitation email reason, ipAddress⟩)
      (env.revokeInvitation actor email reason ipAddress) s := by
  refine Code.Does.allOrNothing (fun rows registered u t h => ?_) env.backend hs
  simp only [Code.bind_eq_ok, Code.lift_eq_ok, mapError_eq_ok] at h
  obtain ⟨by_, _, ⟨hadmin, rfl⟩, found, _, hselect, hrest⟩ := h
  obtain rfl := Env.eq_some_of_requireAdmin hadmin
  obtain ⟨_, hfound, rfl⟩ := Env.select_eq_ok.mp hselect
  cases found with
  | none => cases hrest
  | some existing =>
    simp only [Code.bind_eq_ok, Code.lift_eq_ok, require_eq_ok] at hrest
    obtain ⟨_, _, ⟨hunspent, rfl⟩, hrest⟩ := hrest
    split_ifs at hrest with hrevoked
    · obtain ⟨_, rfl⟩ := Code.pure_eq_ok.mp hrest
      exact ⟨.alreadyRevoked rfl hfound.symm hunspent (Option.isSome_iff_ne_none.mp hrevoked), rfl⟩
    · obtain ⟨_, _, hsave, hrecord⟩ := Code.bind_eq_ok.mp hrest
      obtain ⟨_, _, _, rfl⟩ := Env.write_eq_ok.mp hsave
      obtain ⟨hrecords, rfl⟩ := Env.recordAdminAction_some_eq_ok.mp hrecord
      have hopen : existing.revokedAt = none := by simpa using hrevoked
      exact ⟨.recorded rfl (.revoked hfound.symm hunspent hopen) (names_auditEntry hrecords) hrecords.checked, rfl⟩

/-! ### The services as whole functions -/

section Refinement

variable {by_ : Account} {registered : List CourseReviewed} {u : Unit} {t : Connection Rows CourseReviewed}

theorem newReviewEvent_eq {verdict : Verdict} {course : CourseObject} {row : Catalog.Course} {notes : String}
    (hpk : row.pk = course.pk) :
    env.newReviewEvent by_ course verdict notes = ⟨row.pk, by_.pk, verdict.event, notes, env.now⟩ := by
  rw [hpk]
  rfl

/-- Sent statement by statement, an approval leaves of a course and its two trails what `Catalog.approve` computes, and
registers its notice. -/
theorem approve_refines {course : CourseObject} {row : Catalog.Course} {notes : String} (hpk : row.pk = course.pk)
    (h : env.review env.approved (some by_) course notes ipAddress ⟨rows, true, registered⟩ = (.ok u, t)) :
    ∃ context, t.registered = registered ++ [context] ∧
      Catalog.approve course.toCourse by_.toUser context.recipient ⟨notes, ipAddress⟩ env.now
          ⟨row, rows.reviewEvents, rows.auditLog⟩ =
        .ok (⟨env.decided env.approved row, t.rows.reviewEvents, t.rows.auditLog⟩, .reviewed context) := by
  obtain ⟨_, address, hby, hdecides, _, rfl⟩ := Env.review_eq_ok.mp h
  obtain rfl := Option.some.inj hby
  refine ⟨_, rfl, Catalog.approve_ok.mpr ⟨hdecides.admin, hdecides.allowed, Catalog.recordReview_ok.mpr
    ⟨hdecides.records.label, hdecides.records.reason, ?_⟩, rfl⟩⟩
  rw [Catalog.Rows.mk.injEq]
  exact ⟨rfl, congrArg (rows.reviewEvents ++ [·]) (newReviewEvent_eq hpk), rfl⟩

theorem returnToDraft_refines {action : Catalog.ReturnAction} {course : CourseObject} {row : Catalog.Course}
    {notes : String} (hpk : row.pk = course.pk)
    (h : env.returnToDraft action (some by_) course notes ipAddress ⟨rows, true, registered⟩ = (.ok u, t)) :
    ∃ context, t.registered = registered ++ [context] ∧
      Catalog.returnToDraft course.toCourse by_.toUser context.recipient action ⟨notes, ipAddress⟩ env.now
          ⟨row, rows.reviewEvents, rows.auditLog⟩ =
        .ok (⟨env.decided (Env.returned action) row, t.rows.reviewEvents, t.rows.auditLog⟩, .reviewed context) := by
  obtain ⟨_, address, hby, hdecides, _, rfl⟩ := Env.review_eq_ok.mp h
  obtain rfl := Option.some.inj hby
  refine ⟨_, rfl, Catalog.returnToDraft_ok.mpr ⟨hdecides.admin, hdecides.allowed, Catalog.recordReview_ok.mpr
    ⟨hdecides.records.label, hdecides.records.reason, ?_⟩, ?_⟩⟩
  · rw [Catalog.Rows.mk.injEq]
    exact ⟨rfl, congrArg (rows.reviewEvents ++ [·]) (newReviewEvent_eq hpk), rfl⟩
  · cases action <;> rfl

theorem roleText_of_roleOf {role : String} {new : Role} (h : roleOf role = some new) : Accounts.roleText new = role := by
  simpa using List.find?_some h

theorem changeRole_refines {user row : Account} {role reason : String}
    (h : env.changeRole (some by_) user role reason ipAddress ⟨rows, true, registered⟩ = (.ok u, t)) :
    ∃ new, roleOf role = some new ∧
      Accounts.changeRole by_.toUser user new reason ipAddress env.now ⟨row, rows.auditLog⟩ =
        .ok ⟨{ row with role := new }, t.rows.auditLog⟩ := by
  obtain ⟨new, _, hrole, hby, hchanged, _, hrecords, rfl⟩ := Env.changeRole_eq_ok h
  obtain rfl := Option.some.inj hby
  refine ⟨new, hrole, ?_⟩
  simp only [Accounts.changeRole, require_bind_of hchanged, roleText_of_roleOf hrole, bind_eq_ok, mapError_eq_ok,
    recordAdminAction_ok, pure_eq_ok]
  exact ⟨_, ⟨hrecords.label, hrecords.reason, rfl⟩, rfl⟩

end Refinement

end EPlatform.Administration
