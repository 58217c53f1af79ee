import EPlatform.Accounts.User
import EPlatform.Core.Text
import EPlatform.Runs.Transaction

/-!
# The administrative trail

One row for each administrative action, written in the transaction that performs it.
-/

namespace EPlatform

open Runs

inductive AdminAction
  | accessOverrideGranted
  | accessOverrideRevoked
  | courseApproved
  | courseRejected
  | courseChangesRequested
  | roleChanged
  | refundIssued
  | betaInvitationIssued
  | betaInvitationRevoked
  | betaInvitationConsumed
  deriving DecidableEq, Repr

/-- `metadata` is the reason and the details beside it. -/
structure AuditLog where
  actor : Uuid
  actorLabel : String
  action : AdminAction
  targetType : String
  targetId : Uuid
  reason : String
  details : List (String × String)
  ipAddress : Option String
  createdAt : Instant
  deriving DecidableEq, Repr

inductive NotAuditable
  | noLabel
  | noReason
  deriving DecidableEq, Repr

def auditEntry (actor : User) (action : AdminAction) (targetType : String) (targetId : Uuid) (reason : String)
    (ipAddress : Option String) (details : List (String × String)) (now : Instant) : AuditLog where
  actor := actor.pk
  actorLabel := actor.email
  action := action
  targetType := targetType
  targetId := targetId
  reason := strip reason
  details := details
  ipAddress := ipAddress
  createdAt := now

def recordAdminAction (actor : User) (action : AdminAction) (targetType : String) (targetId : Uuid) (reason : String)
    (ipAddress : Option String) (details : List (String × String)) (now : Instant) : Except NotAuditable AuditLog := do
  require (actor.email ≠ "") .noLabel
  require (strip reason ≠ "") .noReason
  return auditEntry actor action targetType targetId reason ipAddress details now

/-- `notes.strip() or fallback`. -/
def reasonOr (notes fallback : String) : String := if strip notes = "" then fallback else strip notes

theorem strip_reasonOr {notes fallback : String} (h : strip fallback ≠ "") : strip (reasonOr notes fallback) ≠ "" := by
  unfold reasonOr
  split
  · exact h
  · rename_i hnotes
    rwa [strip_strip]

theorem recordAdminAction_ok {actor : User} {action : AdminAction} {targetType : String} {targetId : Uuid}
    {reason : String} {ipAddress : Option String} {details : List (String × String)} {now : Instant}
    {entry : AuditLog} :
    recordAdminAction actor action targetType targetId reason ipAddress details now = .ok entry ↔
      actor.email ≠ "" ∧ strip reason ≠ "" ∧
        entry = auditEntry actor action targetType targetId reason ipAddress details now := by
  simp only [recordAdminAction, bind_eq_ok, require_eq_ok, exists_const, pure_eq_ok]

end EPlatform
