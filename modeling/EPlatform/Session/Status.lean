import EPlatform.Runs.Run

/-!
# The store behind the session banner

`createSessionStatusStore`. Requests overlap, and the answer to any of them may come at any time or never, so the calls
on the store come in any order. `window` says whether there is one: on a server every call does nothing.
-/

namespace EPlatform.SessionStatus

inductive Status
  | unknown
  | confirmed
  | ended (detail : String)
  deriving DecidableEq, Repr

/-- A ticket that is not `null`. -/
structure Ticket where
  epoch : Nat
  sequence : Nat
  confirmed : Bool
  observable : Bool
  deriving DecidableEq, Repr

inductive Intent
  | login
  | logout
  deriving DecidableEq, Repr

structure Store where
  snapshot : Status := .unknown
  epoch : Nat := 0
  sequence : Nat := 0
  lastObservation : Nat := 0
  operation : Option Nat := none
  deriving DecidableEq, Repr

namespace Store

variable (window : Bool) (s : Store)

def begin (intent : Option Intent) : Store × Option Ticket :=
  if window = false then (s, none)
  else
    let sequence := s.sequence + 1
    let s :=
      match intent with
      | some _ =>
        { snapshot := .unknown, epoch := s.epoch + 1, sequence := sequence, lastObservation := sequence,
          operation := some sequence }
      | none => { s with sequence := sequence }
    (s, some ⟨s.epoch, s.sequence, s.snapshot = .confirmed, s.operation = none⟩)

def current (ticket : Ticket) : Prop :=
  window = true ∧ ticket.observable = true ∧ ticket.epoch = s.epoch ∧ s.lastObservation ≤ ticket.sequence ∧
    s.operation = none

instance (ticket : Ticket) : Decidable (s.current window ticket) := by
  unfold current
  infer_instance

def finish : Option Ticket → Store
  | some ticket =>
    if window = true ∧ ticket.epoch = s.epoch ∧ s.operation = some ticket.sequence then { s with operation := none } else s
  | none => s

def confirm : Option Ticket → Store
  | some ticket =>
    if s.current window ticket then { s with lastObservation := ticket.sequence, snapshot := .confirmed } else s
  | none => s

/-- The session a ticket may say has ended: the one it was begun in. -/
def mayEnd (ticket : Ticket) : Prop :=
  s.current window ticket ∧ ticket.confirmed = true ∧ s.snapshot = .confirmed

instance (ticket : Ticket) : Decidable (s.mayEnd window ticket) := by
  unfold mayEnd
  infer_instance

def authenticationRequired (detail : String) : Option Ticket → Store
  | some ticket =>
    if s.mayEnd window ticket then
      { s with epoch := s.epoch + 1, lastObservation := ticket.sequence, snapshot := .ended detail }
    else s
  | none => s

end Store

/-! ### Calls -/

/-- A call on the store. Tickets are numbered in the order `begin` has returned them. -/
inductive Call
  | begin (intent : Option Intent)
  | finish (ticket : Nat)
  | confirm (ticket : Nat)
  | authenticationRequired (ticket : Nat) (detail : String)
  deriving DecidableEq, Repr

/-- The store, and the tickets it has returned. -/
structure Session where
  store : Store := {}
  tickets : List (Option Ticket) := []
  deriving DecidableEq, Repr

/-- The ticket of a number, `null` where none has been returned yet. -/
def Session.ticket (s : Session) (n : Nat) : Option Ticket := s.tickets[n]?.join

variable (window : Bool)

def perform (s : Session) : Call → Session
  | .begin intent =>
    { store := (s.store.begin window intent).1, tickets := s.tickets ++ [(s.store.begin window intent).2] }
  | .finish n => { s with store := s.store.finish window (s.ticket n) }
  | .confirm n => { s with store := s.store.confirm window (s.ticket n) }
  | .authenticationRequired n detail => { s with store := s.store.authenticationRequired window detail (s.ticket n) }

/-- What a run of calls on a new store comes to. -/
def after (calls : List Call) : Session := Runs.final (perform window) {} calls

/-- The observation is accepted, of the ticket it is made with. -/
def Accepts (s : Session) (ticket : Ticket) : Call → Prop
  | .confirm n => s.ticket n = some ticket ∧ s.store.current window ticket
  | .authenticationRequired n _ => s.ticket n = some ticket ∧ s.store.mayEnd window ticket
  | _ => False

/-- The ticket an observation is made with. -/
def Call.observes : Call → Option Nat
  | .confirm n => some n
  | .authenticationRequired n _ => some n
  | _ => none

/-- The ticket a call is made with. -/
def Call.uses : Call → Option Nat
  | .finish n => some n
  | call => call.observes

/-! ### Requests -/

/-- What `request` reads of a problem document. -/
structure Problem where
  type : String
  reason : Option String
  detail : String

def PROBLEM_NOT_AUTHENTICATED : String := "/problems/not-authenticated"

def PROBLEM_ENTITLEMENT_DENIED : String := "/problems/entitlement-denied"

def Problem.isNotAuthenticated (problem : Problem) : Bool := problem.type = PROBLEM_NOT_AUTHENTICATED

def Problem.entitlementReason (problem : Problem) : Option String :=
  if problem.type ≠ PROBLEM_ENTITLEMENT_DENIED then none else problem.reason

/-- How a request ends: something throws on the way, or there is an answer. -/
inductive Outcome
  | thrown
  | refused (problem : Problem)
  | noContent
  | decoded

def intentOf (path : String) : Option Intent :=
  if path = "/auth/login/" then some .login else if path = "/auth/logout/" then some .logout else none

/-- What `request` calls after `begin`, for the ticket it was given. -/
def settle (path : String) (ticket : Nat) (outcome : Outcome) : List Call :=
  let observation :=
    match outcome with
    | .refused problem =>
      if problem.isNotAuthenticated || problem.entitlementReason = some "LOGIN_REQUIRED" then
        [.authenticationRequired ticket problem.detail]
      else []
    | .decoded => if path = "/auth/me/" then [.confirm ticket] else []
    | _ => []
  observation ++ [.finish ticket]

theorem finish_mem_settle (path : String) (ticket : Nat) (outcome : Outcome) :
    .finish ticket ∈ settle path ticket outcome := List.mem_append_right _ (List.mem_singleton_self _)

/-! ### What a call does -/

variable {window} {s : Session}

theorem ticket_perform {n : Nat} (h : n < s.tickets.length) (call : Call) :
    (perform window s call).ticket n = s.ticket n := by
  cases call with
  | begin intent => rw [Session.ticket, perform, List.getElem?_append_left h, Session.ticket]
  | finish _ => rfl
  | confirm _ => rfl
  | authenticationRequired _ _ => rfl

theorem ticket_begin (intent : Option Intent) :
    (perform window s (.begin intent)).ticket s.tickets.length = (s.store.begin window intent).2 := by
  rw [Session.ticket, perform, List.getElem?_concat_length, Option.join_some]

theorem lt_of_ticket {n : Nat} {ticket : Ticket} (h : s.ticket n = some ticket) : n < s.tickets.length := by
  by_contra hge
  rw [Session.ticket, List.getElem?_eq_none (Nat.le_of_not_lt hge)] at h
  cases h

theorem call_cases (call : Call) :
    (∃ intent, call = .begin intent) ∨ (∃ n, call = .finish n) ∨ ∃ n, call.observes = some n := by
  cases call with
  | begin intent => exact .inl ⟨intent, rfl⟩
  | finish n => exact .inr (.inl ⟨n, rfl⟩)
  | confirm n => exact .inr (.inr ⟨n, rfl⟩)
  | authenticationRequired n _ => exact .inr (.inr ⟨n, rfl⟩)

theorem uses_of_observes {call : Call} {n : Nat} (h : call.observes = some n) : call.uses = some n := by
  cases call with
  | begin intent => cases h
  | finish m => cases h
  | confirm m => exact h
  | authenticationRequired m _ => exact h

/-- An observation either is ignored or has been accepted. -/
theorem perform_observation (s : Session) {call : Call} {n : Nat} (h : call.observes = some n) :
    perform window s call = s ∨ ∃ ticket, s.ticket n = some ticket ∧ s.store.current window ticket ∧
      Accepts window s ticket call ∧ ∃ snapshot epoch, s.store.epoch ≤ epoch ∧
        perform window s call =
          { s with store := { s.store with epoch := epoch, lastObservation := ticket.sequence, snapshot := snapshot } } := by
  cases call with
  | begin intent => cases h
  | finish m => cases h
  | confirm m =>
    cases h
    cases hticket : s.ticket n with
    | none => exact .inl (by rw [perform, hticket, Store.confirm])
    | some ticket =>
      by_cases hcurrent : s.store.current window ticket
      · refine .inr ⟨ticket, rfl, hcurrent, ⟨hticket, hcurrent⟩, .confirmed, s.store.epoch, Nat.le_refl _, ?_⟩
        rw [perform, hticket, Store.confirm, if_pos hcurrent]
      · exact .inl (by rw [perform, hticket, Store.confirm, if_neg hcurrent])
  | authenticationRequired m detail =>
    cases h
    cases hticket : s.ticket n with
    | none => exact .inl (by rw [perform, hticket, Store.authenticationRequired])
    | some ticket =>
      by_cases hends : s.store.mayEnd window ticket
      · refine .inr ⟨ticket, rfl, hends.1, ⟨hticket, hends⟩, .ended detail, s.store.epoch + 1, Nat.le_succ _, ?_⟩
        rw [perform, hticket, Store.authenticationRequired, if_pos hends]
      · exact .inl (by rw [perform, hticket, Store.authenticationRequired, if_neg hends])

/-- Finishing changes nothing but the pending operation. -/
theorem perform_finish (s : Session) (n : Nat) :
    perform window s (.finish n) = s ∨ ∃ ticket, s.ticket n = some ticket ∧
      s.store.operation = some ticket.sequence ∧
      perform window s (.finish n) = { s with store := { s.store with operation := none } } := by
  cases hticket : s.ticket n with
  | none => exact .inl (by rw [perform, hticket, Store.finish])
  | some ticket =>
    by_cases hpending : window = true ∧ ticket.epoch = s.store.epoch ∧ s.store.operation = some ticket.sequence
    · exact .inr ⟨ticket, rfl, hpending.2.2, by rw [perform, hticket, Store.finish, if_pos hpending]⟩
    · exact .inl (by rw [perform, hticket, Store.finish, if_neg hpending])

end EPlatform.SessionStatus
