import EPlatform.Entitlements.Services
import EPlatform.Runs.Interleaving
import EPlatform.Runs.Log

/-!
# The subscription state machine under concurrency

Any number of operations on one subscription, each acting on an instance loaded earlier. The store keeps every committed
change of the row's status beside the row and its log.
-/

namespace EPlatform.Entitlements

open Runs

inductive Operation
  | renew
  | failPayment
  | cancel (immediately : Bool)
  | expire
  deriving DecidableEq, Repr

/-- An operation on the instance its caller loaded. -/
structure Flight where
  operation : Operation
  subscription : Subscription
  deriving DecidableEq, Repr

/-- The clock, the provider as it answers at this moment, and whether another of the user's subscriptions is live. -/
structure Env where
  now : Instant
  provider : BillingProvider
  otherLive : Bool

def Flight.transaction (env : Env) (rows : Rows) (flight : Flight) : Except Error Rows :=
  match flight.operation with
  | .renew => Entitlements.renew flight.subscription env.provider env.otherLive env.now rows
  | .failPayment => Entitlements.failPayment flight.subscription env.provider env.otherLive env.now rows
  | .cancel immediately =>
    Entitlements.cancel flight.subscription env.provider immediately env.otherLive env.now rows
  | .expire => Entitlements.expire flight.subscription env.now rows

structure Ledger where
  db : Database
  changes : List (SubscriptionStatus × SubscriptionStatus)
  deriving DecidableEq

def commit (env : Env) (flight : Flight) (s : Ledger) : Ledger :=
  let db := s.db.settle (flight.transaction env s.db.rows)
  let source := s.db.rows.subscription.status
  let target := db.rows.subscription.status
  ⟨db, if target = source then s.changes else s.changes ++ [(source, target)]⟩

def subscribing : Protocol Ledger Flight Operation Env where
  load operation s := some ⟨operation, s.db.rows.subscription⟩
  act env flight s := (commit env flight s, none)

/-- Every change of status is a legal move, and the events tell how the row came to its status. -/
structure HoldsUp (s : Ledger) : Prop where
  moves : ∀ change ∈ s.changes, change ∈ ALLOWED_TRANSITIONS
  story : Tells SubscriptionEvent.fromStatus SubscriptionEvent.toStatus s.db.rows.events s.db.rows.subscription.status

instance : DecidablePred HoldsUp := fun s =>
  decidable_of_iff
    ((∀ change ∈ s.changes, change ∈ ALLOWED_TRANSITIONS) ∧
      Tells SubscriptionEvent.fromStatus SubscriptionEvent.toStatus s.db.rows.events s.db.rows.subscription.status)
    ⟨fun ⟨hmoves, hstory⟩ => ⟨hmoves, hstory⟩, fun ⟨hmoves, hstory⟩ => ⟨hmoves, hstory⟩⟩

/-- The status an operation would write, if its provider answers. -/
def Flight.target (env : Env) (flight : Flight) : Except Error SubscriptionStatus :=
  let id := flight.subscription.providerSubscriptionId
  match flight.operation with
  | .renew => (env.provider.renewSubscription env.now id).map (·.status)
  | .failPayment => (env.provider.failPayment env.now id flight.subscription.currentPeriodEnd).map (·.status)
  | .cancel immediately => (env.provider.cancelSubscription env.now id immediately).map (·.status)
  | .expire => .ok .expired

def Accepted (env : Env) (flight : Flight) : Prop :=
  ∃ target, flight.target env = .ok target ∧ MoveAccepted flight.subscription.status env.otherLive target

/-- An accepted operation finds the row in the status it loaded. -/
def ActsOnCurrentStatus (env : Env) (flight : Flight) (s : Ledger) : Prop :=
  Accepted env flight → flight.subscription.status = s.db.rows.subscription.status

/-! ### What a commit does to the status and the log -/

theorem transaction_commits {env : Env} {flight : Flight} {rows : Rows} :
    Database.Commits Rows.Valid (flight.transaction env rows) ↔ Accepted env flight := by
  obtain ⟨operation, subscription⟩ := flight
  cases operation with
  | renew =>
    simp only [Flight.transaction, renew, Database.commits_bind, applySnapshot_commits, Accepted, Flight.target]
    cases env.provider.renewSubscription env.now subscription.providerSubscriptionId <;> simp [Except.map]
  | failPayment =>
    simp only [Flight.transaction, failPayment, Database.commits_bind, applySnapshot_commits, Accepted, Flight.target]
    cases env.provider.failPayment env.now subscription.providerSubscriptionId subscription.currentPeriodEnd <;>
      simp [Except.map]
  | cancel immediately =>
    simp only [Flight.transaction, cancel, Database.commits_bind, applySnapshot_commits, Accepted, Flight.target]
    cases env.provider.cancelSubscription env.now subscription.providerSubscriptionId immediately <;>
      simp [Except.map]
  | expire =>
    simp only [Flight.transaction, expire_commits, Accepted, Flight.target]
    simp [MoveAccepted, LIVE_STATUSES]

theorem transaction_moved {env : Env} {flight : Flight} {rows rows' : Rows}
    (h : flight.transaction env rows = .ok rows') :
    ∃ target, flight.target env = .ok target ∧ Moved flight.subscription.status target rows rows' := by
  obtain ⟨operation, subscription⟩ := flight
  cases operation with
  | renew =>
    obtain ⟨snapshot, hsnapshot, hsave⟩ := bind_eq_ok.mp h
    exact ⟨snapshot.status, by simp [Flight.target, hsnapshot, Except.map], applySnapshot_moved hsave⟩
  | failPayment =>
    obtain ⟨snapshot, hsnapshot, hsave⟩ := bind_eq_ok.mp h
    exact ⟨snapshot.status, by simp [Flight.target, hsnapshot, Except.map], applySnapshot_moved hsave⟩
  | cancel immediately =>
    obtain ⟨snapshot, hsnapshot, hsave⟩ := bind_eq_ok.mp h
    exact ⟨snapshot.status, by simp [Flight.target, hsnapshot, Except.map], applySnapshot_moved hsave⟩
  | expire => exact ⟨.expired, rfl, expire_moved h⟩

/-- A commit keeps row and log in step exactly when it acts on the current status. -/
theorem commit_holdsUp (env : Env) (flight : Flight) {s : Ledger} (hs : HoldsUp s) :
    HoldsUp (commit env flight s) ↔ ActsOnCurrentStatus env flight s := by
  by_cases hcommits : Database.Commits Rows.Valid (flight.transaction env s.db.rows)
  · have haccepted := transaction_commits.mp hcommits
    obtain ⟨target, htarget, hstatus, event, hevents, hfrom, hto⟩ :=
      transaction_moved (Database.settle_of_commits s.db hcommits)
    have hallowed : (flight.subscription.status, target) ∈ ALLOWED_TRANSITIONS := by
      obtain ⟨target', htarget', haccepted', -⟩ := haccepted
      rw [htarget, Except.ok.injEq] at htarget'
      rwa [htarget']
    have hstory := hs.story.concat_iff event target
    constructor
    · rintro ⟨-, hstory'⟩ -
      rw [commit, hevents, hstatus, hstory, hfrom, Option.some.injEq] at hstory'
      exact hstory'.1
    · intro hcurrent
      have hloaded := hcurrent haccepted
      constructor
      · intro change hchange
        simp only [commit, hstatus] at hchange
        split at hchange
        · exact hs.moves change hchange
        · rcases List.mem_append.mp hchange with hold | hnew
          · exact hs.moves change hold
          · rw [List.mem_singleton.mp hnew, ← hloaded]
            exact hallowed
      · rw [commit, hevents, hstatus, hstory, hfrom, hloaded]
        exact ⟨rfl, hto⟩
  · simp only [commit, Database.settle_of_not_commits hcommits, if_true]
    apply iff_of_true hs
    intro haccepted
    exact absurd (transaction_commits.mpr haccepted) hcommits

/-- The state machine holds up in every committed state of exactly the runs that start so and whose operations all act
on the current status. -/
theorem throughout_holdsUp_iff (s : Ledger) (run : List (Move Operation Env)) :
    Throughout subscribing.step (fun w => HoldsUp w.store) (World.idle s) run ↔
      HoldsUp s ∧ Along subscribing.step (Protocol.Guarded ActsOnCurrentStatus) (World.idle s) run := by
  apply Protocol.throughout_iff_of_step
  intro s env flight hs
  exact commit_holdsUp env flight hs

/-- A paying subscription. -/
def paying : Ledger where
  db :=
    { rows :=
        { subscription :=
            { pk := 4, user := 9, status := .active, currentPeriodEnd := 1000, trialEnd := none,
              cancelAtPeriodEnd := false, provider := "fake", providerSubscriptionId := some "fake_1", updatedAt := 0 }
          events := [⟨.activated, none, .active, none⟩] }
      valid := by decide }
  changes := []

/-- A renewal and an expiry both load the active row; the expiry commits first, and the renewal brings it back. -/
theorem renewal_leaves_expired :
    ¬ Throughout subscribing.step (fun w => HoldsUp w.store) (World.idle paying)
      [.load .renew, .load .expire, .act 1 ⟨1001, fakeBillingProvider, false⟩,
        .act 0 ⟨1002, fakeBillingProvider, false⟩] := by
  decide

end EPlatform.Entitlements
