import EPlatform.Entitlements.Subscription

/-!
# Subscription writes

The four operations on an existing subscription. Each acts on an instance its caller loaded: the loaded status is
checked against the table and written into the event, and the row is written whatever it holds by then.
-/

namespace EPlatform.Entitlements

open Runs

/-- Every legal move. Absent means impossible, whoever asks. -/
def ALLOWED_TRANSITIONS : List (SubscriptionStatus × SubscriptionStatus) :=
  [(.trialing, .active), (.trialing, .pastDue), (.trialing, .canceled), (.trialing, .expired),
    (.active, .active), (.active, .pastDue), (.active, .canceled), (.active, .expired),
    (.pastDue, .active), (.pastDue, .canceled), (.pastDue, .expired),
    (.canceled, .expired)]

instance (move : SubscriptionStatus × SubscriptionStatus) : Decidable (move ∈ ALLOWED_TRANSITIONS) := inferInstance

/-- `_EVENT_FOR`, which has no entry for `trialing`: no transition leads there. -/
def eventFor : SubscriptionStatus → Option EventType
  | .trialing => none
  | .active => some .activated
  | .pastDue => some .paymentFailed
  | .canceled => some .canceled
  | .expired => some .expired

/-- `subscription.save(update_fields=["status", "current_period_end", "cancel_at_period_end", "trial_end", ...])`. -/
def Rows.saveSnapshot (rows : Rows) (subscription : Subscription) (snapshot : ProviderSubscription) (now : Instant) :
    Rows :=
  { rows with
    subscription := { rows.subscription with
      status := snapshot.status
      currentPeriodEnd := snapshot.currentPeriodEnd
      cancelAtPeriodEnd := snapshot.cancelAtPeriodEnd
      trialEnd := snapshot.trialEnd.or subscription.trialEnd
      updatedAt := now } }

def Rows.addEvent (rows : Rows) (event : SubscriptionEvent) : Rows := { rows with events := rows.events ++ [event] }

/-- `otherLive` says that another of the user's subscriptions is live, which `one_live_subscription_per_user` reads. -/
def applySnapshot (subscription : Subscription) (snapshot : ProviderSubscription) (eventType : Option EventType)
    (otherLive : Bool) (now : Instant) (rows : Rows) : Except Error Rows := do
  let previous := subscription.status
  require ((previous, snapshot.status) ∈ ALLOWED_TRANSITIONS) (.subscriptionTransition previous snapshot.status)
  require (¬ (otherLive ∧ snapshot.status ∈ LIVE_STATUSES)) .anotherLiveSubscription
  match eventType.or (eventFor snapshot.status) with
  | none => .error (.noEventFor snapshot.status)
  | some eventType =>
    return (rows.saveSnapshot subscription snapshot now).addEvent
      { eventType, fromStatus := some previous, toStatus := snapshot.status, providerPayload := some snapshot.raw }

def renew (subscription : Subscription) (provider : BillingProvider) (otherLive : Bool) (now : Instant) (rows : Rows) :
    Except Error Rows := do
  let snapshot ← provider.renewSubscription now subscription.providerSubscriptionId
  applySnapshot subscription snapshot (some .renewed) otherLive now rows

def failPayment (subscription : Subscription) (provider : BillingProvider) (otherLive : Bool) (now : Instant)
    (rows : Rows) : Except Error Rows := do
  let snapshot ← provider.failPayment now subscription.providerSubscriptionId subscription.currentPeriodEnd
  applySnapshot subscription snapshot none otherLive now rows

def cancel (subscription : Subscription) (provider : BillingProvider) (immediately : Bool) (otherLive : Bool)
    (now : Instant) (rows : Rows) : Except Error Rows := do
  let snapshot ← provider.cancelSubscription now subscription.providerSubscriptionId immediately
  let eventType : EventType := if immediately then .expired else .cancellationRequested
  applySnapshot subscription snapshot (some eventType) otherLive now rows

/-- No provider call: this is a consequence of time passing. -/
def expire (subscription : Subscription) (now : Instant) (rows : Rows) : Except Error Rows := do
  let previous := subscription.status
  require ((previous, .expired) ∈ ALLOWED_TRANSITIONS) (.subscriptionTransition previous .expired)
  return { rows with
    subscription := { rows.subscription with status := .expired, updatedAt := now } }.addEvent
      { eventType := .expired, fromStatus := some previous, toStatus := .expired, providerPayload := none }

/-! ### What each operation can do -/

/-- Nothing becomes a trial, so every legal move has an event of its own. -/
theorem target_of_mem_allowed {previous status : SubscriptionStatus} (h : (previous, status) ∈ ALLOWED_TRANSITIONS) :
    status ≠ .trialing ∧ ∃ eventType, eventFor status = some eventType := by
  cases status <;> simp_all [ALLOWED_TRANSITIONS, eventFor]

theorem eventType_of_mem_allowed {previous status : SubscriptionStatus} (h : (previous, status) ∈ ALLOWED_TRANSITIONS)
    (eventType : Option EventType) : ∃ eventType', eventType.or (eventFor status) = some eventType' := by
  obtain ⟨own, hown⟩ := (target_of_mem_allowed h).2
  cases eventType with
  | none => exact ⟨own, hown⟩
  | some eventType => exact ⟨eventType, rfl⟩

/-- A move that was accepted: legal from the loaded status, and to a live one only if no other subscription is live. -/
def MoveAccepted (previous : SubscriptionStatus) (otherLive : Bool) (target : SubscriptionStatus) : Prop :=
  (previous, target) ∈ ALLOWED_TRANSITIONS ∧ ¬ (otherLive ∧ target ∈ LIVE_STATUSES)

/-- What a committed operation leaves: the target status, and one event that names the loaded status before it. -/
structure Moved (previous target : SubscriptionStatus) (rows rows' : Rows) : Prop where
  status : rows'.subscription.status = target
  event : ∃ event, rows'.events = rows.events ++ [event] ∧ event.fromStatus = some previous ∧ event.toStatus = target

theorem applySnapshot_commits {subscription : Subscription} {snapshot : ProviderSubscription}
    {eventType : Option EventType} {otherLive : Bool} {now : Instant} {rows : Rows} :
    Database.Commits Rows.Valid (applySnapshot subscription snapshot eventType otherLive now rows) ↔
      MoveAccepted subscription.status otherLive snapshot.status := by
  simp only [applySnapshot, Database.commits_require_bind, MoveAccepted]
  refine and_congr_right fun hallowed => ?_
  refine and_iff_left_of_imp fun _ => ?_
  obtain ⟨eventType', heventType⟩ := eventType_of_mem_allowed hallowed eventType
  simp only [heventType]
  intro htrialing
  exact absurd htrialing (target_of_mem_allowed hallowed).1

theorem applySnapshot_moved {subscription : Subscription} {snapshot : ProviderSubscription}
    {eventType : Option EventType} {otherLive : Bool} {now : Instant} {rows rows' : Rows}
    (h : applySnapshot subscription snapshot eventType otherLive now rows = .ok rows') :
    Moved subscription.status snapshot.status rows rows' := by
  simp only [applySnapshot, bind_eq_ok, require_eq_ok, exists_const] at h
  obtain ⟨-, -, h⟩ := h
  split at h
  · cases h
  · cases pure_eq_ok.mp h
    exact ⟨rfl, _, rfl, rfl, rfl⟩

theorem expire_commits {subscription : Subscription} {now : Instant} {rows : Rows} :
    Database.Commits Rows.Valid (expire subscription now rows) ↔
      (subscription.status, .expired) ∈ ALLOWED_TRANSITIONS := by
  simp only [expire, Database.commits_require_bind, Database.commits_pure]
  refine and_iff_left_of_imp fun _ => ?_
  intro htrialing
  cases htrialing

theorem expire_moved {subscription : Subscription} {now : Instant} {rows rows' : Rows}
    (h : expire subscription now rows = .ok rows') : Moved subscription.status .expired rows rows' := by
  simp only [expire, bind_eq_ok, require_eq_ok, exists_const, pure_eq_ok] at h
  obtain ⟨-, rfl⟩ := h
  exact ⟨rfl, _, rfl, rfl, rfl⟩

end EPlatform.Entitlements
