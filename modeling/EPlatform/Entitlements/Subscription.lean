import EPlatform.Core.Columns
import EPlatform.Runs.Transaction

/-!
# Subscriptions as rows

One subscription with its append-only log of events, and the interface every billing provider implements.
-/

namespace EPlatform.Entitlements

open Runs

inductive SubscriptionStatus
  | trialing
  | active
  | pastDue
  | canceled
  | expired
  deriving DecidableEq, Repr

/-- `canceled` is deliberately absent: its row survives beside a fresh one. -/
def LIVE_STATUSES : List SubscriptionStatus := [.trialing, .active, .pastDue]

inductive EventType
  | trialStarted
  | activated
  | renewed
  | paymentFailed
  | cancellationRequested
  | canceled
  | expired
  deriving DecidableEq, Repr

structure Subscription where
  pk : Uuid
  user : Uuid
  status : SubscriptionStatus
  currentPeriodEnd : Instant
  trialEnd : Option Instant
  cancelAtPeriodEnd : Bool
  provider : String
  providerSubscriptionId : Option String
  updatedAt : Instant
  deriving DecidableEq, Repr

/-- What a provider sent, kept for diagnosis. -/
structure Payload where
  event : String
  sentAt : Instant
  deriving DecidableEq, Repr

/-- A blank `from_status` is `none`. -/
structure SubscriptionEvent where
  eventType : EventType
  fromStatus : Option SubscriptionStatus
  toStatus : SubscriptionStatus
  providerPayload : Option Payload
  deriving DecidableEq, Repr

structure Rows where
  subscription : Subscription
  events : List SubscriptionEvent
  deriving DecidableEq, Repr

/-- `trialing_requires_a_trial_end`. -/
def Rows.Valid (r : Rows) : Prop := r.subscription.status = .trialing → r.subscription.trialEnd.isSome

instance : DecidablePred Rows.Valid := fun _ => inferInstanceAs (Decidable (_ → _))

abbrev Database := Runs.Database Rows.Valid

inductive Error
  | subscriptionTransition (source target : SubscriptionStatus)
  | anotherLiveSubscription
  | noEventFor (status : SubscriptionStatus)
  | provider (text : String)
  deriving DecidableEq, Repr

/-! ### The billing provider -/

/-- A normalised snapshot of what the provider believes is true. -/
structure ProviderSubscription where
  provider : String
  providerSubscriptionId : Option String
  status : SubscriptionStatus
  currentPeriodEnd : Instant
  trialEnd : Option Instant
  cancelAtPeriodEnd : Bool
  raw : Payload
  deriving DecidableEq, Repr

/-- What any billing provider must do for us. The clock is an argument; a call may raise. -/
structure BillingProvider where
  name : String
  renewSubscription : (now : Instant) → (providerSubscriptionId : Option String) → Except Error ProviderSubscription
  failPayment : (now : Instant) → (providerSubscriptionId : Option String) → (currentPeriodEnd : Instant) →
    Except Error ProviderSubscription
  cancelSubscription : (now : Instant) → (providerSubscriptionId : Option String) → (immediately : Bool) →
    Except Error ProviderSubscription

/-- Thirty days. -/
def PERIOD : Instant := 30 * 24 * 60 * 60 * 1000000

/-- A billing provider that charges nobody. -/
def fakeBillingProvider : BillingProvider where
  name := "fake"
  renewSubscription now id := .ok
    { provider := "fake", providerSubscriptionId := id, status := .active, currentPeriodEnd := now + PERIOD
      trialEnd := none, cancelAtPeriodEnd := false, raw := ⟨"subscription.renewed", now⟩ }
  failPayment now id currentPeriodEnd := .ok
    { provider := "fake", providerSubscriptionId := id, status := .pastDue, currentPeriodEnd
      trialEnd := none, cancelAtPeriodEnd := false, raw := ⟨"payment.failed", now⟩ }
  cancelSubscription now id immediately :=
    if immediately then .ok
      { provider := "fake", providerSubscriptionId := id, status := .expired, currentPeriodEnd := now
        trialEnd := none, cancelAtPeriodEnd := false, raw := ⟨"subscription.canceled.immediate", now⟩ }
    else .ok
      { provider := "fake", providerSubscriptionId := id, status := .canceled, currentPeriodEnd := now + PERIOD
        trialEnd := none, cancelAtPeriodEnd := true, raw := ⟨"subscription.canceled", now⟩ }

end EPlatform.Entitlements
