import EPlatform.Core.Columns
import EPlatform.Runs.Transaction

/-!
# Recorded webhooks

Every webhook received, with the payload as its provider's adapter reads it back, and the insert that makes a replay
lose.
-/

namespace EPlatform

open Runs

structure WebhookEvent (π : Type) where
  pk : Uuid
  provider : String
  providerEventId : String
  eventType : String
  payload : π
  processedAt : Option Instant
  deriving DecidableEq, Repr

def WebhookEvent.map {π π' : Type} (f : π → π') (event : WebhookEvent π) : WebhookEvent π' :=
  { event with payload := f event.payload }

/-- `WebhookEvent.objects.filter(pk=...).update(processed_at=...)`. -/
def markProcessed {π : Type} (pk : Uuid) (now : Instant) (events : List (WebhookEvent π)) : List (WebhookEvent π) :=
  events.map fun event => if event.pk = pk then { event with processedAt := some now } else event

theorem markProcessed_map {π α : Type} {f : WebhookEvent π → α}
    (hf : ∀ event processedAt, f { event with processedAt } = f event) (pk : Uuid) (now : Instant)
    (events : List (WebhookEvent π)) : (markProcessed pk now events).map f = events.map f := by
  rw [markProcessed, List.map_map]
  apply List.map_congr_left
  intro event _
  simp only [Function.comp_apply]
  split
  · exact hf event _
  · rfl

/-! ### Receiving -/

/-- What a receiver reads off an event of its provider. -/
structure Receiver (π : Type) where
  provider : String
  eventId : π → String
  eventType : π → String

def Receiver.record {π : Type} (receiver : Receiver π) (pk : Uuid) (event : π) : WebhookEvent π where
  pk := pk
  provider := receiver.provider
  providerEventId := receiver.eventId event
  eventType := receiver.eventType event
  payload := event
  processedAt := none

inductive DatabaseError
  | integrityError
  | dataError
  deriving DecidableEq, Repr

variable {π : Type}

/-- The values fit their columns. -/
def WebhookEvent.Fits (event : WebhookEvent π) : Prop :=
  event.provider.length ≤ 32 ∧ event.providerEventId.length ≤ 255 ∧ event.eventType.length ≤ 100

/-- Two rows the primary key or `webhook_event_unique_per_provider` keeps apart. -/
def WebhookEvent.Clashes (event other : WebhookEvent π) : Prop :=
  other.pk = event.pk ∨ (other.provider = event.provider ∧ other.providerEventId = event.providerEventId)

instance (event : WebhookEvent π) : Decidable event.Fits := inferInstanceAs (Decidable (_ ∧ _ ∧ _))

instance (event other : WebhookEvent π) : Decidable (event.Clashes other) := inferInstanceAs (Decidable (_ ∨ _))

/-- `WebhookEvent.objects.create(...)`. A value is cut to its column before any index is asked. -/
def create (event : WebhookEvent π) (events : List (WebhookEvent π)) :
    Except DatabaseError (List (WebhookEvent π)) := do
  require event.Fits .dataError
  require (∀ other ∈ events, ¬ event.Clashes other) .integrityError
  return events ++ [event]

theorem create_ok {event : WebhookEvent π} {events events' : List (WebhookEvent π)} :
    create event events = .ok events' ↔
      event.Fits ∧ (∀ other ∈ events, ¬ event.Clashes other) ∧ events' = events ++ [event] := by
  simp only [create, bind_eq_ok, require_eq_ok, exists_const, pure_eq_ok]

/-- What was just inserted is found by its key. -/
theorem find?_create {event : WebhookEvent π} {events events' : List (WebhookEvent π)}
    (h : create event events = .ok events') : events'.find? (·.pk = event.pk) = some event := by
  obtain ⟨-, hfree, rfl⟩ := create_ok.mp h
  rw [List.find?_append, List.find?_eq_none.mpr, Option.none_or]
  · simp
  · intro other hother hpk
    exact hfree other hother (.inl (of_decide_eq_true hpk))

end EPlatform
