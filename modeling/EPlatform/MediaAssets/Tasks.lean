import EPlatform.Core.Provider
import EPlatform.Core.WebhookEvent
import EPlatform.MediaAssets.Services

/-!
# Handing a master to the video provider, and hearing back

`process_media_asset` and `apply_media_webhook`, cut where the source leaves the database: what a task decides from the row
it read, and the write that follows. What the provider answers is an argument.
-/

namespace EPlatform.MediaAssets

open Runs

inductive ProviderAssetStatus
  | processing
  | ready
  | errored
  deriving DecidableEq, Repr

structure ProviderAsset where
  provider : String
  assetId : String
  playbackId : String
  status : ProviderAssetStatus
  deriving DecidableEq, Repr

structure ProviderWebhookEvent where
  eventId : String
  eventType : String
  assetId : String
  status : ProviderAssetStatus
  durationSeconds : Option Int
  deriving DecidableEq, Repr

def recordFailure (message : String) (attempts : Int) (asset : MediaAsset) : MediaAsset :=
  { asset with status := .failed, errorMessage := truncate message, retryCount := attempts }

/-! ### Processing -/

/-- Seconds to wait before an attempt. -/
def retryCountdown (attempt : Nat) : Nat := 2 ^ attempt * 10

inductive ProcessOutcome
  | gone
  | alreadyProcessed
  | notUploaded (status : MediaAssetStatus)
  | deadLettered
  | retry (countdown : Nat)
  | providerRejected
  | handedToProvider
  deriving DecidableEq, Repr

/-- The guards before the call: why the task stops, or the key it hands over. -/
def planProcessing (asset : Option MediaAsset) : Except ProcessOutcome ObjectKey :=
  match asset with
  | none => .error .gone
  | some asset =>
    if asset.providerAssetId ≠ "" then .error .alreadyProcessed
    else if asset.status ≠ .uploaded then .error (.notUploaded asset.status)
    else .ok asset.sourceObjectKey

/-- A task gets as far as the call only on an uploaded asset without an id. -/
theorem planProcessing_ok {asset : Option MediaAsset} {key : ObjectKey} (h : planProcessing asset = .ok key) :
    ∃ a, asset = some a ∧ a.providerAssetId = "" ∧ a.status = .uploaded ∧ a.sourceObjectKey = key := by
  cases asset with
  | none => cases h
  | some a =>
    simp only [planProcessing] at h
    split_ifs at h with hid hstatus
    · cases h
      exact ⟨a, rfl, not_not.mp hid, not_not.mp hstatus, rfl⟩

def handOver (created : ProviderAsset) (asset : MediaAsset) : MediaAsset :=
  { asset with
    provider := created.provider
    providerAssetId := created.assetId
    providerPlaybackId := created.playbackId
    status := .transcoding
    errorMessage := "" }

/-- The write after the call. `retries` is `self.request.retries`. -/
def performProcessing (maxRetries : Int) (retries : Nat) (answer : Except Raised ProviderAsset) (asset : MediaAsset) :
    MediaAsset × ProcessOutcome :=
  match answer with
  | .error exc =>
    let attempts : Int := retries + 1
    if attempts > maxRetries then (recordFailure exc.message (attempts - 1) asset, .deadLettered)
    else ({ asset with retryCount := attempts }, .retry (retryCountdown (retries + 1)))
  | .ok created =>
    if created.status = .errored then
      (recordFailure "The provider rejected the file." retries asset, .providerRejected)
    else (handOver created asset, .handedToProvider)

/-- What is left in the row. -/
def writeProcessing (maxRetries : Int) (retries : Nat) (answer : Except Raised ProviderAsset) (asset : MediaAsset) :
    MediaAsset :=
  (performProcessing maxRetries retries answer asset).1

/-! ### Webhooks -/

/-- What a webhook task decides from the asset it looks up. -/
inductive WebhookPlan
  | unknownAsset
  | ready (durationSeconds : Option Int)
  | errored (retryCount : Int)
  | ignored (status : ProviderAssetStatus)
  deriving DecidableEq, Repr

def MediaAsset.isFor (asset : MediaAsset) (provider : String) (event : ProviderWebhookEvent) : Prop :=
  asset.provider = provider ∧ asset.providerAssetId = event.assetId

instance (asset : MediaAsset) (provider : String) (event : ProviderWebhookEvent) :
    Decidable (asset.isFor provider event) := inferInstanceAs (Decidable (_ ∧ _))

def planWebhook (provider : String) (event : ProviderWebhookEvent) (asset : Option MediaAsset) : WebhookPlan :=
  match asset.filter (·.isFor provider event) with
  | none => .unknownAsset
  | some asset =>
    match event.status with
    | .ready => .ready event.durationSeconds
    | .errored => .errored asset.retryCount
    | .processing => .ignored .processing

theorem planWebhook_of_isFor {provider : String} {event : ProviderWebhookEvent} {asset : MediaAsset}
    (h : asset.isFor provider event) :
    planWebhook provider event (some asset) =
      match event.status with
      | .ready => .ready event.durationSeconds
      | .errored => .errored asset.retryCount
      | .processing => .ignored .processing := by
  cases hstatus : event.status <;> simp only [planWebhook, Option.filter_some, h, decide_true, if_true, hstatus]

theorem planWebhook_of_not_isFor {provider : String} {event : ProviderWebhookEvent} {asset : MediaAsset}
    (h : ¬ asset.isFor provider event) : planWebhook provider event (some asset) = .unknownAsset := by
  simp [planWebhook, Option.filter_some, h]

def applyReady (durationSeconds : Option Int) (asset : MediaAsset) : MediaAsset :=
  { asset with status := .ready, durationSeconds, errorMessage := "" }

def applyErrored (retryCount : Int) (asset : MediaAsset) : MediaAsset :=
  recordFailure "The provider failed to process this file." retryCount asset

def performWebhook (plan : WebhookPlan) (asset : MediaAsset) : MediaAsset :=
  match plan with
  | .unknownAsset => asset
  | .ready durationSeconds => applyReady durationSeconds asset
  | .errored retryCount => applyErrored retryCount asset
  | .ignored _ => asset

/-- The table of assets and the webhook table. -/
structure Webhooks where
  db : Database
  events : List (WebhookEvent ProviderWebhookEvent)
  deriving DecidableEq

/-- The write of a looked-up webhook. A constraint violation raises before the event is marked. -/
def finishWebhook (webhookEventId : Uuid) (plan : WebhookPlan) (now : Instant) (s : Webhooks) : Webhooks :=
  let result : Except Error Rows := .ok (s.db.rows.update (performWebhook plan))
  if Database.Commits Rows.Valid result then
    ⟨s.db.settle result, markProcessed webhookEventId now s.events⟩
  else s

def applyMediaWebhook (provider : String) (webhookEventId : Uuid) (now : Instant) (s : Webhooks) : Webhooks :=
  match s.events.find? (·.pk = webhookEventId) with
  | none => s
  | some record => finishWebhook record.pk (planWebhook provider record.payload s.db.rows.asset) now s

end EPlatform.MediaAssets
