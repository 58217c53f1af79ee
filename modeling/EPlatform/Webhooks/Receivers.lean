import EPlatform.MediaAssets.Webhooks
import EPlatform.Runs.Interleaving
import EPlatform.Transcripts.Webhooks

/-!
# The two webhook receivers

`VideoWebhookView.post` and `TranscriptionWebhookView.post` over the table they share. A request verifies and parses, and
then takes three steps: it inserts, it enqueues, it answers. Any number of requests are at any of them, and each may
break off at each.
-/

namespace EPlatform.Webhooks

open Runs MediaAssets Transcripts

/-- What `parse_webhook` raises: `KeyError` and `ValueError`, which the receivers catch, and the rest. -/
inductive ParseError
  | unparseable
  | other
  deriving DecidableEq, Repr

/-- A provider as its receiver uses it. -/
structure Adapter (π : Type) where
  name : String
  verifyWebhook : List UInt8 → String → Bool
  parseWebhook : List UInt8 → Except ParseError π

structure Providers where
  video : Adapter ProviderWebhookEvent
  transcription : Adapter TranscriptionResult

inductive Payload
  | video (event : ProviderWebhookEvent)
  | transcription (result : TranscriptionResult)
  deriving DecidableEq, Repr

inductive Task
  | applyMediaWebhook
  | applyTranscriptionCallback
  deriving DecidableEq, Repr

def Payload.record (providers : Providers) (pk : Uuid) : Payload → WebhookEvent Payload
  | .video event => ((videoWebhookView providers.video.name).record pk event).map .video
  | .transcription result =>
    ((transcriptionWebhookView providers.transcription.name).record pk result).map .transcription

def Payload.task : Payload → Task
  | .video _ => .applyMediaWebhook
  | .transcription _ => .applyTranscriptionCallback

/-- What `webhook_event_unique_per_provider` ranges over. -/
def Payload.key (providers : Providers) (event : Payload) : String × String :=
  let record := event.record providers 0
  (record.provider, record.providerEventId)

/-- The webhook table, what was ever enqueued, and the events whose provider received a 200. -/
structure Tables where
  events : List (WebhookEvent Payload)
  queue : List (Task × Uuid)
  acknowledged : List Payload
  deriving DecidableEq, Repr

/-- One delivery: the body and the signature header. -/
inductive Request
  | video (payload : List UInt8) (signature : String)
  | transcription (payload : List UInt8) (signature : String)
  deriving DecidableEq, Repr

inductive Flight
  | recording (event : Payload)
  | enqueueing (event : Payload) (record : Uuid)
  | acknowledging (event : Payload)
  | duplicate (event : Payload)
  deriving DecidableEq, Repr

/-- A step completes, or the request ends there without an answer or with a 500: something raises, or the process stops,
before the step took effect or right after it. -/
inductive Outcome
  | goesOn
  | breaksOff (tookEffect : Bool)
  deriving DecidableEq, Repr

def Outcome.TookEffect : Outcome → Prop
  | .goesOn => True
  | .breaksOff tookEffect => tookEffect

instance : DecidablePred Outcome.TookEffect
  | .goesOn => inferInstanceAs (Decidable True)
  | .breaksOff tookEffect => inferInstanceAs (Decidable (tookEffect = true))

structure Env where
  newPk : Uuid
  outcome : Outcome
  deriving DecidableEq, Repr

/-- Steps one and the parse. Anything else than a verified event is answered 401, 400 or 500 at once, with nothing
written. -/
def Adapter.receive {π : Type} (adapter : Adapter π) (payload : List UInt8) (signature : String) : Option π :=
  if adapter.verifyWebhook payload signature then (adapter.parseWebhook payload).toOption else none

def load (providers : Providers) (request : Request) (_ : Tables) : Option Flight :=
  match request with
  | .video payload signature => (providers.video.receive payload signature).map fun event => .recording (.video event)
  | .transcription payload signature =>
    (providers.transcription.receive payload signature).map fun result => .recording (.transcription result)

/-- What a step does when it takes effect, and where the request goes from there. -/
def perform (providers : Providers) (newPk : Uuid) (s : Tables) : Flight → Tables × Option Flight
  | .recording event =>
    match create (event.record providers newPk) s.events with
    | .ok events => ({ s with events }, some (.enqueueing event newPk))
    | .error .integrityError => (s, some (.duplicate event))
    | .error .dataError => (s, none)
  | .enqueueing event record => ({ s with queue := s.queue ++ [(event.task, record)] }, some (.acknowledging event))
  | .acknowledging event => ({ s with acknowledged := s.acknowledged ++ [event] }, none)
  | .duplicate event => ({ s with acknowledged := s.acknowledged ++ [event] }, none)

def act (providers : Providers) (env : Env) (flight : Flight) (s : Tables) : Tables × Option Flight :=
  let (s', next) := perform providers env.newPk s flight
  match env.outcome with
  | .goesOn => (s', next)
  | .breaksOff tookEffect => (if tookEffect then s' else s, none)

def receivers (providers : Providers) : Protocol Tables Flight Request Env where
  load := load providers
  act := act providers

/-! ### Records and their keys -/

@[simp] theorem record_pk (providers : Providers) (pk : Uuid) (event : Payload) :
    (event.record providers pk).pk = pk := by
  cases event <;> rfl

@[simp] theorem record_key (providers : Providers) (pk : Uuid) (event : Payload) :
    ((event.record providers pk).provider, (event.record providers pk).providerEventId) = event.key providers := by
  cases event <;> rfl

end EPlatform.Webhooks
