import EPlatform.Lessons.Lesson
import EPlatform.Runs.History
import EPlatform.Runs.Jobs

/-!
# One provider job for one piece of work

Any number of executions, redelivered or in parallel, with calls that may raise after they were accepted. What the
providers accepted is recorded beside the rows. `Apart` says of each step what the answers and the schedule have to be for
the guards to see every job.
-/

namespace EPlatform.Lessons

open Runs MediaAssets Transcripts

/-- The jobs the video provider accepted, by key, and those the transcription provider accepted. -/
structure Accepted where
  jobs : List (Job ObjectKey String)
  submissions : List String
  deriving DecidableEq

/-- The id under which `create_asset` took effect, if it did. -/
def createdId : Answer ProviderAsset → Option String
  | .returned created => some created.assetId
  | .raised _ accepted => accepted

/-- The id under which `submit` took effect, if it did. A refused job is none. -/
def submittedId : Answer TranscriptionJob → Option String
  | .returned job => if job.status = .failed then none else some job.jobId
  | .raised _ accepted => accepted

/-- An answer that says at once that the file was rejected is a report too. -/
def recordCreate (key : ObjectKey) (answer : Answer ProviderAsset) (jobs : List (Job ObjectKey String)) :
    List (Job ObjectKey String) :=
  match answer with
  | .returned created =>
    let jobs := Job.accept key created.assetId jobs
    if created.status = .errored then Job.report created.assetId jobs else jobs
  | .raised _ (some id) => Job.accept key id jobs
  | .raised _ none => jobs

def recordMedia (env : MediaAssets.Env) (flight : MediaAssets.Flight) (s : Webhooks)
    (jobs : List (Job ObjectKey String)) : List (Job ObjectKey String) :=
  match flight with
  | .calling key _ => recordCreate key env.answer jobs
  | .retrying asset actor =>
    match s.db.rows.asset with
    | none => jobs
    | some row =>
      if Database.Commits MediaAssets.Rows.Valid (retryProcessing asset actor env.now s.db.rows) then
        Job.retry row.sourceObjectKey jobs
      else jobs
  | .reporting webhookEventId _ =>
    match s.events.find? (·.pk = webhookEventId) with
    | none => jobs
    | some record => if record.payload.status = .errored then Job.report record.payload.assetId jobs else jobs
  | _ => jobs

def recordAccepted (env : Env) (flight : Flight) (s : Rows) (accepted : Accepted) : Accepted :=
  match flight with
  | .media flight => { accepted with jobs := recordMedia env.media flight s.media accepted.jobs }
  | .submitting .. => { accepted with submissions := accepted.submissions ++ (submittedId env.answer).toList }
  | _ => accepted

def accounted (settings : Settings) : Protocol (Recorded Rows Accepted) (Noted Flight Unit) Request Env :=
  (lesson settings).withHistory recordAccepted fun _ _ => ()

/-- The rows, what the providers accepted, and the executions in flight. -/
abbrev Executions := World (Recorded Rows Accepted) (Noted Flight Unit)

/-- One job a key, unless the provider reported it failed and somebody retried it, and one for the transcript. -/
structure OneJobEach (s : Recorded Rows Accepted) : Prop where
  keys : Job.OncePerWork s.past.jobs
  transcript : s.past.submissions.length ≤ 1

instance : DecidablePred OneJobEach := fun s =>
  decidable_of_iff (Job.OncePerWork s.past.jobs ∧ s.past.submissions.length ≤ 1)
    ⟨fun ⟨hkeys, htranscript⟩ => ⟨hkeys, htranscript⟩, fun ⟨hkeys, htranscript⟩ => ⟨hkeys, htranscript⟩⟩

/-! ### Executions that keep out of each other's way -/

/-- An execution that has passed its guards and is about to hand the key over. -/
def Flight.calls (key : ObjectKey) : Flight → Bool
  | .media (.calling k _) => k = key
  | _ => false

/-- The provider has answered for the key, and the row does not say so yet. -/
def Flight.owes (key : ObjectKey) : Flight → Bool
  | .media (.answered k _ (.ok _)) => k = key
  | _ => false

/-- An execution that has passed its guards and is about to submit. -/
def Flight.submits : Flight → Bool
  | .submitting .. => true
  | _ => false

/-- The provider has taken the job, and the row does not say so yet. -/
def Flight.owesJob : Flight → Bool
  | .submitted _ (.ok job) => job.status ≠ .failed
  | _ => false

/-- No execution in flight is one of these. -/
def Nobody (P : Flight → Bool) (w : Executions) : Prop := ∀ f ∈ w.inflight, P f.flight = false

instance (P : Flight → Bool) (w : Executions) : Decidable (Nobody P w) := inferInstanceAs (Decidable (∀ f ∈ w.inflight, _))

def NobodyElse (P : Flight → Bool) (index : Nat) (w : Executions) : Prop :=
  ∀ f ∈ w.inflight.eraseIdx index, P f.flight = false

instance (P : Flight → Bool) (index : Nat) (w : Executions) : Decidable (NobodyElse P index w) :=
  inferInstanceAs (Decidable (∀ f ∈ w.inflight.eraseIdx index, _))

/-- The provider refused the file that is on record, and nobody has retried it. -/
def Refused (s : Recorded Rows Accepted) : Prop :=
  ∃ asset ∈ s.store.media.db.rows.asset, ∃ job ∈ s.past.jobs,
    job.work = asset.sourceObjectKey ∧ job.errored ∧ ¬ job.retried ∧ asset.providerAssetId = ""

instance : DecidablePred Refused := fun s =>
  decidable_of_iff (s.store.media.db.rows.asset.any fun asset => decide (∃ job ∈ s.past.jobs,
    job.work = asset.sourceObjectKey ∧ job.errored ∧ ¬ job.retried ∧ asset.providerAssetId = "") = true)
    (by simp [Refused, Option.any_eq_true])

/-- If it returns, it returns something with the property. -/
def Returning {ε α : Type} (P : α → Prop) : Except ε α → Prop
  | .error _ => True
  | .ok a => P a

instance {ε α : Type} (P : α → Prop) [DecidablePred P] : DecidablePred (Returning (ε := ε) P)
  | .error _ => inferInstanceAs (Decidable True)
  | .ok a => inferInstanceAs (Decidable (P a))

/-- Nobody passes the guards of a task while an answer for the same key is still to be written. -/
def LoadsApart (w : Executions) : Request → Prop
  | .media (.processMediaAsset _) =>
    Returning (fun key => Nobody (Flight.owes key) w) (planProcessing w.store.store.media.db.rows.asset)
  | _ => True

instance (w : Executions) : DecidablePred (LoadsApart w)
  | .media (.processMediaAsset _) => inferInstanceAs (Decidable (Returning _ _))
  | .media (.requestUpload ..) | .media (.completeUpload _) | .media (.retryProcessing _) | .media (.applyMediaWebhook _)
  | .requestTranscription _ => inferInstanceAs (Decidable True)

/-- A `create_asset` that takes effect returns, and nobody else is past the guards of the task for the key then. -/
def CallsApart (w : Executions) (index : Nat) (key : ObjectKey) : Answer ProviderAsset → Prop
  | .raised _ accepted => accepted = none
  | .returned _ => NobodyElse (Flight.calls key) index w

instance (w : Executions) (index : Nat) (key : ObjectKey) : DecidablePred (CallsApart w index key)
  | .raised _ accepted => inferInstanceAs (Decidable (accepted = none))
  | .returned _ => inferInstanceAs (Decidable (NobodyElse _ _ _))

/-- The same of `submit`. -/
def SubmitsApart (w : Executions) (index : Nat) : Answer TranscriptionJob → Prop
  | .raised _ accepted => accepted = none
  | .returned job => job.status ≠ .failed → NobodyElse Flight.submits index w

instance (w : Executions) (index : Nat) : DecidablePred (SubmitsApart w index)
  | .raised _ accepted => inferInstanceAs (Decidable (accepted = none))
  | .returned job => inferInstanceAs (Decidable (job.status ≠ .failed → NobodyElse _ _ _))

/-- Nobody completes an upload again whose file the provider has refused meanwhile. -/
def CompletesApart (s : Recorded Rows Accepted) : CompletionPlan → Prop
  | .accept _ => ¬ Refused s
  | _ => True

instance (s : Recorded Rows Accepted) : DecidablePred (CompletesApart s)
  | .accept _ => inferInstanceAs (Decidable (¬ Refused s))
  | .refuse _ | .fail .. => inferInstanceAs (Decidable True)

/-- A call that takes effect returns an id that is stored, and nobody else is past the same guards meanwhile. An upload is
given a key of its own. -/
def ActsApart (settings : Settings) (w : Executions) (index : Nat) (env : Env) : Flight → Prop
  | .media (.calling key _) => CallsApart w index key env.media.answer
  | .media (.answered key retries (.ok created)) =>
    (created.status ≠ .errored → created.assetId ≠ "") ∧
      ∀ asset ∈ w.store.store.media.db.rows.asset, asset.sourceObjectKey = key →
        (writeProcessing settings.media.maxRetries retries (.ok created) asset).Valid
  | .media (.completing asset actor) =>
    CompletesApart w.store
      (planCompletion settings.media.maxUploadBytes w.store.store.media.db.rows.lesson asset actor env.media.landed)
  | .media (.uploading _ contentType) =>
    Returning (fun key => (∀ job ∈ w.store.past.jobs, job.work ≠ key) ∧ Nobody (Flight.calls key) w)
      (buildObjectKey w.store.store.media.db.rows.lesson.pk contentType env.media.token)
  | .requesting asset _ =>
    Returning (fun _ => Nobody Flight.owesJob w) (planSubmission (transcriptFor env asset w.store.store).rows.transcript)
  | .submitting .. => SubmitsApart w index env.answer
  | .submitted retries (.ok job) =>
    job.status ≠ .failed → job.jobId ≠ "" ∧ ∀ db ∈ w.store.store.transcript, Database.Commits Transcripts.Rows.Valid
      (writeSubmission settings.transcriptionMaxRetries retries env.takenJobs (.ok job) db.rows)
  | _ => True

instance (settings : Settings) (w : Executions) (index : Nat) (env : Env) : DecidablePred (ActsApart settings w index env)
  | .media (.calling key _) => inferInstanceAs (Decidable (CallsApart w index key env.media.answer))
  | .media (.answered _ _ (.ok _)) => inferInstanceAs (Decidable (_ ∧ _))
  | .media (.completing ..) => inferInstanceAs (Decidable (CompletesApart _ _))
  | .media (.uploading ..) => inferInstanceAs (Decidable (Returning _ _))
  | .requesting .. => inferInstanceAs (Decidable (Returning _ _))
  | .submitting .. => inferInstanceAs (Decidable (SubmitsApart _ _ _))
  | .submitted _ (.ok _) => inferInstanceAs (Decidable (_ → _))
  | .media (.retrying ..) | .media (.answered _ _ (.error _)) | .media (.reporting ..) | .submitted _ (.error _) =>
    inferInstanceAs (Decidable True)

def Apart (settings : Settings) (w : Executions) : Move Request Env → Prop
  | .load request => LoadsApart w request
  | .act index env => ∀ f ∈ w.inflight[index]?, ActsApart settings w index env f.flight

instance (settings : Settings) (w : Executions) : DecidablePred (Apart settings w)
  | .load request => inferInstanceAs (Decidable (LoadsApart w request))
  | .act index _ => inferInstanceAs (Decidable (∀ f ∈ w.inflight[index]?, _))

/-! ### A lesson to process -/

/-- A lesson whose master was verified and waits to be processed. -/
def uploadedLesson : Rows where
  media :=
    { db :=
        { rows :=
            { lesson := ⟨6, 7, "es"⟩
              asset := some
                { pk := 5, sourceObjectKey := ⟨6, "first", "mp4"⟩, sourceBytes := 1024, sourceChecksum := "etag"
                  provider := "", providerAssetId := "", providerPlaybackId := "", durationSeconds := none
                  status := .uploaded, errorMessage := "", retryCount := 0, updatedAt := 0 } }
          valid := by decide }
      events := [] }
  transcript := none

/-- A moment at which `create_asset` ends as given. -/
def answering (answer : Answer ProviderAsset) : Env where
  media := { now := 1, token := "", newPk := 0, landed := ⟨none, []⟩, answer }
  newTranscript := 1
  takenJobs := []
  answer := .raised ⟨"TimeoutError", ""⟩ none

end EPlatform.Lessons
