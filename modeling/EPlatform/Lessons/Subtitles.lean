import EPlatform.Lessons.Lesson
import EPlatform.MediaAssets.Webhooks
import EPlatform.Runs.History
import EPlatform.Transcripts.Provenance

/-!
# Subtitles of the media being played

The two state machines of one lesson, one operation after the other. A foreign key is all that links them: replacing the
master resets the asset, and no operation resets the transcript.
-/

namespace EPlatform.Lessons

open Runs MediaAssets Transcripts

/-- A job the transcription provider accepted, and the key whose URL it was given. -/
structure Submission where
  provider : String
  jobId : String
  key : ObjectKey
  deriving DecidableEq, Repr

/-- The job under which a call took effect, if it did. `provider` is the one we call. -/
def submittedAs (provider : String) (key : ObjectKey) : Answer TranscriptionJob → Option Submission
  | .returned job => if job.status = .failed then none else some ⟨job.provider, job.jobId, key⟩
  | .raised _ accepted => accepted.map fun id => ⟨provider, id, key⟩

def recordSubmission (provider : String) (env : Env) (flight : Flight) (_ : Rows) (submissions : List Submission) :
    List Submission :=
  match flight with
  | .submitting key _ => submissions ++ (submittedAs provider key env.answer).toList
  | _ => submissions

def submitting (settings : Settings) (provider : String) :
    Protocol (Recorded Rows (List Submission)) (Noted Flight Unit) Request Env :=
  (lesson settings).withHistory (recordSubmission provider) fun _ _ => ()

/-- The lesson's rows, the submissions on record, and the recorded events of the transcription provider. -/
structure Subtitled where
  media : Recorded Rows (List Submission)
  results : List (WebhookEvent TranscriptionResult)
  deriving DecidableEq

inductive Operation
  | lesson (request : Request) (env : Env)
  | transcript (operation : Transcripts.Operation)
  deriving DecidableEq, Repr

/-- A callback without a transcript knows no job, and is marked. -/
def markUnknown (results : List (WebhookEvent TranscriptionResult)) :
    Transcripts.Operation → List (WebhookEvent TranscriptionResult)
  | .review .. => results
  | .callback webhookEventId now => markProcessed webhookEventId now results

/-- One operation, run to its end. No request takes more than three steps. -/
def operate (settings : Settings) (provider : String) (s : Subtitled) : Operation → Subtitled
  | .lesson request env => { s with media := (submitting settings provider).alone 3 env request s.media }
  | .transcript operation =>
    match s.media.store.transcript with
    | none => { s with results := markUnknown s.results operation }
    | some db =>
      let after := Transcripts.operate provider ⟨db, s.results⟩ operation
      { media := { s.media with store := { s.media.store with transcript := some after.db } }
        results := after.events }

/-- `approved_transcript_for`. -/
def approvedTranscriptFor (s : Rows) : Option Transcripts.Rows :=
  (s.transcript.map (·.rows)).filter fun rows =>
    s.media.db.rows.asset.any (·.pk = rows.transcript.mediaAsset) ∧
      rows.transcript.language = s.media.db.rows.lesson.language ∧ rows.transcript.kind = .target ∧
        rows.transcript.status = .approved

/-- The cues are the words of a job that was submitted with this key. -/
def FromKey (provider : String) (s : Subtitled) (key : ObjectKey) (segments : List TranscriptSegment) : Prop :=
  ∃ result ∈ s.results.map (·.payload), ⟨provider, result.jobId, key⟩ ∈ s.media.past ∧ ComesFrom result segments

instance (provider : String) (s : Subtitled) (key : ObjectKey) (segments : List TranscriptSegment) :
    Decidable (FromKey provider s key segments) := inferInstanceAs (Decidable (∃ result ∈ _, _ ∧ _))

/-- Subtitles served beside a playable asset are the words of its master. -/
def SubtitlesBelong (provider : String) (s : Subtitled) : Prop :=
  ∀ rows ∈ approvedTranscriptFor s.media.store, ∀ asset ∈ s.media.store.media.db.rows.asset, asset.status = .ready →
    FromKey provider s asset.sourceObjectKey rows.segments

instance (provider : String) : DecidablePred (SubtitlesBelong provider) :=
  fun _ => inferInstanceAs (Decidable (∀ rows ∈ _, ∀ asset ∈ _, _ → _))

/-- A master is replaced only while no transcription job is stored for the lesson. -/
def ReplacesBeforeSubmission (s : Subtitled) : Operation → Prop
  | .lesson (.media (.requestUpload actor contentType)) env =>
    Database.Commits MediaAssets.Rows.Valid (requestUpload actor contentType env.media.token env.media.newPk
        env.media.now s.media.store.media.db.rows) →
      ∀ db ∈ s.media.store.transcript, db.rows.transcript.providerJobId = none
  | _ => True

instance (s : Subtitled) : (operation : Operation) → Decidable (ReplacesBeforeSubmission s operation)
  | .lesson (.media (.requestUpload ..)) _ =>
    inferInstanceAs (Decidable (_ → ∀ db ∈ s.media.store.transcript, db.rows.transcript.providerJobId = none))
  | .lesson (.media (.completeUpload ..)) _ => inferInstanceAs (Decidable True)
  | .lesson (.media (.retryProcessing ..)) _ => inferInstanceAs (Decidable True)
  | .lesson (.media (.processMediaAsset ..)) _ => inferInstanceAs (Decidable True)
  | .lesson (.media (.applyMediaWebhook ..)) _ => inferInstanceAs (Decidable True)
  | .lesson (.requestTranscription ..) _ => inferInstanceAs (Decidable True)
  | .transcript _ => inferInstanceAs (Decidable True)

/-! ### Every request ends -/

/-- How many steps a request in flight may take after its next one. -/
def Flight.left : Flight → Nat
  | .media (.calling ..) => 1
  | .media _ => 0
  | .requesting .. => 2
  | .submitting .. => 1
  | .submitted .. => 0

theorem act_left {settings : Settings} {env : Env} {flight flight' : Flight} {s : Rows}
    (h : ((lesson settings).act env flight s).2 = some flight') : flight'.left < flight.left := by
  cases act_next h <;> simp [Flight.left]

theorem left_lt (flight : Flight) : flight.left < 3 := by
  cases flight with
  | media flight => cases flight <;> simp [Flight.left]
  | _ => simp [Flight.left]

/-- Three steps are all a request takes. -/
theorem alone_eq (settings : Settings) (provider : String) (env : Env) (request : Request)
    (s : Recorded Rows (List Submission)) {steps : Nat} (h : 3 ≤ steps) :
    (submitting settings provider).alone steps env request s = (submitting settings provider).alone 3 env request s := by
  simp only [Protocol.alone]
  cases (submitting settings provider).load request s with
  | none => rfl
  | some f =>
    have hless : ∀ (s : Recorded Rows (List Submission)) (f f' : Noted Flight Unit),
        ((submitting settings provider).act env f s).2 = some f' → f'.flight.left < f.flight.left :=
      fun s f f' hnext => act_left (Protocol.withHistory_next hnext).1
    have hleft := left_lt f.flight
    exact Protocol.finish_eq hless (by omega) hleft s

/-! ### The joint invariant -/

/-- The key on record. -/
def Rows.key (s : Rows) : Option ObjectKey := s.media.db.rows.key

/-- A stored job was submitted with the key on record, the cues are the words of such a job, and an approved transcript
has cues. -/
structure Belongs (provider : String) (s : Subtitled) : Prop where
  job : ∀ db ∈ s.media.store.transcript, ∀ id, db.rows.transcript.providerJobId = some id →
    ∀ key ∈ s.media.store.key, ⟨db.rows.transcript.provider, id, key⟩ ∈ s.media.past
  words : ∀ db ∈ s.media.store.transcript, db.rows.segments ≠ [] →
    db.rows.transcript.providerJobId ≠ none ∧ ∀ key ∈ s.media.store.key, FromKey provider s key db.rows.segments
  approved : ∀ db ∈ s.media.store.transcript, HasWords db.rows

theorem Belongs.subtitlesBelong {provider : String} {s : Subtitled} (h : Belongs provider s) :
    SubtitlesBelong provider s := by
  intro rows hrows asset hasset _
  obtain ⟨hfound, hserved⟩ := Option.mem_filter_iff.mp hrows
  obtain ⟨db, hdb, rfl⟩ := Option.map_eq_some_iff.mp hfound
  have happroved : db.rows.transcript.status = .approved := (of_decide_eq_true hserved).2.2.2
  have hkey : asset.sourceObjectKey ∈ s.media.store.key := by
    rw [Rows.key, MediaAssets.Rows.key, Option.mem_def.mp hasset]
    rfl
  exact (h.words db hdb (h.approved db hdb happroved)).2 _ hkey

/-- What an operation may do to the transcript keeps the invariant. -/
theorem belongs_of_handles {provider : String} {s s' : Subtitled} {db db' : Transcripts.Database} (h : Belongs provider s)
    (hbefore : s.media.store.transcript = some db) (hafter : s'.media.store.transcript = some db')
    (hmedia : s'.media.store.media = s.media.store.media) (hpast : s'.media.past = s.media.past)
    (hresults : s'.results.map (·.payload) = s.results.map (·.payload))
    (hhandles : Handles provider (s.results.map (·.payload)) db.rows db'.rows) : Belongs provider s' := by
  have hkey : s'.media.store.key = s.media.store.key := by rw [Rows.key, Rows.key, hmedia]
  obtain ⟨hprovider, hjob⟩ := hhandles.job
  constructor
  · intro other hother id hid key hmem
    rw [hafter, Option.mem_some_iff] at hother
    subst hother
    rw [hjob] at hid
    rw [hkey] at hmem
    rw [hprovider, hpast]
    exact h.job db hbefore id hid key hmem
  · intro other hother hne
    rw [hafter, Option.mem_some_iff] at hother
    subst hother
    rw [hjob, hkey]
    simp only [FromKey, hresults, hpast]
    rcases hhandles.source with ⟨result, hresult, ⟨hname, hstored⟩, hcomes⟩ | ⟨hempty, hcomes⟩
    · refine ⟨by simp [hstored], fun key hmem => ⟨result, hresult, ?_, hcomes⟩⟩
      rw [← hname]
      exact h.job db hbefore result.jobId hstored key hmem
    · obtain ⟨hsubmitted, hfrom⟩ := h.words db hbefore (mt hempty.mpr hne)
      refine ⟨hsubmitted, fun key hmem => ?_⟩
      obtain ⟨result, hresult, hsubmission, hsource⟩ := hfrom key hmem
      exact ⟨result, hresult, hsubmission, hcomes result hsource⟩
  · intro other hother
    rw [hafter, Option.mem_some_iff] at hother
    subst hother
    exact hhandles.words (h.approved db hbefore)

theorem operate_transcript_belongs {settings : Settings} {provider : String} {s : Subtitled}
    (operation : Transcripts.Operation) (h : Belongs provider s) :
    Belongs provider (operate settings provider s (.transcript operation)) := by
  cases htranscript : s.media.store.transcript with
  | none =>
    simp only [operate, htranscript]
    constructor <;> simp [htranscript]
  | some db =>
    have hhandles := operate_handles provider ⟨db, s.results⟩ operation
    have hresults := operate_results provider ⟨db, s.results⟩ operation
    simp only [operate, htranscript]
    exact belongs_of_handles h htranscript rfl rfl rfl hresults hhandles

/-! ### Requests on the lesson -/

/-- What a request on its own knows at each stage. -/
def Knows (env : Env) (s : Recorded Rows (List Submission)) (f : Noted Flight Unit) : Prop :=
  match f.flight with
  | .media (.uploading actor contentType) =>
    Database.Commits MediaAssets.Rows.Valid (requestUpload actor contentType env.media.token env.media.newPk
        env.media.now s.store.media.db.rows) → ∀ db ∈ s.store.transcript, db.rows.transcript.providerJobId = none
  | .media _ => True
  | .requesting asset _ => s.store.key = some asset.sourceObjectKey
  | .submitting key _ => s.store.key = some key
  | .submitted _ answer => ∀ job, answer = .ok job → job.status ≠ .failed →
    ∀ key ∈ s.store.key, ⟨job.provider, job.jobId, key⟩ ∈ s.past

/-- More submissions on record, and the same key, transcript and results, keep the invariant. -/
theorem Belongs.mono {provider : String} {s s' : Subtitled} (h : Belongs provider s)
    (htranscript : s'.media.store.transcript = s.media.store.transcript) (hkey : s'.media.store.key = s.media.store.key)
    (hpast : s.media.past ⊆ s'.media.past) (hresults : s'.results = s.results) : Belongs provider s' := by
  constructor
  · rw [htranscript, hkey]
    intro db hdb id hid key hmem
    exact hpast (h.job db hdb id hid key hmem)
  · rw [htranscript, hkey]
    intro db hdb hne
    obtain ⟨hsubmitted, hfrom⟩ := h.words db hdb hne
    refine ⟨hsubmitted, fun key hmem => ?_⟩
    obtain ⟨result, hresult, hsubmission, hcomes⟩ := hfrom key hmem
    exact ⟨result, hresults ▸ hresult, hpast hsubmission, hcomes⟩
  · rw [htranscript]
    exact h.approved

/-- While no job is stored the master is free to change. -/
theorem Belongs.replace {provider : String} {s s' : Subtitled} (h : Belongs provider s)
    (htranscript : s'.media.store.transcript = s.media.store.transcript)
    (hnone : ∀ db ∈ s.media.store.transcript, db.rows.transcript.providerJobId = none) : Belongs provider s' := by
  constructor
  · rw [htranscript]
    intro db hdb id hid
    rw [hnone db hdb] at hid
    cases hid
  · rw [htranscript]
    intro db hdb hne
    exact absurd (hnone db hdb) (h.words db hdb hne).1
  · rw [htranscript]
    exact h.approved

/-- A transcript just created has no job and no words. -/
theorem belongs_getOrCreate {provider : String} {s s' : Subtitled} {env : Env} {asset : MediaAsset}
    (h : Belongs provider s) (hafter : s'.media.store.transcript = some (transcriptFor env asset s.media.store))
    (hmedia : s'.media.store.media = s.media.store.media) (hpast : s'.media.past = s.media.past)
    (hresults : s'.results = s.results) : Belongs provider s' := by
  have hkey : s'.media.store.key = s.media.store.key := by rw [Rows.key, Rows.key, hmedia]
  cases htranscript : s.media.store.transcript with
  | some db =>
    have hsame : transcriptFor env asset s.media.store = db := by
      simp only [transcriptFor, getOrCreate, htranscript, Option.getD_some]
    rw [hsame, ← htranscript] at hafter
    exact h.mono hafter hkey (by rw [hpast]; exact List.Subset.refl _) hresults
  | none =>
    have hnew : (transcriptFor env asset s.media.store).rows =
        ⟨.new env.newTranscript asset.pk s.media.store.media.db.rows.lesson.instructor
          s.media.store.media.db.rows.lesson.language env.media.now, [], 0⟩ := by
      simp only [transcriptFor, getOrCreate, htranscript, Option.getD_none]
    constructor <;> simp [hafter, hnew, Transcript.new, HasWords]

/-- What the write of a submission leaves in the transcript's rows. -/
theorem writeSubmission_cases {maxRetries : Int} {retries : Nat} {takenJobs : List (String × String)}
    {answer : Except Raised TranscriptionJob} {rows rows' : Transcripts.Rows}
    (h : writeSubmission maxRetries retries takenJobs answer rows = .ok rows') :
    (∀ provider results, Handles provider results rows rows') ∨
      ∃ job, answer = .ok job ∧ job.status ≠ .failed ∧ rows' = saveSubmission job rows := by
  have hfailed : ∀ message attempts provider results,
      Handles provider results rows (Transcripts.recordFailure message attempts rows) :=
    fun _ _ _ _ => handles_of_segments ⟨rfl, rfl⟩ rfl (by simp [Transcripts.recordFailure])
  obtain ⟨⟨after, outcome⟩, hperform, rfl⟩ := map_eq_ok.mp h
  cases answer with
  | error exc =>
    simp only [performSubmission] at hperform
    split at hperform
    · cases hperform
      exact .inl (hfailed _ _)
    · cases hperform
      exact .inl fun _ _ => handles_of_segments ⟨rfl, rfl⟩ rfl .inl
  | ok job =>
    simp only [performSubmission] at hperform
    split_ifs at hperform with hstatus htaken
    · cases hperform
      exact .inl (hfailed _ _)
    · cases hperform
      exact .inr ⟨job, rfl, hstatus, rfl⟩

theorem act_media_belongs {settings : Settings} {provider : String} {env : Env}
    {results : List (WebhookEvent TranscriptionResult)} {s : Recorded Rows (List Submission)}
    {flight : MediaAssets.Flight} (hs : Belongs provider ⟨s, results⟩) (hf : Knows env s ⟨.media flight, ()⟩) :
    Belongs provider ⟨((submitting settings provider).act env ⟨.media flight, ()⟩ s).1, results⟩ := by
  by_cases hupload : ∃ actor contentType, flight = .uploading actor contentType ∧
      Database.Commits MediaAssets.Rows.Valid
        (requestUpload actor contentType env.media.token env.media.newPk env.media.now s.store.media.db.rows)
  · obtain ⟨actor, contentType, rfl, hcommits⟩ := hupload
    exact hs.replace rfl (hf hcommits)
  · have hkey : ((submitting settings provider).act env ⟨.media flight, ()⟩ s).1.store.key = s.store.key := by
      apply act_key
      intro actor contentType hflight hcommits
      exact hupload ⟨actor, contentType, hflight, hcommits⟩
    exact hs.mono rfl hkey (List.Subset.refl _) rfl

/-- The write of a submission keeps the invariant, as the job was submitted with the key on record. -/
theorem belongs_of_saveSubmission {provider : String} {s s' : Subtitled} {db db' : Transcripts.Database}
    {job : TranscriptionJob} (h : Belongs provider s) (hbefore : s.media.store.transcript = some db)
    (hafter : s'.media.store.transcript = some db') (hrows : db'.rows = saveSubmission job db.rows)
    (hkey : s'.media.store.key = s.media.store.key) (hpast : s'.media.past = s.media.past)
    (hresults : s'.results = s.results)
    (hjob : ∀ key ∈ s.media.store.key, ⟨job.provider, job.jobId, key⟩ ∈ s.media.past) : Belongs provider s' := by
  constructor
  · intro other hother id hid key hmem
    rw [hafter, Option.mem_some_iff] at hother
    subst hother
    rw [hkey] at hmem
    rw [hrows] at hid ⊢
    cases hid
    rw [hpast]
    exact hjob key hmem
  · intro other hother hne
    rw [hafter, Option.mem_some_iff] at hother
    subst hother
    rw [hrows] at hne ⊢
    refine ⟨by simp [saveSubmission], fun key hmem => ?_⟩
    rw [hkey] at hmem
    obtain ⟨result, hresult, hsubmission, hcomes⟩ := (h.words db hbefore hne).2 key hmem
    exact ⟨result, hresults ▸ hresult, hpast ▸ hsubmission, hcomes⟩
  · intro other hother
    rw [hafter, Option.mem_some_iff] at hother
    subst hother
    simp [HasWords, hrows, saveSubmission]

theorem act_submitted_belongs {settings : Settings} {provider : String} {env : Env}
    {results : List (WebhookEvent TranscriptionResult)} {s : Recorded Rows (List Submission)} {retries : Nat}
    {answer : Except Raised TranscriptionJob} (hs : Belongs provider ⟨s, results⟩)
    (hf : Knows env s ⟨.submitted retries answer, ()⟩) :
    Belongs provider ⟨((submitting settings provider).act env ⟨.submitted retries answer, ()⟩ s).1, results⟩ := by
  cases htranscript : s.store.transcript with
  | none =>
    have hafter : ((submitting settings provider).act env ⟨.submitted retries answer, ()⟩ s).1.store.transcript =
        s.store.transcript := by
      simp only [submitting, Protocol.withHistory_store, lesson, act, htranscript, Option.map_none]
    exact hs.mono hafter rfl (List.Subset.refl _) rfl
  | some db =>
    have hafter : ((submitting settings provider).act env ⟨.submitted retries answer, ()⟩ s).1.store.transcript =
        some (db.settle (writeSubmission settings.transcriptionMaxRetries retries env.takenJobs answer db.rows)) := by
      simp only [submitting, Protocol.withHistory_store, lesson, act, htranscript, Option.map_some]
    rcases db.settle_cases (writeSubmission settings.transcriptionMaxRetries retries env.takenJobs answer db.rows) with
      hsame | ⟨rows, hok, -, hrows⟩
    · rw [hsame, ← htranscript] at hafter
      exact hs.mono hafter rfl (List.Subset.refl _) rfl
    · rcases writeSubmission_cases hok with hhandles | ⟨job, rfl, hstatus, hsaved⟩
      · rw [← hrows] at hhandles
        exact belongs_of_handles hs htranscript hafter rfl rfl rfl (hhandles provider _)
      · exact belongs_of_saveSubmission hs htranscript hafter (hrows.trans hsaved) rfl rfl rfl (hf job rfl hstatus)

/-- The job under which a call returned is on record, with its key. -/
theorem mem_recordSubmission {provider : String} {env : Env} (key : ObjectKey) (retries : Nat) (rows : Rows)
    {submissions : List Submission} {job : TranscriptionJob} (hanswer : env.answer.result = .ok job)
    (hstatus : job.status ≠ .failed) :
    ⟨job.provider, job.jobId, key⟩ ∈ recordSubmission provider env (.submitting key retries) rows submissions := by
  simp only [recordSubmission]
  cases hcall : env.answer with
  | raised exc accepted =>
    rw [hcall] at hanswer
    cases hanswer
  | returned returned =>
    rw [hcall] at hanswer
    cases hanswer
    simp [submittedAs, hstatus]

theorem act_requesting_store {settings : Settings} {provider : String} {env : Env} {asset : MediaAsset} {retries : Nat}
    {s : Recorded Rows (List Submission)} :
    ((submitting settings provider).act env ⟨.requesting asset retries, ()⟩ s).1.store =
      { s.store with transcript := some (transcriptFor env asset s.store) } := by
  simp only [submitting, Protocol.withHistory_store, lesson, act]
  split <;> rfl

theorem act_requesting_belongs {settings : Settings} {provider : String} {env : Env}
    {results : List (WebhookEvent TranscriptionResult)} {s : Recorded Rows (List Submission)} {asset : MediaAsset}
    {retries : Nat} (hs : Belongs provider ⟨s, results⟩) :
    Belongs provider ⟨((submitting settings provider).act env ⟨.requesting asset retries, ()⟩ s).1, results⟩ := by
  have hafter : ((submitting settings provider).act env ⟨.requesting asset retries, ()⟩ s).1.store.transcript =
      some (transcriptFor env asset s.store) := by rw [act_requesting_store]
  have hmedia : ((submitting settings provider).act env ⟨.requesting asset retries, ()⟩ s).1.store.media =
      s.store.media := by rw [act_requesting_store]
  exact belongs_getOrCreate hs hafter hmedia rfl rfl

/-- Each step of a request on its own keeps the invariant, and the next stage knows what it has to. -/
theorem act_belongs {settings : Settings} {provider : String} {env : Env}
    {results : List (WebhookEvent TranscriptionResult)} {s : Recorded Rows (List Submission)} {f : Noted Flight Unit}
    (hs : Belongs provider ⟨s, results⟩) (hf : Knows env s f) :
    Belongs provider ⟨((submitting settings provider).act env f s).1, results⟩ ∧
      ∀ f', ((submitting settings provider).act env f s).2 = some f' →
        Knows env ((submitting settings provider).act env f s).1 f' := by
  obtain ⟨flight, ⟨⟩⟩ := f
  constructor
  · cases flight with
    | media flight => exact act_media_belongs hs hf
    | requesting asset retries => exact act_requesting_belongs hs
    | submitting key retries => exact hs.mono rfl rfl (List.subset_append_left _ _) rfl
    | submitted retries answer => exact act_submitted_belongs hs hf
  · intro f' hnext
    obtain ⟨flight', note⟩ := f'
    cases act_next (Protocol.withHistory_next hnext).1 with
    | media => trivial
    | requesting =>
      simp only [Knows, act_requesting_store]
      exact hf
    | @submitting key retries =>
      intro job hanswer hstatus key' hkey'
      have hsame : key' = key := Option.some.inj (hkey'.symm.trans hf)
      subst hsame
      exact mem_recordSubmission key' retries s.store hanswer hstatus

theorem load_knows {settings : Settings} {provider : String} {s : Subtitled} {request : Request} {env : Env}
    (hguard : ReplacesBeforeSubmission s (.lesson request env)) {f : Noted Flight Unit}
    (hload : (submitting settings provider).load request s.media = some f) : Knows env s.media f := by
  obtain ⟨hflight, -⟩ := Protocol.withHistory_load hload
  obtain ⟨flight, note⟩ := f
  cases load_loaded hflight with
  | media hmedia =>
    cases hmedia with
    | uploading => exact hguard
    | _ => trivial
  | requesting hplan => simp only [Knows, Rows.key, MediaAssets.Rows.key, planRequest_ok hplan, Option.map_some]

theorem operate_belongs {settings : Settings} {provider : String} {s : Subtitled} {operation : Operation}
    (h : Belongs provider s) (hguard : ReplacesBeforeSubmission s operation) :
    Belongs provider (operate settings provider s operation) := by
  cases operation with
  | lesson request env =>
    exact Protocol.alone_keeps (I := fun media => Belongs provider ⟨media, s.results⟩)
      (fun _ hload => load_knows hguard hload) (fun _ _ hs hf => act_belongs hs hf) 3 h
  | transcript operation => exact operate_transcript_belongs operation h

/-- A lesson without media and without a transcript. -/
def Subtitled.start (lesson : Lesson) (events : List (WebhookEvent ProviderWebhookEvent))
    (results : List (WebhookEvent TranscriptionResult)) : Subtitled :=
  ⟨⟨⟨Webhooks.start lesson events, none⟩, []⟩, results⟩

/-- Subtitles belong to the media being played in every state of a run that replaces no master whose transcription was
submitted. -/
theorem throughout_subtitlesBelong (settings : Settings) (provider : String) (lesson : Lesson)
    (events : List (WebhookEvent ProviderWebhookEvent)) (results : List (WebhookEvent TranscriptionResult))
    {run : List Operation}
    (hrun : Along (operate settings provider) ReplacesBeforeSubmission (Subtitled.start lesson events results) run) :
    Throughout (operate settings provider) (SubtitlesBelong provider) (Subtitled.start lesson events results) run := by
  have hstart : Belongs provider (Subtitled.start lesson events results) := by
    constructor <;> simp [Subtitled.start]
  have hinv := throughout_of_along (fun _ _ hs hguard => operate_belongs hs hguard) hstart hrun
  exact hinv.mono fun _ hs => hs.subtitlesBelong

/-- A moment at which an MP4 has landed, the video provider returns the given id and the transcription provider the one
job. -/
def moment (now : Instant) (token assetId : String) : Env where
  media :=
    { now := now, token := token, newPk := 5
      landed := ⟨some ⟨1024, "video/mp4", "etag"⟩, [0, 0, 0, 24] ++ ftyp⟩
      answer := .returned ⟨"fake", assetId, "fakeplay", .processing⟩ }
  newTranscript := 1
  takenJobs := []
  answer := .returned ⟨"fake", "job-1", .processing⟩

/-- A lesson before its first upload, and what the providers will report: two events about the first copy, one about the
second, and the words of the first. -/
def beforeUpload : Subtitled :=
  Subtitled.start ⟨6, 7, "es"⟩
    [(videoWebhookView "fake").record 50 ⟨"fakeevt_1", "video.asset.ready", "fakeasset_1", .ready, some 42⟩,
      (videoWebhookView "fake").record 51 ⟨"fakeevt_2", "video.asset.errored", "fakeasset_1", .errored, none⟩,
      (videoWebhookView "fake").record 52 ⟨"fakeevt_3", "video.asset.ready", "fakeasset_2", .ready, some 40⟩]
    [(transcriptionWebhookView "fake").record 53 ⟨"job-1", .completed, some 940, [⟨1, 0, 900, "ola"⟩]⟩]

/-- Upload, verify and process a master, and hear that it is ready. -/
def publishMaster (now : Instant) (token assetId : String) (event : Uuid) : List Operation :=
  let teacher : User := ⟨7, "teacher@example.test", .instructor, false⟩
  [.lesson (.media (.requestUpload teacher "video/mp4")) (moment now token assetId),
    .lesson (.media (.completeUpload teacher)) (moment now token assetId),
    .lesson (.media (.processMediaAsset 0)) (moment now token assetId),
    .lesson (.media (.applyMediaWebhook event)) (moment now token assetId)]

/-- Transcribe it, and approve the words. -/
def approveWords (now : Instant) : List Operation :=
  let teacher : User := ⟨7, "teacher@example.test", .instructor, false⟩
  [.lesson (.requestTranscription 0) (moment now "" ""), .transcript (.callback 53 now),
    .transcript (.review (.post .startReview teacher) now), .transcript (.review (.post .approve teacher) now)]

/-- A master is published and its words approved: they are served, and they belong to it. -/
theorem approved_words_belong :
    approvedTranscriptFor (final (operate ⟨⟨5368709120, 3, "fake"⟩, 3⟩ "fake") beforeUpload
        (publishMaster 1 "first" "fakeasset_1" 50 ++ approveWords 2)).media.store ≠ none ∧
      Throughout (operate ⟨⟨5368709120, 3, "fake"⟩, 3⟩ "fake") (SubtitlesBelong "fake") beforeUpload
        (publishMaster 1 "first" "fakeasset_1" 50 ++ approveWords 2) :=
  ⟨by decide, throughout_subtitlesBelong _ _ _ _ _ (by decide)⟩

/-- The copy fails after its words were approved, the master is replaced, and the new one is played with the old words. -/
theorem replaced_master_keeps_old_words :
    ¬ SubtitlesBelong "fake" (final (operate ⟨⟨5368709120, 3, "fake"⟩, 3⟩ "fake") beforeUpload
      (publishMaster 1 "first" "fakeasset_1" 50 ++ approveWords 2 ++
        .lesson (.media (.applyMediaWebhook 51)) (moment 3 "" "") :: publishMaster 4 "second" "fakeasset_2" 52)) := by
  decide

end EPlatform.Lessons
