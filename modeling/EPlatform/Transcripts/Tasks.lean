import EPlatform.Core.Text
import EPlatform.Core.Provider
import EPlatform.Core.WebhookEvent
import EPlatform.Transcripts.Transcript

/-!
# Asking a provider to transcribe, and hearing back

`request_transcription` and `apply_transcription_callback`, cut where the source leaves the database: what a task decides
from the rows it read, and the writes that follow. What a provider answers is an argument.
-/

namespace EPlatform.Transcripts

open Runs

/-- The provider vocabulary, and any other text that `parse_webhook` may read. -/
inductive TranscriptionStatus
  | processing
  | completed
  | failed
  | other (status : String)
  deriving DecidableEq, Repr

structure TranscribedSegment where
  position : Int
  startMs : Int
  endMs : Int
  text : String
  deriving DecidableEq, Repr

structure TranscriptionJob where
  provider : String
  jobId : String
  status : TranscriptionStatus
  deriving DecidableEq, Repr

/-- `confidence` is in thousandths, as the column keeps it. -/
structure TranscriptionResult where
  jobId : String
  status : TranscriptionStatus
  confidence : Option Int
  segments : List TranscribedSegment
  deriving DecidableEq, Repr

def recordFailure (message : String) (attempts : Int) (rows : Rows) : Rows :=
  { rows with
    transcript := { rows.transcript with
      status := .failed
      errorMessage := truncate message
      retryCount := attempts } }

/-! ### The request -/

/-- Seconds before an attempt. -/
def retryCountdown (attempt : Nat) : Nat := 2 ^ attempt * 10

inductive RequestOutcome
  | gone
  | notReady
  | alreadySubmitted
  | alreadyTranscribed (status : TranscriptStatus)
  | deadLettered
  | retry (countdown : Nat)
  | providerRefused
  | submitted
  deriving DecidableEq, Repr

/-- `Transcript(...)` with the columns' defaults. -/
def Transcript.new (pk mediaAsset instructor : Uuid) (language : String) (now : Instant) : Transcript where
  pk := pk
  mediaAsset := mediaAsset
  instructor := instructor
  language := language
  kind := .target
  status := .pending
  provider := ""
  providerJobId := none
  confidence := none
  reviewedBy := none
  approvedAt := none
  errorMessage := ""
  retryCount := 0
  updatedAt := now

theorem new_valid (pk mediaAsset instructor : Uuid) (language : String) (now : Instant) :
    (⟨.new pk mediaAsset instructor language now, [], 0⟩ : Rows).Valid := by
  have htranscript : (Transcript.new pk mediaAsset instructor language now).Valid := by
    constructor <;> simp [Transcript.new, IsPositiveInteger]
  exact ⟨htranscript, by simp, List.nodup_nil, List.nodup_nil, by simp⟩

/-- `Transcript.objects.get_or_create(...)`, for the one target transcript of an asset. -/
def getOrCreate (pk mediaAsset instructor : Uuid) (language : String) (now : Instant) (found : Option Database) :
    Database :=
  found.getD ⟨_, new_valid pk mediaAsset instructor language now⟩

/-- `if transcript.provider_job_id`: neither null nor empty. -/
def Transcript.isSubmitted (transcript : Transcript) : Bool := transcript.providerJobId.any (· ≠ "")

/-- The guards before the call. -/
def planSubmission (transcript : Transcript) : Except RequestOutcome Unit :=
  if transcript.isSubmitted then .error .alreadySubmitted
  else if transcript.status ∈ [.machine, .inReview, .approved] then .error (.alreadyTranscribed transcript.status)
  else .ok ()

/-- A task gets as far as the call only on a transcript without an id and without words. -/
theorem planSubmission_ok {transcript : Transcript} (h : planSubmission transcript = .ok ()) :
    (∀ id, transcript.providerJobId = some id → id = "") ∧
      transcript.status ∉ [TranscriptStatus.machine, .inReview, .approved] := by
  simp only [planSubmission] at h
  split_ifs at h with hsubmitted hstatus
  refine ⟨fun id hid => ?_, hstatus⟩
  by_contra hne
  exact hsubmitted (by simp [Transcript.isSubmitted, hid, hne])

def saveSubmission (job : TranscriptionJob) (rows : Rows) : Rows :=
  { rows with
    transcript := { rows.transcript with
      provider := job.provider
      providerJobId := some job.jobId
      status := .pending
      errorMessage := "" } }

/-- The write after the call. `retries` is `self.request.retries`, and `takenJobs` are the jobs of other transcripts. -/
def performSubmission (maxRetries : Int) (retries : Nat) (takenJobs : List (String × String))
    (answer : Except Raised TranscriptionJob) (rows : Rows) : Except Error (Rows × RequestOutcome) :=
  match answer with
  | .error exc =>
    let attempts : Int := retries + 1
    if attempts > maxRetries then .ok (recordFailure exc.message (attempts - 1) rows, .deadLettered)
    else
      .ok ({ rows with transcript := { rows.transcript with retryCount := attempts } }, .retry (retryCountdown (retries + 1)))
  | .ok job =>
    if job.status = .failed then .ok (recordFailure "The provider refused the job." retries rows, .providerRefused)
    else if (job.provider, job.jobId) ∈ takenJobs then .error (.jobTaken job.provider job.jobId)
    else .ok (saveSubmission job rows, .submitted)

/-- What is left in the rows. -/
def writeSubmission (maxRetries : Int) (retries : Nat) (takenJobs : List (String × String))
    (answer : Except Raised TranscriptionJob) (rows : Rows) : Except Error Rows :=
  (performSubmission maxRetries retries takenJobs answer rows).map Prod.fst

/-! ### The callback -/

inductive CallbackOutcome
  | gone
  | unknownJob
  | refusedReviewed (status : TranscriptStatus)
  | failed
  | transcribed
  | raised
  deriving DecidableEq, Repr

/-- What the callback decides from the transcript it looks up. -/
inductive CallbackPlan
  | unknownJob
  | refuseReviewed (status : TranscriptStatus)
  | fail
  | transcribe (result : TranscriptionResult)
  deriving DecidableEq, Repr

def Transcript.isFor (transcript : Transcript) (provider : String) (result : TranscriptionResult) : Prop :=
  transcript.provider = provider ∧ transcript.providerJobId = some result.jobId

instance (transcript : Transcript) (provider : String) (result : TranscriptionResult) :
    Decidable (transcript.isFor provider result) := inferInstanceAs (Decidable (_ ∧ _))

def planCallback (provider : String) (result : TranscriptionResult) (transcript : Transcript) : CallbackPlan :=
  if ¬ transcript.isFor provider result then .unknownJob
  else if transcript.status ∈ [.inReview, .approved] then .refuseReviewed transcript.status
  else if result.status = .failed then .fail
  else .transcribe result

/-- The rows `bulk_create` inserts. -/
def createSegments (result : TranscriptionResult) (nextPk : Uuid) (now : Instant) : List TranscriptSegment :=
  (result.segments.zipIdx nextPk).map fun (segment, pk) =>
    { pk
      position := segment.position
      startMs := segment.startMs
      endMs := segment.endMs
      text := segment.text
      isEdited := false
      updatedAt := now }

/-- Replaced rather than appended: every cue goes, whoever wrote it. -/
def transcribe (result : TranscriptionResult) (now : Instant) (rows : Rows) : Rows where
  transcript := { rows.transcript with status := .machine, confidence := result.confidence, errorMessage := "" }
  segments := createSegments result rows.nextPk now
  nextPk := rows.nextPk + result.segments.length

/-- The writes of a callback, and how its task ends. A constraint violation raises before the event is marked. -/
def performCallback (now : Instant) (db : Database) : CallbackPlan → Database × CallbackOutcome
  | .unknownJob => (db, .unknownJob)
  | .refuseReviewed status => (db, .refusedReviewed status)
  | .fail =>
    (db.settle (.ok (recordFailure "The provider failed to transcribe this audio." 0 db.rows) : Except Error Rows),
      .failed)
  | .transcribe result =>
    let result : Except Error Rows := .ok (transcribe result now db.rows)
    (db.settle result, if Database.Commits Rows.Valid result then .transcribed else .raised)

/-- A transcript and the webhook table. -/
structure Callbacks where
  db : Database
  events : List (WebhookEvent TranscriptionResult)
  deriving DecidableEq

def applyTranscriptionCallback (provider : String) (webhookEventId : Uuid) (now : Instant) (s : Callbacks) :
    Callbacks × CallbackOutcome :=
  match s.events.find? (·.pk = webhookEventId) with
  | none => (s, .gone)
  | some record =>
    let (db, outcome) := performCallback now s.db (planCallback provider record.payload s.db.rows.transcript)
    (⟨db, if outcome = .raised then s.events else markProcessed record.pk now s.events⟩, outcome)

/-- What a callback that looked its transcript up earlier leaves. -/
def finishCallback (webhookEventId : Uuid) (plan : CallbackPlan) (now : Instant) (s : Callbacks) : Callbacks :=
  let (db, outcome) := performCallback now s.db plan
  ⟨db, if outcome = .raised then s.events else markProcessed webhookEventId now s.events⟩

theorem applyTranscriptionCallback_of_find {provider : String} {webhookEventId : Uuid} {now : Instant} {s : Callbacks}
    {record : WebhookEvent TranscriptionResult} (h : s.events.find? (·.pk = webhookEventId) = some record) :
    (applyTranscriptionCallback provider webhookEventId now s).1 =
      finishCallback record.pk (planCallback provider record.payload s.db.rows.transcript) now s := by
  simp only [applyTranscriptionCallback, h, finishCallback]

/-! ### What a callback can do -/

/-- The cues and the confidence of a result satisfy the tables' constraints. -/
structure ResultFits (result : TranscriptionResult) : Prop where
  confidence : ∀ c, result.confidence = some c → 0 ≤ c ∧ c ≤ 1000
  spans : ∀ s ∈ result.segments, s.startMs < s.endMs ∧ 0 ≤ s.startMs ∧ IsInteger s.startMs ∧ IsInteger s.endMs
  position : ∀ s ∈ result.segments, IsPositiveInteger s.position
  positions : (result.segments.map (·.position)).Nodup

theorem recordFailure_valid {rows : Rows} (message : String) {attempts : Int} (hattempts : IsPositiveInteger attempts)
    (hrows : rows.Valid) : (recordFailure message attempts rows).Valid := by
  exact ⟨⟨by simp [recordFailure], hrows.1.2, hattempts, hrows.1.4⟩, hrows.2, hrows.3, hrows.4, hrows.5⟩

theorem saveSubmission_valid {rows : Rows} (job : TranscriptionJob) (h : rows.Valid) :
    (saveSubmission job rows).Valid ↔ job.provider.length ≤ 32 ∧ job.jobId.length ≤ 128 := by
  constructor
  · intro hafter
    obtain ⟨hprovider, hjob⟩ := hafter.transcript.lengths
    exact ⟨hprovider, hjob job.jobId rfl⟩
  · intro ⟨hprovider, hjob⟩
    refine ⟨⟨by simp [saveSubmission], h.1.2, h.1.3, hprovider, ?_⟩, h.2, h.3, h.4, h.5⟩
    intro id hid
    cases hid
    exact hjob

theorem createSegments_positions (result : TranscriptionResult) (nextPk : Uuid) (now : Instant) :
    (createSegments result nextPk now).map (·.position) = result.segments.map (·.position) := by
  have hfst : result.segments = (result.segments.zipIdx nextPk).map Prod.fst := (List.zipIdx_map_fst nextPk _).symm
  rw [createSegments, List.map_map]
  conv_rhs => rw [hfst, List.map_map]
  rfl

theorem createSegments_pks (result : TranscriptionResult) (nextPk : Uuid) (now : Instant) :
    (createSegments result nextPk now).map (·.pk) = List.range' nextPk result.segments.length := by
  rw [createSegments, List.map_map, ← List.zipIdx_map_snd]
  rfl

/-- Cues created by a callback have keys nothing had before. -/
theorem mem_createSegments {result : TranscriptionResult} {nextPk : Uuid} {now : Instant} {row : TranscriptSegment}
    (h : row ∈ createSegments result nextPk now) :
    nextPk ≤ row.pk ∧ row.pk < nextPk + result.segments.length := by
  have hpk : row.pk ∈ (createSegments result nextPk now).map (·.pk) := List.mem_map_of_mem h
  rw [createSegments_pks, List.mem_range'_1] at hpk
  exact hpk

theorem segment_of_mem_createSegments {result : TranscriptionResult} {nextPk : Uuid} {now : Instant}
    {row : TranscriptSegment} (h : row ∈ createSegments result nextPk now) :
    (⟨row.position, row.startMs, row.endMs, row.text⟩ : TranscribedSegment) ∈ result.segments := by
  obtain ⟨⟨segment, pk⟩, hsegment, rfl⟩ := List.mem_map.mp h
  exact List.fst_mem_of_mem_zipIdx hsegment

theorem exists_createSegments {result : TranscriptionResult} (nextPk : Uuid) (now : Instant)
    {segment : TranscribedSegment} (h : segment ∈ result.segments) :
    ∃ row ∈ createSegments result nextPk now,
      segment = ⟨row.position, row.startMs, row.endMs, row.text⟩ := by
  rw [← List.zipIdx_map_fst nextPk result.segments] at h
  obtain ⟨⟨_, pk⟩, hmem, rfl⟩ := List.mem_map.mp h
  exact ⟨_, List.mem_map_of_mem hmem, rfl⟩

/-- Replacing the cues of valid rows leaves valid rows exactly when the result fits the columns. -/
theorem transcribe_valid {result : TranscriptionResult} (now : Instant) {rows : Rows} (hrows : rows.Valid) :
    (transcribe result now rows).Valid ↔ ResultFits result := by
  constructor
  · rintro ⟨⟨-, hconfidence, -, -⟩, hsegments, hpositions, -, -⟩
    refine ⟨hconfidence, ?_, ?_, ?_⟩
    · intro segment hsegment
      obtain ⟨row, hrow, rfl⟩ := exists_createSegments rows.nextPk now hsegment
      obtain ⟨hlt, hnonneg, hstart, hend, -⟩ := hsegments row hrow
      exact ⟨hlt, hnonneg, hstart, hend⟩
    · intro segment hsegment
      obtain ⟨row, hrow, rfl⟩ := exists_createSegments rows.nextPk now hsegment
      exact (hsegments row hrow).position
    · rw [← createSegments_positions result rows.nextPk now]
      exact hpositions
  · rintro ⟨hconfidence, hspans, hposition, hpositions⟩
    refine ⟨⟨by simp [transcribe], hconfidence, hrows.1.3, hrows.1.4⟩, ?_, ?_, ?_, ?_⟩
    · intro row hrow
      have hsegment := segment_of_mem_createSegments hrow
      obtain ⟨hlt, hnonneg, hstart, hend⟩ := hspans _ hsegment
      exact ⟨hlt, hnonneg, hstart, hend, hposition _ hsegment⟩
    · rw [transcribe, createSegments_positions]
      exact hpositions
    · rw [transcribe, createSegments_pks]
      exact List.nodup_range'
    · intro row hrow
      exact (mem_createSegments hrow).2

theorem performCallback_transcribe {result : TranscriptionResult} (now : Instant) (db : Database)
    (hfits : ResultFits result) : (performCallback now db (.transcribe result)).1.rows = transcribe result now db.rows := by
  have hvalid := (transcribe_valid now db.valid).mpr hfits
  simp only [performCallback, Database.settle_ok hvalid]

/-- A callback leaves the rows alone, records a failure, or replaces all cues by those of a result that fits. -/
theorem performCallback_cases (now : Instant) (db : Database) (plan : CallbackPlan) :
    (performCallback now db plan).1 = db ∨
      (performCallback now db plan).1.rows =
        recordFailure "The provider failed to transcribe this audio." 0 db.rows ∨
      ∃ result, plan = .transcribe result ∧ ResultFits result ∧
        (performCallback now db plan).1.rows = transcribe result now db.rows := by
  cases plan with
  | unknownJob => exact .inl rfl
  | refuseReviewed status => exact .inl rfl
  | fail =>
    have hvalid : (recordFailure "The provider failed to transcribe this audio." 0 db.rows).Valid :=
      recordFailure_valid _ (by decide) db.valid
    refine .inr (.inl ?_)
    simp only [performCallback, Database.settle_ok hvalid]
  | transcribe result =>
    by_cases hfits : ResultFits result
    · exact .inr (.inr ⟨result, rfl, hfits, performCallback_transcribe now db hfits⟩)
    · have hvalid := mt (transcribe_valid now db.valid).mp hfits
      apply Or.inl
      simp only [performCallback, Database.settle_refused hvalid]

end EPlatform.Transcripts
