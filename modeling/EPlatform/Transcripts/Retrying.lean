import EPlatform.Transcripts.Applied
import EPlatform.Transcripts.Attempts

/-!
# Asking again for a failed transcript

One transcript from its first request on. It fails when the provider refuses it, when the budget is spent, or when a callback
says so, and a request that comes later may submit it once more.
-/

namespace EPlatform.Transcripts

open Runs MediaAssets

/-- The callback of a job that ended well makes a machine transcript of exactly its segments. -/
def ItsCallbackTranscribes (r : Recording) (job : TranscriptionJob) (s : Life) : Prop :=
  ∀ webhookEventId record now, s.results.find? (·.pk = webhookEventId) = some record →
    record.payload.jobId = job.jobId → record.payload.status = .completed → ResultFits record.payload →
      ∃ db, (live r s (.handle (.callback webhookEventId now))).transcript = some db ∧
        Transcribed record.payload ⟨db, s.results⟩

/-- A later request for a failed transcript, with a provider that accepts under its own name and an id the columns take,
submits a new job, and its callback is waited for. -/
def Resubmits (r : Recording) (s : Life) : Prop :=
  s.status = some .failed → ∀ retries sending job, sending.answer = .ok job → job.status ≠ .failed →
    job.provider = r.provider → job.Fits sending.takenJobs →
      (attemptTranscription r retries sending s.transcript).called = some r.asset.sourceObjectKey ∧
        (∃ db, (live r s (.request (sending.attempt retries))).transcript = some db ∧ db.rows.transcript.IsAwaiting job) ∧
          ItsCallbackTranscribes r job (live r s (.request (sending.attempt retries)))

/-- No callback fails a transcript whose job is on record. -/
def NoJobFails (r : Recording) (s : Life) (step : LifeStep) : Prop :=
  ∀ webhookEventId now, step = .handle (.callback webhookEventId now) →
    ∀ record, s.results.find? (·.pk = webhookEventId) = some record →
      ∀ db, s.transcript = some db → Fails r.provider record.payload db.rows.transcript →
        db.rows.transcript.isSubmitted = false

/-! ### What a resubmission needs -/

/-- A failed transcript names no job. -/
def Transcript.MayBeAskedFor (transcript : Transcript) : Prop :=
  transcript.status = .failed → transcript.isSubmitted = false

section Resubmission

variable {r : Recording} {s : Life} {retries : Nat} {sending : Sending} {job : TranscriptionJob} {db : Database}

theorem planSubmission_of_failed {transcript : Transcript} (hstatus : transcript.status = .failed)
    (hid : transcript.isSubmitted = false) : planSubmission transcript = .ok () := by
  simp [planSubmission, hid, hstatus]

theorem planSubmission_of_submitted {transcript : Transcript} (hid : transcript.isSubmitted = true) :
    planSubmission transcript = .error .alreadySubmitted := by
  simp [planSubmission, hid]

theorem callback_transcribes (hdb : s.transcript = some db) (hawaiting : db.rows.transcript.IsAwaiting job)
    (hprovider : job.provider = r.provider) : ItsCallbackTranscribes r job s := by
  intro webhookEventId record now hfind hjob hcompleted hfits
  obtain ⟨hpending, howner, hid, -⟩ := hawaiting
  have hoverwrites : Overwrites r.provider record.payload db.rows.transcript :=
    ⟨⟨howner.trans hprovider, by rw [hid, hjob]⟩, by simp [hcompleted], hfits, by simp [hpending]⟩
  simp only [live, hdb, operate]
  refine ⟨_, rfl, ?_⟩
  rw [applyTranscriptionCallback_db hfind]
  have hrows := report_of_overwrites now hoverwrites
  rw [report] at hrows
  simp only [Transcribed, hrows]
  exact ⟨rfl, createSegments_heard ..⟩

/-- A request for a ready asset that passes the guards leaves what it writes. -/
theorem requestTranscription_ready {found : Option Database}
    (hplan : planSubmission (transcriptOf r sending.newPk sending.now found).rows.transcript = .ok ()) :
    requestTranscription r (sending.attempt retries) found =
      some ((transcriptOf r sending.newPk sending.now found).settle (writeSubmission r.maxRetries retries sending.takenJobs
        sending.answer (transcriptOf r sending.newPk sending.now found).rows)) := by
  have hready : ∀ asset : MediaAsset, Lessons.planRequest (some { asset with status := .ready }) =
      .ok { asset with status := .ready } := fun _ => rfl
  simp only [transcriptOf] at hplan
  simp only [requestTranscription, Sending.attempt, Option.map_some, hready, transcriptOf, hplan]

/-- Without an id on record, the request makes its call. -/
theorem resubmits_of_unnamed (hdb : s.transcript = some db) (hplan : planSubmission db.rows.transcript = .ok ())
    (hanswer : sending.answer = .ok job) (haccepted : job.status ≠ .failed) (hprovider : job.provider = r.provider)
    (hfits : job.Fits sending.takenJobs) :
    (attemptTranscription r retries sending s.transcript).called = some r.asset.sourceObjectKey ∧
      (∃ db, (live r s (.request (sending.attempt retries))).transcript = some db ∧ db.rows.transcript.IsAwaiting job) ∧
        ItsCallbackTranscribes r job (live r s (.request (sending.attempt retries))) := by
  have hplan' : planSubmission (transcriptOf r sending.newPk sending.now s.transcript).rows.transcript = .ok () := by
    rw [hdb]
    exact hplan
  have hvalid := (saveSubmission_valid job (transcriptOf r sending.newPk sending.now s.transcript).valid).mpr hfits.lengths
  have hafter : (live r s (.request (sending.attempt retries))).transcript = some ⟨_, hvalid⟩ := by
    have hwrite := performSubmission_accepted r.maxRetries retries haccepted sending.takenJobs
      (transcriptOf r sending.newPk sending.now s.transcript).rows
    rw [if_neg hfits.free, ← hanswer] at hwrite
    show requestTranscription r (sending.attempt retries) s.transcript = _
    rw [requestTranscription_ready hplan', writeSubmission, hwrite, Except.map, Database.settle_ok hvalid]
  have hawaiting := saveSubmission_isAwaiting job (transcriptOf r sending.newPk sending.now s.transcript).rows
  exact ⟨attemptTranscription_called retries hplan', ⟨_, hafter, hawaiting⟩, callback_transcribes hafter hawaiting hprovider⟩

end Resubmission

/-! ### What the runs keep -/

section Run

variable {r : Recording} {s : Life}

def MayBeAskedFor (s : Life) : Prop := ∀ db ∈ s.transcript, db.rows.transcript.MayBeAskedFor

theorem performSubmission_mayBeAskedFor {maxRetries : Int} {retries : Nat} {takenJobs : List (String × String)}
    {answer : Except Raised TranscriptionJob} {rows rows' : Rows} (hplan : planSubmission rows.transcript = .ok ())
    (h : writeSubmission maxRetries retries takenJobs answer rows = .ok rows') : rows'.transcript.MayBeAskedFor := by
  have hid : rows.transcript.isSubmitted = false := by
    by_contra hid
    rw [planSubmission_of_submitted (by simpa using hid)] at hplan
    cases hplan
  obtain ⟨⟨left, outcome⟩, hperform, rfl⟩ := map_eq_ok.mp h
  unfold performSubmission at hperform
  split at hperform
  · simp only at hperform
    split_ifs at hperform <;> cases hperform <;> exact fun _ => hid
  · split_ifs at hperform <;> cases hperform
    · exact fun _ => hid
    · exact fun hstatus => absurd hstatus (by simp [saveSubmission])

theorem requestTranscription_mayBeAskedFor {attempt : Attempt} {found : Option Database}
    (h : ∀ db ∈ found, db.rows.transcript.MayBeAskedFor) :
    ∀ db ∈ requestTranscription r attempt found, db.rows.transcript.MayBeAskedFor := by
  unfold requestTranscription
  cases Lessons.planRequest (attempt.status.map fun status => { r.asset with status }) with
  | error outcome => exact h
  | ok asset =>
    have hcreated :
        (getOrCreate attempt.newPk asset.pk r.instructor r.language attempt.now found).rows.transcript.MayBeAskedFor := by
      cases found with
      | none => exact fun hstatus => absurd hstatus (by simp [getOrCreate, Transcript.new])
      | some db => exact h db rfl
    simp only
    generalize getOrCreate attempt.newPk asset.pk r.instructor r.language attempt.now found = db at hcreated
    cases hplan : planSubmission db.rows.transcript with
    | error outcome =>
      rintro _ ⟨⟩
      exact hcreated
    | ok u =>
      rintro _ ⟨⟩
      refine Database.settle_induction (P := fun rows : Rows => rows.transcript.MayBeAskedFor) hcreated ?_
      exact fun rows hok _ => performSubmission_mayBeAskedFor hplan hok

/-- A reviewer never files a transcript as failed. -/
theorem review_mayBeAskedFor {request : ReviewRequest} {now : Instant} {results : List (WebhookEvent TranscriptionResult)}
    {db : Database} (h : db.rows.transcript.MayBeAskedFor) :
    (operate r.provider ⟨db, results⟩ (.review request now)).db.rows.transcript.MayBeAskedFor := by
  have hoperates := operate_operates r.provider ⟨db, results⟩ (.review request now)
  generalize (operate r.provider ⟨db, results⟩ (.review request now)).db.rows = after at hoperates
  cases hoperates with
  | stays => exact h
  | corrects hok =>
    obtain ⟨⟨-, heditable, -⟩, -, rfl⟩ := editSegment_ok.mp hok
    have hbefore : db.rows.transcript.status ≠ .failed := by
      intro hfailed
      simp [hfailed, EDITABLE] at heditable
    intro hstatus
    rw [returnToReview_status] at hstatus
    split at hstatus
    · cases hstatus
    · exact absurd hstatus hbefore
  | @reviews action actor now after hok =>
    cases action with
    | startReview =>
      obtain ⟨-, -, rfl⟩ := startReview_ok.mp hok
      exact fun hstatus => absurd hstatus (by simp)
    | approve =>
      obtain ⟨-, -, -, rfl⟩ := approve_ok.mp hok
      exact fun hstatus => absurd hstatus (by simp)
    | reopen =>
      obtain ⟨-, -, rfl⟩ := reopen_ok.mp hok
      exact fun hstatus => absurd hstatus (by simp)

theorem callback_mayBeAskedFor {webhookEventId : Uuid} {now : Instant} {db : Database}
    {results : List (WebhookEvent TranscriptionResult)}
    (h : db.rows.transcript.MayBeAskedFor)
    (hG : ∀ record, results.find? (·.pk = webhookEventId) = some record → Fails r.provider record.payload db.rows.transcript →
      db.rows.transcript.isSubmitted = false) :
    (operate r.provider ⟨db, results⟩ (.callback webhookEventId now)).db.rows.transcript.MayBeAskedFor := by
  simp only [operate]
  cases hfind : results.find? (·.pk = webhookEventId) with
  | none =>
    simp only [applyTranscriptionCallback, hfind]
    exact h
  | some record =>
    rw [applyTranscriptionCallback_db hfind, ← report]
    rcases passes_or_fails_or_overwrites r.provider record.payload db.rows.transcript with hpasses | hfails | hoverwrites
    · rw [report_of_passes hpasses]
      exact h
    · rw [report_of_fails _ hfails]
      exact fun _ => hG record hfind hfails
    · rw [report_of_overwrites _ hoverwrites]
      exact fun hstatus => absurd hstatus (by simp [transcribe])

theorem live_mayBeAskedFor {step : LifeStep} (hs : MayBeAskedFor s) (hG : NoJobFails r s step) :
    MayBeAskedFor (live r s step) := by
  cases step with
  | request attempt => exact requestTranscription_mayBeAskedFor hs
  | handle operation =>
    simp only [MayBeAskedFor, live]
    cases hdb : s.transcript with
    | none =>
      rintro db ⟨⟩
    | some db =>
      rintro _ ⟨⟩
      cases operation with
      | review request now => exact review_mayBeAskedFor (hs db hdb)
      | callback webhookEventId now =>
        exact callback_mayBeAskedFor (hs db hdb) fun record hfind hfails =>
          hG webhookEventId now rfl record hfind db hdb hfails

theorem resubmits_of_mayBeAskedFor (hs : MayBeAskedFor s) : Resubmits r s := by
  intro hstatus retries sending job hanswer haccepted hprovider hfits
  obtain ⟨db, hdb, hfailed⟩ := Option.map_eq_some_iff.mp hstatus
  exact resubmits_of_unnamed hdb (planSubmission_of_failed hfailed (hs db hdb hfailed)) hanswer haccepted hprovider hfits

/-- A callback that fails a job on record leaves its id, and a request stops before its call. -/
theorem not_resubmits_of_jobFails {step : LifeStep} (hG : ¬ NoJobFails r s step) : ¬ Resubmits r (live r s step) := by
  simp only [NoJobFails, not_forall, Bool.not_eq_false] at hG
  obtain ⟨pk, now, rfl, record, hfind, db, hdb, hfails, hid⟩ := hG
  have hafter : ∃ after, (live r s (.handle (.callback pk now))).transcript = some after ∧
      after.rows = recordFailure "The provider failed to transcribe this audio." 0 db.rows := by
    simp only [live, hdb, operate]
    refine ⟨_, rfl, ?_⟩
    rw [applyTranscriptionCallback_db hfind, ← report, report_of_fails _ hfails]
  obtain ⟨after, hafter, hrows⟩ := hafter
  have hstatus : (live r s (.handle (.callback pk now))).status = some .failed := by
    rw [Life.status, hafter, Option.map_some, hrows]
    rfl
  have hlengths : r.provider.length ≤ 32 := hfails.1.1 ▸ db.valid.transcript.lengths.1
  intro hresubmits
  have hcalled := (hresubmits hstatus 0 ⟨0, [], .ok ⟨r.provider, "", .processing⟩, 0⟩ ⟨r.provider, "", .processing⟩ rfl
    (by simp) rfl ⟨by simp, hlengths, by simp⟩).1
  have hplan : planSubmission (transcriptOf r 0 0 (some after)).rows.transcript = .error .alreadySubmitted := by
    apply planSubmission_of_submitted
    show after.rows.transcript.isSubmitted = true
    rw [hrows]
    exact hid
  simp only [attemptTranscription, hafter, hplan] at hcalled
  cases hcalled

end Run

/-- A failed transcript can be asked for again in every state of exactly the runs in which no callback fails one whose job is
on record. -/
theorem throughout_resubmits_iff (r : Recording) (results : List (WebhookEvent TranscriptionResult)) (run : List LifeStep) :
    Throughout (live r) (Resubmits r) ⟨none, results⟩ run ↔ Along (live r) (NoJobFails r) ⟨none, results⟩ run := by
  refine throughout_iff_along (I := MayBeAskedFor) (fun s step hs hG => live_mayBeAskedFor hs hG)
    (fun s step _ hG => not_resubmits_of_jobFails hG) (fun s hs => resubmits_of_mayBeAskedFor hs) ?_
  simp [MayBeAskedFor]

/-- The job is submitted, its provider reports that it failed, and another request makes no call. -/
theorem request_after_failed_callback_calls_nobody :
    ¬ Throughout (live recording) (Resubmits recording)
      ⟨none, submitted.events.map fun event => { event with payload := { event.payload with status := .failed, segments := [] } }⟩
      [.request ⟨some .ready, 1, 0, [], .ok ⟨"fake", "job-1", .processing⟩, 90⟩, .handle (.callback 50 100)] := by
  intro hrun
  have hend := throughout_iff_earlier.mp hrun _ List.prefix_rfl
  have hcalled := (hend (by decide) 0 ⟨2, [], .ok ⟨"fake", "job-2", .processing⟩, 110⟩ ⟨"fake", "job-2", .processing⟩ rfl
    (by decide) rfl ⟨by decide, by decide⟩).1
  revert hcalled
  decide

end EPlatform.Transcripts
