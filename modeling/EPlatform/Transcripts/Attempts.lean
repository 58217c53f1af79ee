import EPlatform.Runs.Retries
import EPlatform.Transcripts.Signature

/-!
# Attempts at a transcription

`request_transcription` as one function, for an asset that stays ready: its guards, the call, the write that follows, and
whether it schedules a retry.
-/

namespace EPlatform.Transcripts

open Runs MediaAssets

/-- What the environment brings to one execution. -/
structure Sending where
  newPk : Uuid
  takenJobs : List (String × String)
  answer : Except Raised TranscriptionJob
  now : Instant

/-- The `retries`-th retry as a request. -/
def Sending.attempt (sending : Sending) (retries : Nat) : Attempt where
  status := some .ready
  newPk := sending.newPk
  retries := retries
  takenJobs := sending.takenJobs
  answer := sending.answer
  now := sending.now

/-- The transcript a request works on. -/
def transcriptOf (r : Recording) (newPk : Uuid) (now : Instant) (found : Option Database) : Database :=
  getOrCreate newPk r.asset.pk r.instructor r.language now found

/-- The task is queued again. -/
def RequestOutcome.again (now : Instant) : RequestOutcome → Bool
  | .retry countdown => queueTakes now countdown
  | _ => false

/-- The texts that the write after the call sends. -/
def sentTexts (maxRetries : Int) (retries : Nat) : Except Raised TranscriptionJob → List String
  | .error exc => if (retries + 1 : Int) > maxRetries then [truncate exc.message] else []
  | .ok job => if job.status = .failed then [] else [job.provider, job.jobId]

/-- An execution that `retries` others came before. A retry is asked for after its count is written. -/
def attemptTranscription (r : Recording) (retries : Nat) (sending : Sending) (found : Option Database) :
    Attempted (Option Database) ObjectKey :=
  let db := transcriptOf r sending.newPk sending.now found
  match planSubmission db.rows.transcript with
  | .error _ => ⟨some db, none, false⟩
  | .ok _ =>
    if ∀ text ∈ sentTexts r.maxRetries retries sending.answer, IsSendable text then
      let result := performSubmission r.maxRetries retries sending.takenJobs sending.answer db.rows
      ⟨some (db.settle (result.map Prod.fst)), some r.asset.sourceObjectKey,
        (result.map Prod.snd).toOption.any (·.again sending.now) ∧ Database.Commits Rows.Valid (result.map Prod.fst)⟩
    else ⟨some db, some r.asset.sourceObjectKey, false⟩

/-- The columns take the id, and no other transcript has it. -/
structure TranscriptionJob.Fits (takenJobs : List (String × String)) (job : TranscriptionJob) : Prop where
  free : (job.provider, job.jobId) ∉ takenJobs
  lengths : job.provider.length ≤ 32 ∧ job.jobId.length ≤ 128

/-- What a last call leaves to be stored can be sent, and an accepted job has an id that fits, and that the guard sees. -/
def SendingFits (sending : Sending) : Prop :=
  match sending.answer with
  | .error exc => IsSendable (truncate exc.message)
  | .ok job => job.status ≠ .failed →
    job.Fits sending.takenJobs ∧ job.jobId ≠ "" ∧ ∀ text ∈ [job.provider, job.jobId], IsSendable text

/-- The job a provider accepted is on record, and its callback is awaited. -/
def Transcript.IsAwaiting (job : TranscriptionJob) (transcript : Transcript) : Prop :=
  transcript.status = .pending ∧ transcript.provider = job.provider ∧ transcript.providerJobId = some job.jobId ∧
    transcript.errorMessage = ""

/-- Filed as failed, with the reason, which is a text, and the number of retries made. -/
def Transcript.IsFiled (message : String) (retries : Nat) (transcript : Transcript) : Prop :=
  transcript.status = .failed ∧ transcript.errorMessage ≠ "" ∧ transcript.retryCount = retries ∧
    transcript.errorMessage = truncate message ∧ IsSendable transcript.errorMessage

/-- After `failures` failed attempts the row is what it was but for the count. -/
def Rows.waiting (failures : Nat) (rows : Rows) : Rows :=
  if failures = 0 then rows else { rows with transcript := { rows.transcript with retryCount := failures } }

/-- The next attempt is queued, and the transcript, which the first one creates, is otherwise untouched. -/
def Waits (r : Recording) (found : Option Database) (failures : Nat) (left : Option Database) : Prop :=
  (failures = 0 ∧ left = found) ∨
    ∃ newPk now db, left = some db ∧ db.rows = (transcriptOf r newPk now found).rows.waiting failures

/-- What the row is after the last call, the `retries`-th retry. -/
def Ends (retries : Nat) (sending : Sending) (left : Option Database) : Prop :=
  ∃ db, left = some db ∧
    match sending.answer with
    | .error exc => db.rows.transcript.IsFiled exc.message retries
    | .ok job =>
      if job.status = .failed then db.rows.transcript.IsFiled "The provider refused the job." retries
      else db.rows.transcript.isSubmitted = true ∧ db.rows.transcript.IsAwaiting job

/-! ### One execution -/

section Execution

variable {r : Recording} {retries : Nat} {sending : Sending} {found : Option Database} {rows : Rows}

theorem waiting_transcript (n : Nat) (rows : Rows) : planSubmission (rows.waiting n).transcript =
    planSubmission rows.transcript := by
  unfold Rows.waiting
  split <;> rfl

theorem retryCount_valid {count : Int} (hcount : IsPositiveInteger count) (hvalid : rows.Valid) :
    ({ rows with transcript := { rows.transcript with retryCount := count } } : Rows).Valid :=
  ⟨⟨hvalid.1.1, hvalid.1.2, hcount, hvalid.1.4⟩, hvalid.2, hvalid.3, hvalid.4, hvalid.5⟩

/-- Past its guards an execution makes its call. It asks for a retry when that is what it writes and may write. -/
theorem attemptTranscription_of_ok {outcome : RequestOutcome}
    (hplan : planSubmission (transcriptOf r sending.newPk sending.now found).rows.transcript = .ok ())
    (hsent : ∀ text ∈ sentTexts r.maxRetries retries sending.answer, IsSendable text)
    (hperform : performSubmission r.maxRetries retries sending.takenJobs sending.answer
      (transcriptOf r sending.newPk sending.now found).rows = .ok (rows, outcome))
    (hvalid : rows.Valid) :
    attemptTranscription r retries sending found =
      ⟨some ⟨rows, hvalid⟩, some r.asset.sourceObjectKey, outcome.again sending.now⟩ := by
  simp only [attemptTranscription, hplan, if_pos hsent, hperform, Except.map, Database.settle_ok hvalid]
  simp [Except.toOption, Database.Commits, hvalid]

theorem attemptTranscription_refused
    (hplan : planSubmission (transcriptOf r sending.newPk sending.now found).rows.transcript = .ok ())
    (hrefused : (∀ text ∈ sentTexts r.maxRetries retries sending.answer, IsSendable text) →
      ¬ Database.Commits Rows.Valid (writeSubmission r.maxRetries retries sending.takenJobs sending.answer
        (transcriptOf r sending.newPk sending.now found).rows)) :
    attemptTranscription r retries sending found =
      ⟨some (transcriptOf r sending.newPk sending.now found), some r.asset.sourceObjectKey, false⟩ := by
  by_cases hsent : ∀ text ∈ sentTexts r.maxRetries retries sending.answer, IsSendable text
  · have hrows := hrefused hsent
    rw [writeSubmission] at hrows
    simp only [attemptTranscription, hplan, if_pos hsent, Database.settle_of_not_commits hrows]
    simp [hrows]
  · simp only [attemptTranscription, hplan, if_neg hsent]

/-- An execution that files its failure is the last. -/
theorem stops_filed {message : String} {outcome : RequestOutcome}
    (hplan : planSubmission (transcriptOf r sending.newPk sending.now found).rows.transcript = .ok ())
    (hperform : ∀ rows, performSubmission r.maxRetries retries sending.takenJobs sending.answer rows =
      .ok (recordFailure message retries rows, outcome))
    (hsent : ∀ text ∈ sentTexts r.maxRetries retries sending.answer, IsSendable text) (hmessage : message ≠ "")
    (htext : IsSendable (truncate message)) (houtcome : outcome.again sending.now = false) (hlimit : retries ≤ 2147483647) :
    (attemptTranscription r retries sending found).called.isSome = true ∧
      (attemptTranscription r retries sending found).again = false ∧
      ∃ db, (attemptTranscription r retries sending found).state = some db ∧
        db.rows.transcript.IsFiled message retries := by
  have hvalid : (recordFailure message retries (transcriptOf r sending.newPk sending.now found).rows).Valid :=
    recordFailure_valid message ⟨by omega, by omega⟩ (transcriptOf r sending.newPk sending.now found).valid
  rw [attemptTranscription_of_ok hplan hsent (hperform _) hvalid]
  exact ⟨rfl, houtcome, _, rfl, rfl, truncate_ne_empty hmessage, rfl, rfl, htext⟩

theorem performSubmission_accepted {job : TranscriptionJob} (maxRetries : Int) (retries : Nat)
    (haccepted : job.status ≠ .failed) (takenJobs : List (String × String)) (rows : Rows) :
    performSubmission maxRetries retries takenJobs (.ok job) rows =
      if (job.provider, job.jobId) ∈ takenJobs then .error (.jobTaken job.provider job.jobId)
      else .ok (saveSubmission job rows, .submitted) := by
  simp only [performSubmission, if_neg haccepted]

theorem saveSubmission_isAwaiting (job : TranscriptionJob) (rows : Rows) :
    (saveSubmission job rows).transcript.IsAwaiting job :=
  ⟨rfl, rfl, rfl, rfl⟩

/-- Past its guards an execution makes its call, whatever comes of it. -/
theorem attemptTranscription_called (retries : Nat)
    (hplan : planSubmission (transcriptOf r sending.newPk sending.now found).rows.transcript = .ok ()) :
    (attemptTranscription r retries sending found).called = some r.asset.sourceObjectKey := by
  simp only [attemptTranscription, hplan]
  split <;> rfl

theorem stops_awaiting (retries : Nat) {job : TranscriptionJob} (hanswer : sending.answer = .ok job)
    (haccepted : job.status ≠ .failed) (hfits : job.Fits sending.takenJobs) (hid : job.jobId ≠ "")
    (hsendable : ∀ text ∈ [job.provider, job.jobId], IsSendable text)
    (hplan : planSubmission (transcriptOf r sending.newPk sending.now found).rows.transcript = .ok ()) :
    (attemptTranscription r retries sending found).again = false ∧
      ∃ db, (attemptTranscription r retries sending found).state = some db ∧ db.rows.transcript.isSubmitted = true ∧
        db.rows.transcript.IsAwaiting job := by
  have hsent : ∀ text ∈ sentTexts r.maxRetries retries sending.answer, IsSendable text := by
    simp only [hanswer, sentTexts, if_neg haccepted]
    exact hsendable
  have hperform := performSubmission_accepted r.maxRetries retries haccepted sending.takenJobs
    (transcriptOf r sending.newPk sending.now found).rows
  rw [if_neg hfits.free, ← hanswer] at hperform
  have hvalid := (saveSubmission_valid job (transcriptOf r sending.newPk sending.now found).valid).mpr hfits.lengths
  rw [attemptTranscription_of_ok hplan hsent hperform hvalid]
  refine ⟨rfl, _, rfl, ?_, saveSubmission_isAwaiting job _⟩
  simp [saveSubmission, Transcript.isSubmitted, hid]

end Execution

/-! ### The budget -/

section Budget

variable {r : Recording} {maxRetries n : Nat} {sending : Sending} {found left : Option Database}

/-- Whatever moment the next attempt comes at, it finds the transcript waiting. -/
theorem Waits.transcript (h : Waits r found n left) (newPk : Uuid) (now : Instant) :
    ∃ newPk' now', (transcriptOf r newPk now left).rows = (transcriptOf r newPk' now' found).rows.waiting n := by
  rcases h with ⟨rfl, rfl⟩ | ⟨newPk', now', db, rfl, hrows⟩
  · exact ⟨newPk, now, (if_pos rfl).symm⟩
  · exact ⟨newPk', now', hrows⟩

/-- A transcript that may be asked for, or is not there yet. -/
def MayBeSubmitted (found : Option Database) : Prop := ∀ db ∈ found, planSubmission db.rows.transcript = .ok ()

theorem MayBeSubmitted.transcript (h : MayBeSubmitted found) (newPk : Uuid) (now : Instant) :
    planSubmission (transcriptOf r newPk now found).rows.transcript = .ok () := by
  cases found with
  | none => rfl
  | some db => exact h db rfl

theorem Waits.passes (h : Waits r found n left) (hopen : MayBeSubmitted found) (newPk : Uuid) (now : Instant) :
    planSubmission (transcriptOf r newPk now left).rows.transcript = .ok () := by
  obtain ⟨newPk', now', hrows⟩ := h.transcript newPk now
  rw [hrows, waiting_transcript]
  exact hopen.transcript newPk' now'

/-- The column has taken the count. -/
theorem Waits.counted (h : Waits r found n left) : n ≤ 2147483647 := by
  obtain ⟨newPk, now, hrows⟩ := h.transcript 0 0
  have hvalid := (transcriptOf r 0 0 left).valid.transcript.retryCount.2
  rw [hrows, Rows.waiting] at hvalid
  split at hvalid
  · omega
  · exact Int.ofNat_le.mp hvalid

/-- Whether the retry that is asked for now is queued. -/
def RetryTaken (n : Nat) (sending : Sending) : Prop := queueTakes sending.now (retryCountdown (n + 1)) = true

theorem RetryTaken.le (h : RetryTaken n sending) : n + 1 ≤ 34 := by
  by_contra hover
  rw [RetryTaken, retryCountdown, queueTakes_eq_false (by omega)] at h
  cases h

theorem performSubmission_raises {exc : Raised} (hbudget : n < r.maxRetries) (takenJobs : List (String × String))
    (rows : Rows) : performSubmission r.maxRetries n takenJobs (.error exc) rows =
      .ok ({ rows with transcript := { rows.transcript with retryCount := (n + 1 : Int) } },
        .retry (retryCountdown (n + 1))) := by
  simp only [performSubmission, if_neg (show ¬ (n + 1 : Int) > r.maxRetries by omega)]

theorem sentTexts_raises {exc : Raised} (hbudget : n < r.maxRetries) : sentTexts r.maxRetries n (.error exc) = [] := by
  simp only [sentTexts, if_neg (show ¬ (n + 1 : Int) > r.maxRetries by omega)]

/-- An execution whose call raises, with retries left, counts it and asks the queue. -/
theorem counts (h : Waits r found n left) (hopen : MayBeSubmitted found) (hbudget : n < r.maxRetries)
    (hlimit : n < 2147483647) (hraises : CallRaises sending.answer) :
    (attemptTranscription r n sending left).called.isSome = true ∧
      (attemptTranscription r n sending left).again = queueTakes sending.now (retryCountdown (n + 1)) ∧
      Waits r found (n + 1) (attemptTranscription r n sending left).state := by
  obtain ⟨exc, hexc⟩ := hraises
  obtain ⟨newPk, now, hrows⟩ := h.transcript sending.newPk sending.now
  have hcount : IsPositiveInteger (n + 1) := ⟨by omega, by omega⟩
  have hvalid := retryCount_valid hcount (transcriptOf r sending.newPk sending.now left).valid
  have hsent : sentTexts r.maxRetries n sending.answer = [] := hexc ▸ sentTexts_raises hbudget
  rw [attemptTranscription_of_ok (h.passes hopen _ _) (by simp [hsent])
    (hexc ▸ performSubmission_raises hbudget _ _) hvalid]
  refine ⟨rfl, rfl, .inr ⟨newPk, now, _, rfl, ?_⟩⟩
  simp only [hrows, Rows.waiting]
  split <;> simp

/-- The failure that the column cannot count raises in the handler, and no retry is asked for. -/
theorem raises_uncounted (h : Waits r found n left) (hopen : MayBeSubmitted found) (hbudget : n < r.maxRetries)
    (hover : 2147483647 ≤ n) (hraises : CallRaises sending.answer) :
    (attemptTranscription r n sending left).again = false := by
  obtain ⟨exc, hexc⟩ := hraises
  rw [attemptTranscription_refused (h.passes hopen _ _)]
  intro _ hcommits
  rw [writeSubmission, hexc, performSubmission_raises hbudget] at hcommits
  have hcount := hcommits.transcript.retryCount.2
  dsimp only at hcount
  omega

theorem stops (h : Waits r found n left) (hopen : MayBeSubmitted found)
    (hlast : CallRaises sending.answer → (n : Int) = r.maxRetries) (hfits : SendingFits sending) :
    (attemptTranscription r n sending left).called.isSome = true ∧
      (attemptTranscription r n sending left).again = false ∧
      Ends n sending (attemptTranscription r n sending left).state := by
  have hplan := h.passes hopen sending.newPk sending.now
  have hlimit := h.counted
  unfold Ends
  unfold SendingFits at hfits
  cases hanswer : sending.answer with
  | error exc =>
    have hbudget := hlast ⟨exc, hanswer⟩
    have hperform : ∀ rows, performSubmission r.maxRetries n sending.takenJobs sending.answer rows =
        .ok (recordFailure exc.message n rows, .deadLettered) := by
      intro rows
      simp only [performSubmission, hanswer, if_pos (show (n + 1 : Int) > r.maxRetries by omega), Int.add_sub_cancel]
    rw [hanswer] at hfits
    have hsent : ∀ text ∈ sentTexts r.maxRetries n sending.answer, IsSendable text := by
      simp only [hanswer, sentTexts, if_pos (show (n + 1 : Int) > r.maxRetries by omega), List.mem_singleton, forall_eq]
      exact hfits
    exact stops_filed hplan hperform hsent exc.message_ne_empty hfits rfl hlimit
  | ok job =>
    by_cases hrefused : job.status = .failed
    · have hperform : ∀ rows, performSubmission r.maxRetries n sending.takenJobs sending.answer rows =
          .ok (recordFailure "The provider refused the job." n rows, .providerRefused) := by
        intro rows
        simp only [performSubmission, hanswer, if_pos hrefused]
      have hsent : sentTexts r.maxRetries n sending.answer = [] := by
        simp only [hanswer, sentTexts, if_pos hrefused]
      simp only [if_pos hrefused]
      exact stops_filed hplan hperform (by simp [hsent]) (by decide) (by decide) rfl hlimit
    · rw [hanswer] at hfits
      obtain ⟨hid, hnonempty, hsendable⟩ := hfits hrefused
      simp only [if_neg hrefused]
      exact ⟨Option.isSome_of_mem (attemptTranscription_called n hplan),
        stops_awaiting n hanswer hrefused hid hnonempty hsendable hplan⟩

/-- What does not fit is not written, and the transcript stays as it was. -/
theorem misses (h : Waits r found n left) (hopen : MayBeSubmitted found) (hmisfit : ¬ SendingFits sending) :
    ¬ Ends n sending (attemptTranscription r n sending left).state := by
  have hplan := h.passes hopen sending.newPk sending.now
  unfold SendingFits at hmisfit
  intro ⟨db, hdb, hended⟩
  cases hanswer : sending.answer with
  | error exc =>
    -- a reason that was filed is a text, and it is the reason of this call
    rw [hanswer] at hended hmisfit
    obtain ⟨-, -, -, hmessage, htext⟩ := hended
    rw [hmessage] at htext
    exact hmisfit htext
  | ok job =>
    rw [hanswer] at hended hmisfit
    have haccepted : job.status ≠ .failed := fun hrefused => hmisfit fun haccepted => absurd hrefused haccepted
    simp only [if_neg haccepted] at hended
    obtain ⟨hsubmitted, hawaiting⟩ := hended
    have hnonempty : job.jobId ≠ "" := by
      intro hempty
      simp [Transcript.isSubmitted, hawaiting.2.2.1, hempty] at hsubmitted
    have hsame : attemptTranscription r n sending left = _ :=
        attemptTranscription_refused hplan fun hsent hcommits => hmisfit fun _ => by
      rw [writeSubmission, hanswer, performSubmission_accepted r.maxRetries n haccepted] at hcommits
      simp only [hanswer, sentTexts, if_neg haccepted] at hsent
      split_ifs at hcommits with htaken
      · exact hcommits.elim
      · have hlengths := (saveSubmission_valid job (transcriptOf r sending.newPk sending.now left).valid).mp hcommits
        exact ⟨⟨htaken, hlengths⟩, hnonempty, hsent⟩
    rw [hsame] at hdb
    obtain rfl := Option.some.inj hdb
    exact hnonempty ((planSubmission_ok hplan).1 job.jobId hawaiting.2.2.1)

theorem attemptTranscription_bounded (hopen : MayBeSubmitted found) :
    Bounded (attemptTranscription { r with maxRetries := maxRetries }) (fun sending => CallRaises sending.answer) RetryTaken
      SendingFits maxRetries (Waits { r with maxRetries := maxRetries } found) Ends where
  goesOn {n} _ _ h hbudget hraises htaken := by
    have hbudget' : (n : Int) < maxRetries := Int.ofNat_lt.mpr hbudget
    obtain ⟨hcalled, hagain, hwaits⟩ := counts h hopen hbudget' (by have := htaken.le; omega) hraises
    exact ⟨hcalled, hagain.trans htaken, hwaits⟩
  refused {n _ _} h hbudget hraises hrefused := by
    have hbudget' : (n : Int) < maxRetries := Int.ofNat_lt.mpr hbudget
    rcases Nat.lt_or_ge n 2147483647 with hlimit | hover
    · obtain ⟨-, hagain, -⟩ := counts h hopen hbudget' hlimit hraises
      exact hagain.trans (eq_false_of_ne_true hrefused)
    · exact raises_uncounted h hopen hbudget' hover hraises
  stops h _ hlast hfits := stops h hopen (fun hraises => congrArg Nat.cast (hlast hraises)) hfits
  misses h _ _ hmisfit := misses h hopen hmisfit

end Budget

end EPlatform.Transcripts
