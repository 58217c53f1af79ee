import EPlatform.Runs.Handover
import EPlatform.Transcripts.Webhooks

/-!
# The provider's callback against our own write

A submission the provider accepted, and its one `completed` event about that job, with the task that applies it. Nothing
else touches the row.
-/

namespace EPlatform.Transcripts

open Runs

/-- The columns accept the job, no other transcript has it, and the columns accept the words. -/
structure CallbackFits (provider : String) (takenJobs : List (String × String)) (job : TranscriptionJob)
    (result : TranscriptionResult) : Prop where
  provider : job.provider = provider
  lengths : job.provider.length ≤ 32 ∧ job.jobId.length ≤ 128
  isFree : (job.provider, job.jobId) ∉ takenJobs
  words : ResultFits result

/-- A task past its guards, the answer it got, and the event that will be received under `webhookEventId`. -/
structure Submitting where
  provider : String
  maxRetries : Int
  retries : Nat
  takenJobs : List (String × String)
  now : Instant
  before : Callbacks
  received : List (WebhookEvent TranscriptionResult)
  job : TranscriptionJob
  result : TranscriptionResult
  webhookEventId : Uuid
  passedItsGuards : planSubmission before.db.rows.transcript = .ok ()
  isAccepted : job.status ≠ .failed
  isCompleted : result.status = .completed
  isAboutIt : result.jobId = job.jobId
  isNew : ¬ before.db.rows.transcript.isFor provider result
  isReceived : create ((transcriptionWebhookView provider).record webhookEventId result) before.events = .ok received

namespace Submitting

variable (m : Submitting)

def record : WebhookEvent TranscriptionResult := (transcriptionWebhookView m.provider).record m.webhookEventId m.result

def handover : Handover Callbacks (Option CallbackPlan) where
  save s := { s with db := s.db.settle (writeSubmission m.maxRetries m.retries m.takenJobs (.ok m.job) s.db.rows) }
  receive s := { s with events := (create m.record s.events).toOption.getD s.events }
  look s := (s.events.find? (·.pk = m.webhookEventId)).map fun record =>
    planCallback m.provider record.payload s.db.rows.transcript
  write found s := (found.map fun plan => finishCallback m.webhookEventId plan m.now s).getD s

end Submitting

def TranscriptSegment.heard (segment : TranscriptSegment) : TranscribedSegment :=
  ⟨segment.position, segment.startMs, segment.endMs, segment.text⟩

/-- The transcript has the event's segments, and nobody has looked at them yet. -/
def Transcribed (result : TranscriptionResult) (s : Callbacks) : Prop :=
  s.db.rows.transcript.status = .machine ∧ s.db.rows.segments.map (·.heard) = result.segments

instance (result : TranscriptionResult) (s : Callbacks) : Decidable (Transcribed result s) :=
  inferInstanceAs (Decidable (_ ∧ _))

/-! ### What the writes leave -/

theorem createSegments_heard (result : TranscriptionResult) (nextPk : Uuid) (now : Instant) :
    (createSegments result nextPk now).map (·.heard) = result.segments := by
  conv_rhs => rw [← List.zipIdx_map_fst nextPk result.segments]
  rw [createSegments, List.map_map]
  rfl

/-- Words leave a machine transcript exactly when the columns accept them. -/
theorem finishCallback_transcribed {pk : Uuid} {result : TranscriptionResult} {now : Instant} {s : Callbacks}
    (hstatus : s.db.rows.transcript.status ≠ .machine) :
    Transcribed result (finishCallback pk (.transcribe result) now s) ↔ ResultFits result := by
  by_cases hfits : ResultFits result
  · have hrows := (transcribe_valid now s.db.valid).mpr hfits
    simp only [finishCallback, performCallback, Database.settle_ok hrows, Transcribed, hfits, iff_true]
    exact ⟨rfl, createSegments_heard result _ now⟩
  · have hrows := mt (transcribe_valid now s.db.valid).mp hfits
    simp only [finishCallback, performCallback, Database.settle_refused hrows, Transcribed, hfits, iff_false]
    exact fun h => hstatus h.1

namespace Submitting

variable (m : Submitting)

theorem save_before (events : List (WebhookEvent TranscriptionResult)) :
    m.handover.save ⟨m.before.db, events⟩ = ⟨(m.handover.save m.before).db, events⟩ := rfl

theorem receive_before : m.handover.receive m.before = ⟨m.before.db, m.received⟩ := by
  have hreceived : create m.record m.before.events = .ok m.received := m.isReceived
  simp only [handover, hreceived, Except.toOption, Option.getD_some]

theorem look_received (db : Database) :
    m.handover.look ⟨db, m.received⟩ = some (planCallback m.provider m.result db.rows.transcript) := by
  have hfound : m.received.find? (·.pk = m.webhookEventId) = some m.record := find?_create m.isReceived
  simp only [handover, hfound, Option.map_some]
  rfl

theorem write_look_unknown {db : Database} (hunknown : ¬ db.rows.transcript.isFor m.provider m.result)
    (db' : Database) : m.handover.write (m.handover.look ⟨db, m.received⟩) ⟨db', m.received⟩ =
      ⟨db', markProcessed m.webhookEventId m.now m.received⟩ := by
  have hplan : planCallback m.provider m.result db.rows.transcript = .unknownJob := by
    simp only [planCallback, hunknown, not_false_eq_true, if_true]
  rw [look_received, hplan]
  rfl

theorem independent : m.handover.Independent m.before := by
  have hlate := m.write_look_unknown m.isNew
  constructor
  · rfl
  · rw [receive_before, save_before, hlate, hlate]
    rfl

/-- A save leaves the id in the row, or, when it is refused, the row as it was. -/
theorem save_cases :
    ((m.job.provider, m.job.jobId) ∉ m.takenJobs ∧ (saveSubmission m.job m.before.db.rows).Valid ∧
        (m.handover.save m.before).db.rows = saveSubmission m.job m.before.db.rows) ∨
      (((m.job.provider, m.job.jobId) ∈ m.takenJobs ∨ ¬ (saveSubmission m.job m.before.db.rows).Valid) ∧
        (m.handover.save m.before).db = m.before.db) := by
  simp only [handover, writeSubmission, performSubmission, m.isAccepted, if_false]
  by_cases htaken : (m.job.provider, m.job.jobId) ∈ m.takenJobs
  · exact .inr ⟨.inl htaken, by simp only [htaken, if_true]; rfl⟩
  · simp only [htaken, if_false, not_false_eq_true, true_and, false_or]
    by_cases hrows : (saveSubmission m.job m.before.db.rows).Valid
    · exact .inl ⟨hrows, by simp only [Except.map, Database.settle_ok hrows]⟩
    · exact .inr ⟨hrows, by simp only [Except.map, Database.settle_refused hrows]⟩

theorem before_not_machine : m.before.db.rows.transcript.status ≠ .machine := by
  have hstatus := (planSubmission_ok m.passedItsGuards).2
  simp only [List.mem_cons, not_or] at hstatus
  exact hstatus.1

/-- A lookup that came too early leaves the transcript without words. -/
theorem not_transcribed_of_missed :
    ¬ Transcribed m.result (m.handover.save (m.handover.write (m.handover.look (m.handover.receive m.before))
      (m.handover.receive m.before))) := by
  rw [receive_before, m.write_look_unknown m.isNew, save_before]
  intro hafter
  have hstatus := hafter.1
  rcases m.save_cases with ⟨-, -, hsaved⟩ | ⟨-, hsaved⟩
  · simp [hsaved, saveSubmission] at hstatus
  · rw [hsaved] at hstatus
    exact m.before_not_machine hstatus

/-- A lookup after the save brings the event's words, as far as the columns accept what the provider sent. -/
theorem transcribed_iff_of_met :
    Transcribed m.result (m.handover.write (m.handover.look (m.handover.save (m.handover.receive m.before)))
        (m.handover.save (m.handover.receive m.before))) ↔ CallbackFits m.provider m.takenJobs m.job m.result := by
  rw [receive_before, save_before]
  rcases m.save_cases with ⟨hfree, hrows, hsaved⟩ | ⟨hrefused, hsaved⟩
  · have hlengths := (saveSubmission_valid m.job m.before.db.valid).mp hrows
    have hstatus : (m.handover.save m.before).db.rows.transcript.status = .pending := by rw [hsaved]; rfl
    by_cases hprovider : m.job.provider = m.provider
    · have hfor : (m.handover.save m.before).db.rows.transcript.isFor m.provider m.result := by
        rw [hsaved]
        exact ⟨hprovider, congrArg some m.isAboutIt.symm⟩
      have hplan : planCallback m.provider m.result (m.handover.save m.before).db.rows.transcript =
          .transcribe m.result := by
        simp [planCallback, hfor, hstatus, m.isCompleted]
      rw [look_received, hplan]
      refine Iff.trans (finishCallback_transcribed (by simp [hstatus])) ?_
      exact ⟨fun hwords => ⟨hprovider, hlengths, hfree, hwords⟩, fun hfits => hfits.words⟩
    · rw [write_look_unknown]
      · apply iff_of_false
        · simp [Transcribed, hstatus]
        · exact fun hfits => hprovider hfits.provider
      · rw [hsaved]
        exact fun hfor => hprovider hfor.1
  · rw [hsaved, write_look_unknown m m.isNew]
    apply iff_of_false
    · exact fun hafter => m.before_not_machine hafter.1
    · intro hfits
      rcases hrefused with htaken | hrows
      · exact hfits.isFree htaken
      · exact hrows ((saveSubmission_valid m.job m.before.db.valid).mpr hfits.lengths)

/-- Once every step was taken, the transcript has the event's words exactly when its callback was looked up after the id
was stored, and the columns accept what the provider sent. -/
theorem finished_transcribed_iff {run : List Handover.Step}
    (hfinished : (final m.handover.step (Handover.start m.before) run).Finished) :
    Transcribed m.result (final m.handover.step (Handover.start m.before) run).store ↔
      Along m.handover.step Handover.LooksAfterSave (Handover.start m.before) run ∧
        CallbackFits m.provider m.takenJobs m.job m.result :=
  Handover.finished_iff m.independent m.transcribed_iff_of_met m.not_transcribed_of_missed hfinished

end Submitting

end EPlatform.Transcripts
