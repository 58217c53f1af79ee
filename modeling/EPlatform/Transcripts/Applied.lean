import EPlatform.Transcripts.Callback
import EPlatform.Transcripts.Reports

/-!
# A callback is applied whole

Executions of recorded callbacks, each any number of times, whatever status and cues they carry. The branch that writes
words is taken for every status but `FAILED`, so a report of work in progress makes words too.
-/

namespace EPlatform.Transcripts

open Runs

/-- One execution of the task of a recorded callback. -/
structure Execution where
  webhookEventId : Uuid
  now : Instant
  deriving DecidableEq, Repr

def execute (provider : String) (s : Callbacks) (e : Execution) : Callbacks :=
  (applyTranscriptionCallback provider e.webhookEventId e.now s).1

def Callbacks.recorded (s : Callbacks) (e : Execution) : Option (WebhookEvent TranscriptionResult) :=
  s.events.find? (·.pk = e.webhookEventId)

def Callbacks.status (s : Callbacks) : TranscriptStatus := s.db.rows.transcript.status

/-- A cue without its key and the date of its last change. -/
def TranscriptSegment.content (segment : TranscriptSegment) : TranscribedSegment × Bool := (segment.heard, segment.isEdited)

/-- What an execution may do. -/
structure AppliedWhole (provider : String) (s : Callbacks) (e : Execution) : Prop where
  whole : (execute provider s e).db.rows.segments = s.db.rows.segments ∨
    ∃ record, s.recorded e = some record ∧
      (execute provider s e).db.rows.segments.map (·.heard) = record.payload.segments
  finished : s.status ∉ [TranscriptStatus.inReview, .approved] → s.status ≠ .machine →
    (execute provider s e).status = .machine → ∃ record, s.recorded e = some record ∧ record.payload.status = .completed
  failed : ∀ record, s.recorded e = some record → record.payload.status = .failed →
    (execute provider s e).db.rows.segments = s.db.rows.segments
  again : ∀ later,
    (execute provider (execute provider s e) ⟨e.webhookEventId, later⟩).db.rows.transcript =
        (execute provider s e).db.rows.transcript ∧
      (execute provider (execute provider s e) ⟨e.webhookEventId, later⟩).db.rows.segments.map (·.content) =
        (execute provider s e).db.rows.segments.map (·.content)

/-- A callback about a transcript without words, with cues the tables accept, reports the end of its job. -/
def ReportsTheEnd (provider : String) (s : Callbacks) (e : Execution) : Prop :=
  ∀ record, s.recorded e = some record → s.db.rows.transcript.isFor provider record.payload →
    s.status ∈ [TranscriptStatus.pending, .failed] → ResultFits record.payload →
      record.payload.status ∈ [TranscriptionStatus.completed, .failed]

/-! ### One execution -/

/-- What a callback leaves of a transcript and its cues. -/
def report (provider : String) (result : TranscriptionResult) (now : Instant) (db : Database) : Database :=
  (performCallback now db (planCallback provider result db.rows.transcript)).1

/-- It is about another job or comes too late, or its cues are refused. -/
def Passes (provider : String) (result : TranscriptionResult) (transcript : Transcript) : Prop :=
  ¬ transcript.isFor provider result ∨ transcript.status ∈ [TranscriptStatus.inReview, .approved] ∨
    (result.status ≠ .failed ∧ ¬ ResultFits result)

def Fails (provider : String) (result : TranscriptionResult) (transcript : Transcript) : Prop :=
  transcript.isFor provider result ∧ transcript.status ∉ [TranscriptStatus.inReview, .approved] ∧ result.status = .failed

theorem passes_or_fails_or_overwrites (provider : String) (result : TranscriptionResult) (transcript : Transcript) :
    Passes provider result transcript ∨ Fails provider result transcript ∨ Overwrites provider result transcript := by
  by_cases hfor : transcript.isFor provider result
  · by_cases hreviewed : transcript.status ∈ [TranscriptStatus.inReview, .approved]
    · exact .inl (.inr (.inl hreviewed))
    · by_cases hfailed : result.status = .failed
      · exact .inr (.inl ⟨hfor, hreviewed, hfailed⟩)
      · by_cases hfits : ResultFits result
        · exact .inr (.inr ⟨hfor, hfailed, hfits, hreviewed⟩)
        · exact .inl (.inr (.inr ⟨hfailed, hfits⟩))
  · exact .inl (.inl hfor)

section Report

variable {provider : String} {result : TranscriptionResult} {now : Instant} {db : Database}

theorem report_of_passes (h : Passes provider result db.rows.transcript) : report provider result now db = db := by
  unfold report planCallback
  rcases h with hother | hreviewed | ⟨hfailed, hfits⟩
  · rw [if_pos hother]
    rfl
  · rw [if_pos hreviewed]
    split <;> rfl
  · rw [if_neg hfailed]
    split_ifs
    · rfl
    · have hrefused := mt (transcribe_valid now db.valid).mp hfits
      simp only [performCallback, Database.settle_refused hrefused]
    · rfl

theorem report_of_fails (now : Instant) (h : Fails provider result db.rows.transcript) :
    (report provider result now db).rows = recordFailure "The provider failed to transcribe this audio." 0 db.rows := by
  obtain ⟨hfor, hunreviewed, hfailed⟩ := h
  have hplan : planCallback provider result db.rows.transcript = .fail := by
    rw [planCallback, if_neg (not_not.mpr hfor), if_neg hunreviewed, if_pos hfailed]
  have hvalid : (recordFailure "The provider failed to transcribe this audio." 0 db.rows).Valid :=
    recordFailure_valid _ (by decide) db.valid
  simp only [report, hplan, performCallback, Database.settle_ok hvalid]

theorem report_of_overwrites (now : Instant) (h : Overwrites provider result db.rows.transcript) :
    (report provider result now db).rows = transcribe result now db.rows := by
  obtain ⟨hfor, hfailed, hfits, hunreviewed⟩ := h
  have hplan : planCallback provider result db.rows.transcript = .transcribe result :=
    planCallback_eq_transcribe.mpr ⟨⟨hfor, hfailed, hunreviewed⟩, rfl⟩
  rw [report, hplan, performCallback_transcribe now db hfits]

theorem report_whole : (report provider result now db).rows.segments = db.rows.segments ∨
    (result.status ≠ .failed ∧ (report provider result now db).rows.segments.map (·.heard) = result.segments) := by
  rcases passes_or_fails_or_overwrites provider result db.rows.transcript with hpasses | hfails | hoverwrites
  · exact .inl (by rw [report_of_passes hpasses])
  · exact .inl (by rw [report_of_fails _ hfails, recordFailure])
  · refine .inr ⟨hoverwrites.2.1, ?_⟩
    rw [report_of_overwrites _ hoverwrites, transcribe, createSegments_heard]

theorem overwrites_of_machine (hbefore : db.rows.transcript.status ≠ .machine)
    (hafter : (report provider result now db).rows.transcript.status = .machine) :
    Overwrites provider result db.rows.transcript := by
  rcases passes_or_fails_or_overwrites provider result db.rows.transcript with hpasses | hfails | hoverwrites
  · rw [report_of_passes hpasses] at hafter
    exact absurd hafter hbefore
  · rw [report_of_fails _ hfails] at hafter
    cases hafter
  · exact hoverwrites

theorem createSegments_cues (result : TranscriptionResult) (nextPk : Uuid) (now : Instant) :
    (createSegments result nextPk now).map (·.content) = result.segments.map (·, false) := by
  conv_rhs => rw [← List.zipIdx_map_fst nextPk result.segments]
  rw [createSegments, List.map_map, List.map_map]
  rfl

/-- A report repeated at once changes nothing but the keys and dates of the cues. -/
theorem report_report (later : Instant) :
    (report provider result later (report provider result now db)).rows.transcript =
        (report provider result now db).rows.transcript ∧
      (report provider result later (report provider result now db)).rows.segments.map (·.content) =
        (report provider result now db).rows.segments.map (·.content) := by
  rcases passes_or_fails_or_overwrites provider result db.rows.transcript with hpasses | hfails | hoverwrites
  · rw [report_of_passes hpasses, report_of_passes hpasses]
    exact ⟨rfl, rfl⟩
  · have hrows := report_of_fails now hfails
    have hfails' : Fails provider result (report provider result now db).rows.transcript := by
      rw [hrows]
      exact ⟨hfails.1, by simp [recordFailure], hfails.2.2⟩
    rw [report_of_fails _ hfails', hrows]
    exact ⟨rfl, rfl⟩
  · have hrows := report_of_overwrites now hoverwrites
    have hoverwrites' : Overwrites provider result (report provider result now db).rows.transcript := by
      rw [hrows]
      exact ⟨hoverwrites.1, hoverwrites.2.1, hoverwrites.2.2.1, by simp [transcribe]⟩
    rw [report_of_overwrites _ hoverwrites', hrows]
    exact ⟨rfl, (createSegments_cues ..).trans (createSegments_cues ..).symm⟩

end Report

/-! ### Sequences of executions -/

variable {provider : String} {s : Callbacks} {e : Execution} {record : WebhookEvent TranscriptionResult}

theorem execute_of_none (h : s.recorded e = none) : execute provider s e = s := by
  rw [Callbacks.recorded] at h
  simp only [execute, applyTranscriptionCallback, h]

theorem execute_db (h : s.recorded e = some record) :
    (execute provider s e).db = report provider record.payload e.now s.db :=
  applyTranscriptionCallback_db h

/-- The callback is still recorded, with the payload it had. -/
theorem recorded_execute (provider : String) (h : s.recorded e = some record) (later : Instant) :
    ∃ record', (execute provider s e).recorded ⟨e.webhookEventId, later⟩ = some record' ∧
      record'.payload = record.payload := by
  have hpayload : ∀ events : List (WebhookEvent TranscriptionResult), events.map (fun event => (event.pk, event.payload)) =
      s.events.map (fun event => (event.pk, event.payload)) →
      ∃ record', events.find? (·.pk = e.webhookEventId) = some record' ∧ record'.payload = record.payload := by
    intro events hevents
    have hfind := congrArg (List.find? (·.1 = e.webhookEventId)) hevents
    rw [List.find?_map, List.find?_map] at hfind
    obtain ⟨record', hrecord', hsame⟩ := Option.map_eq_some_iff.mp (hfind.trans (congrArg _ h))
    exact ⟨record', hrecord', congrArg Prod.snd hsame⟩
  apply hpayload
  rw [execute, applyTranscriptionCallback_of_find h, finishCallback]
  split
  rename_i db outcome hperform
  split_ifs
  · rfl
  · exact markProcessed_map (fun _ _ => rfl) ..

theorem appliedWhole_of_none (h : s.recorded e = none) : AppliedWhole provider s e := by
  have hsame : execute provider s e = s := execute_of_none h
  refine ⟨.inl (by rw [hsame]), ?_, ?_, ?_⟩
  · intro _ hbefore hafter
    rw [hsame] at hafter
    exact absurd hafter hbefore
  · intro record hrecord
    rw [h] at hrecord
    cases hrecord
  · intro later
    rw [hsame, execute_of_none (e := ⟨e.webhookEventId, later⟩) h]
    exact ⟨rfl, rfl⟩

/-- A transcript without words becomes one with words by every report that has not failed and fits the tables. -/
theorem machine_of_fits (h : s.recorded e = some record) (hfor : s.db.rows.transcript.isFor provider record.payload)
    (hstatus : s.status ∈ [TranscriptStatus.pending, .failed]) (hfits : ResultFits record.payload)
    (hfailed : record.payload.status ≠ .failed) :
    s.status ∉ [TranscriptStatus.inReview, .approved] ∧ s.status ≠ .machine ∧
      (execute provider s e).status = .machine := by
  have hunreviewed : s.status ∉ [TranscriptStatus.inReview, .approved] := by
    intro hreviewed
    simp only [List.mem_cons, List.not_mem_nil, or_false] at hstatus hreviewed
    rcases hstatus with hstatus | hstatus <;> simp [hstatus] at hreviewed
  refine ⟨hunreviewed, ?_, ?_⟩
  · intro hmachine
    simp [hmachine] at hstatus
  · rw [Callbacks.status, execute_db h, report_of_overwrites _ ⟨hfor, hfailed, hfits, hunreviewed⟩, transcribe]

/-- An execution is applied whole if and only if the words it makes are those of a job that has ended. -/
theorem appliedWhole_iff (provider : String) (s : Callbacks) (e : Execution) :
    AppliedWhole provider s e ↔ ReportsTheEnd provider s e := by
  cases hrecord : s.recorded e with
  | none =>
    refine iff_of_true (appliedWhole_of_none hrecord) fun record hsome => ?_
    rw [hrecord] at hsome
    cases hsome
  | some record =>
    have hdb : (execute provider s e).db = report provider record.payload e.now s.db := execute_db hrecord
    have hsame : ∀ record', s.recorded e = some record' → record' = record :=
      fun record' hrecord' => Option.some.inj (hrecord'.symm.trans hrecord)
    constructor
    · intro h record' hrecord' hfor hstatus hfits
      obtain rfl := hsame record' hrecord'
      by_cases hfailed : record'.payload.status = .failed
      · simp [hfailed]
      · obtain ⟨hunreviewed, hbefore, hafter⟩ := machine_of_fits hrecord' hfor hstatus hfits hfailed
        obtain ⟨record'', hrecord'', hcompleted⟩ := h.finished hunreviewed hbefore hafter
        obtain rfl := hsame record'' hrecord''
        simp [hcompleted]
    · intro h
      refine ⟨?_, ?_, ?_, ?_⟩
      · rw [hdb]
        exact report_whole.imp_right fun hheard => ⟨record, hrecord, hheard.2⟩
      · intro hunreviewed hbefore hafter
        rw [Callbacks.status, hdb] at hafter
        have hoverwrites := overwrites_of_machine hbefore hafter
        have hstatus : s.status ∈ [TranscriptStatus.pending, .failed] := by
          cases hs : s.status <;> simp [hs] at hunreviewed hbefore ⊢
        have hend := h record hrecord hoverwrites.1 hstatus hoverwrites.2.2.1
        exact ⟨record, hrecord, by simpa [hoverwrites.2.1] using hend⟩
      · intro record' hrecord' hfailed
        obtain rfl := hsame record' hrecord'
        rw [hdb]
        exact report_whole.resolve_right fun hheard => hheard.1 hfailed
      · intro later
        obtain ⟨record', hrecord', hpayload⟩ := recorded_execute provider hrecord later
        rw [execute_db hrecord', hpayload, hdb]
        exact report_report later

/-- Of every sequence of executions: each is applied whole exactly if none makes words of a job that has not ended. -/
theorem along_appliedWhole_iff (provider : String) (db : Database) (events : List (WebhookEvent TranscriptionResult))
    (run : List Execution) :
    Along (execute provider) (AppliedWhole provider) ⟨db, events⟩ run ↔
      Along (execute provider) (ReportsTheEnd provider) ⟨db, events⟩ run := by
  have htrivial : ∀ (s : Callbacks) (e : Execution), True → True := fun _ _ h => h
  apply along_congr htrivial
  · intro s e _
    exact appliedWhole_iff provider s e
  · trivial

/-- `submitted`, but what its provider reports is that it is still at work. -/
def inProgress : Callbacks :=
  { submitted with
    events := submitted.events.map fun event =>
      { event with payload := { event.payload with status := .processing, segments := [] } } }

theorem report_of_progress_makes_words : ¬ Along (execute "fake") (AppliedWhole "fake") inProgress [⟨50, 100⟩] := by
  rintro ⟨h, -⟩
  obtain ⟨record, hrecord, hcompleted⟩ := h.finished (by decide) (by decide) (by decide)
  have hprocessing : ∀ record, inProgress.recorded ⟨50, 100⟩ = some record → record.payload.status = .processing := by
    intro record hrecord
    cases hrecord
    rfl
  rw [hprocessing record hrecord] at hcompleted
  cases hcompleted

end EPlatform.Transcripts
