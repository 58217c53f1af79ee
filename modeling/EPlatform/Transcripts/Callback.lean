import EPlatform.Runs.Run
import EPlatform.Transcripts.Tasks
import EPlatform.Transcripts.Views

/-!
# Callbacks against human work

Sequences of edits, review transitions and executions of the callback's task, in any order: a task may run more than
once, and long after the event that queued it.
-/

namespace EPlatform.Transcripts

open Runs

inductive Operation
  | review (request : ReviewRequest) (now : Instant)
  | callback (webhookEventId : Uuid) (now : Instant)
  deriving DecidableEq, Repr

/-- One operation, run to its end before the next one starts. -/
def operate (provider : String) (s : Callbacks) : Operation → Callbacks
  | .review request now =>
    match loadReview s.db.rows request with
    | none => s
    | some flight => { s with db := s.db.settle (flight.transaction now s.db.rows) }
  | .callback webhookEventId now => (applyTranscriptionCallback provider webhookEventId now s).1

/-- A callback neither deletes nor rewrites a cue that a human corrected. -/
def KeepsCorrections (provider : String) (s : Callbacks) : Operation → Prop
  | .review .. => True
  | .callback webhookEventId now =>
    ∀ segment ∈ s.db.rows.segments, segment.isEdited →
      ∃ row ∈ (applyTranscriptionCallback provider webhookEventId now s).1.db.rows.segments,
        row.pk = segment.pk ∧ row.words = segment.words

instance (provider : String) (s : Callbacks) : (operation : Operation) → Decidable (KeepsCorrections provider s operation)
  | .review .. => inferInstanceAs (Decidable True)
  | .callback .. => inferInstanceAs (Decidable (∀ segment ∈ s.db.rows.segments, _ → ∃ row ∈ _, _ ∧ _))

/-- The callback reports words for this transcript's job, the tables accept them, and nobody is reviewing or has
approved the old ones. -/
def Overwrites (provider : String) (result : TranscriptionResult) (transcript : Transcript) : Prop :=
  transcript.isFor provider result ∧ result.status ≠ .failed ∧ ResultFits result ∧
    transcript.status ∉ [TranscriptStatus.inReview, .approved]

/-- A callback that overwrites finds no cue a human corrected. -/
def SparesCorrections (provider : String) (s : Callbacks) : Operation → Prop
  | .review .. => True
  | .callback webhookEventId _ =>
    ∀ record, s.events.find? (·.pk = webhookEventId) = some record →
      Overwrites provider record.payload s.db.rows.transcript → ∀ segment ∈ s.db.rows.segments, ¬ segment.isEdited

/-! ### What one execution does to the cues -/

theorem planCallback_eq_transcribe {provider : String} {result result' : TranscriptionResult}
    {transcript : Transcript} : planCallback provider result transcript = .transcribe result' ↔
      (transcript.isFor provider result ∧ result.status ≠ .failed ∧
        transcript.status ∉ [TranscriptStatus.inReview, .approved]) ∧ result' = result := by
  unfold planCallback
  split_ifs <;> simp_all [eq_comm]

theorem applyTranscriptionCallback_db {provider : String} {webhookEventId : Uuid} {now : Instant} {s : Callbacks}
    {record : WebhookEvent TranscriptionResult} (h : s.events.find? (·.pk = webhookEventId) = some record) :
    (applyTranscriptionCallback provider webhookEventId now s).1.db =
      (performCallback now s.db (planCallback provider record.payload s.db.rows.transcript)).1 := by
  rw [applyTranscriptionCallback_of_find h, finishCallback]

/-- No cue a callback creates takes the key of one that was there. -/
theorem pk_ne_of_mem_createSegments {result : TranscriptionResult} {now : Instant} {rows : Rows} (hrows : rows.Valid)
    {segment row : TranscriptSegment} (hsegment : segment ∈ rows.segments)
    (hrow : row ∈ createSegments result rows.nextPk now) : row.pk ≠ segment.pk := by
  have hfresh := hrows.fresh segment hsegment
  have hcreated := (mem_createSegments hrow).1
  intro heq
  rw [heq] at hcreated
  exact absurd hfresh (Nat.not_lt.mpr hcreated)

theorem keepsCorrections_iff (provider : String) (s : Callbacks) (operation : Operation) :
    KeepsCorrections provider s operation ↔ SparesCorrections provider s operation := by
  cases operation with
  | review request now => exact Iff.rfl
  | callback webhookEventId now =>
    cases hrecord : s.events.find? (·.pk = webhookEventId) with
    | none =>
      simp only [KeepsCorrections, SparesCorrections, applyTranscriptionCallback, hrecord]
      apply iff_of_true
      · intro segment hsegment _
        exact ⟨segment, hsegment, rfl, rfl⟩
      · intro record hnone
        cases hnone
    | some record =>
      simp only [KeepsCorrections, SparesCorrections, applyTranscriptionCallback_db hrecord, hrecord,
        Option.some.injEq, forall_eq']
      constructor
      · rintro hkeeps ⟨hfor, hstatus, hfits, hunreviewed⟩ segment hsegment hedited
        have hplan := planCallback_eq_transcribe.mpr ⟨⟨hfor, hstatus, hunreviewed⟩, rfl⟩
        obtain ⟨row, hrow, hpk, -⟩ := hkeeps segment hsegment hedited
        rw [hplan, performCallback_transcribe now s.db hfits] at hrow
        exact pk_ne_of_mem_createSegments s.db.valid hsegment hrow hpk
      · intro hspares segment hsegment hedited
        rcases performCallback_cases now s.db (planCallback provider record.payload s.db.rows.transcript) with
          hsame | hfailed | ⟨result, hplan, hfits, -⟩
        · rw [hsame]
          exact ⟨segment, hsegment, rfl, rfl⟩
        · rw [hfailed]
          exact ⟨segment, hsegment, rfl, rfl⟩
        · obtain ⟨⟨hfor, hstatus, hunreviewed⟩, rfl⟩ := planCallback_eq_transcribe.mp hplan
          exact absurd hedited (hspares ⟨hfor, hstatus, hfits, hunreviewed⟩ segment hsegment)

/-- Human corrections survive every callback of exactly the runs in which no overwriting callback finds any. -/
theorem along_keepsCorrections_iff (provider : String) (db : Database) (events : List (WebhookEvent TranscriptionResult))
    (run : List Operation) :
    Along (operate provider) (KeepsCorrections provider) ⟨db, events⟩ run ↔
      Along (operate provider) (SparesCorrections provider) ⟨db, events⟩ run := by
  have htrivial : ∀ (s : Callbacks) (operation : Operation), True → True := fun _ _ h => h
  apply along_congr htrivial
  · intro s operation _
    exact keepsCorrections_iff provider s operation
  · trivial

/-! ### What an operation can do -/

/-- An operation leaves the rows alone, or goes through as a correction, as a review or as a report on a transcript that
is not approved. -/
inductive Operates (before : Rows) : Operation → Rows → Prop
  | stays (operation : Operation) : Operates before operation before
  | corrects {pk : Uuid} {segment : TranscriptSegment} {edit : SegmentEdit} {actor : User} {now : Instant} {after : Rows}
    (h : editSegment segment before.transcript actor edit now before = .ok after) :
    Operates before (.review (.patch pk edit actor) now) after
  | reviews {action : ReviewAction} {actor : User} {now : Instant} {after : Rows}
    (h : serviceOf action before.transcript actor now before = .ok after) :
    Operates before (.review (.post action actor) now) after
  | fails {webhookEventId : Uuid} {now : Instant} (hbefore : before.transcript.status ≠ .approved) :
    Operates before (.callback webhookEventId now)
      (recordFailure "The provider failed to transcribe this audio." 0 before)
  | transcribes {webhookEventId : Uuid} {now : Instant} (result : TranscriptionResult)
    (hbefore : before.transcript.status ≠ .approved) :
    Operates before (.callback webhookEventId now) (transcribe result now before)

theorem performCallback_of_approved {provider : String} {result : TranscriptionResult} {now : Instant} {db : Database}
    (h : db.rows.transcript.status = .approved) :
    (performCallback now db (planCallback provider result db.rows.transcript)).1 = db := by
  simp only [planCallback, h, List.mem_cons, true_or, or_true, if_true]
  split <;> rfl

theorem performCallback_operates {provider : String} {result : TranscriptionResult} {webhookEventId : Uuid}
    {now : Instant} (db : Database) :
    Operates db.rows (.callback webhookEventId now)
      (performCallback now db (planCallback provider result db.rows.transcript)).1.rows := by
  by_cases happroved : db.rows.transcript.status = .approved
  · rw [performCallback_of_approved happroved]
    exact .stays _
  · rcases performCallback_cases now db (planCallback provider result db.rows.transcript) with
      hsame | hfailed | ⟨result, -, -, htranscribed⟩
    · rw [hsame]
      exact .stays _
    · rw [hfailed]
      exact .fails happroved
    · rw [htranscribed]
      exact .transcribes result happroved

theorem operate_operates (provider : String) (s : Callbacks) (operation : Operation) :
    Operates s.db.rows operation (operate provider s operation).db.rows := by
  cases operation with
  | review request now =>
    simp only [operate]
    cases hload : loadReview s.db.rows request with
    | none => exact .stays _
    | some flight =>
      refine Database.settle_induction (P := fun rows : Rows => Operates s.db.rows _ rows) (.stays _) ?_
      intro rows hok _
      cases request with
      | patch pk edit actor =>
        simp only [loadReview] at hload
        split at hload
        · obtain ⟨segment, -, rfl⟩ := Option.map_eq_some_iff.mp hload
          exact .corrects hok
        · cases hload
      | post action actor =>
        simp only [loadReview] at hload
        split at hload
        · cases hload
          exact .reviews hok
        · cases hload
  | callback webhookEventId now =>
    simp only [operate]
    cases hfind : s.events.find? (·.pk = webhookEventId) with
    | none =>
      simp only [applyTranscriptionCallback, hfind]
      exact .stays _
    | some record =>
      rw [applyTranscriptionCallback_db hfind]
      exact performCallback_operates s.db

/-- A transcript whose job was submitted, and the provider's one report about it. -/
def submitted : Callbacks where
  db :=
    { rows :=
        { transcript :=
            { pk := 1, mediaAsset := 2, instructor := 7, language := "es", kind := .target, status := .pending,
              provider := "fake", providerJobId := some "job-1", confidence := none, reviewedBy := none,
              approvedAt := none, errorMessage := "", retryCount := 0, updatedAt := 0 }
          segments := []
          nextPk := 10 }
      valid := by decide }
  events :=
    [{ pk := 50, provider := "transcription:fake", providerEventId := "job-1",
       eventType := "transcription.completed", processedAt := none
       payload := { jobId := "job-1", status := .completed, confidence := some 940, segments := [⟨1, 0, 900, "ola"⟩] } }]

/-- The report is applied, the cue is corrected, and the task is delivered again. -/
theorem redelivery_replaces_correction :
    ¬ Along (operate "fake") (KeepsCorrections "fake") submitted
      [.callback 50 100,
        .review (.patch 10 ⟨some "hola", none, none⟩ ⟨7, "teacher@example.test", .instructor, false⟩) 101,
        .callback 50 102] := by
  decide

end EPlatform.Transcripts
