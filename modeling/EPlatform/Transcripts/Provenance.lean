import EPlatform.Transcripts.Callback
import EPlatform.Transcripts.Reports

/-!
# Where the words of a transcript come from

A transcript's cues are those of one result, but for what people corrected since: callbacks replace all of them, edits
change them one by one, and nothing else touches them.
-/

namespace EPlatform.Transcripts

open Runs

/-- The cues are those of the result, but for the corrected ones. -/
def ComesFrom (result : TranscriptionResult) (segments : List TranscriptSegment) : Prop :=
  segments.map (·.position) = result.segments.map (·.position) ∧
    ∀ segment ∈ segments, ¬ segment.isEdited → segment.heard ∈ result.segments

instance (result : TranscriptionResult) (segments : List TranscriptSegment) : Decidable (ComesFrom result segments) :=
  inferInstanceAs (Decidable (_ ∧ _))

theorem createSegments_comesFrom (result : TranscriptionResult) (nextPk : Uuid) (now : Instant) :
    ComesFrom result (createSegments result nextPk now) := by
  refine ⟨createSegments_positions result nextPk now, ?_⟩
  intro segment hsegment _
  have hheard : segment.heard ∈ (createSegments result nextPk now).map (·.heard) := List.mem_map_of_mem hsegment
  rwa [createSegments_heard] at hheard

/-- A correction leaves the other cues as they were, and none is added or lost. -/
theorem ComesFrom.saveSegment {result : TranscriptionResult} {rows : Rows} {segment : TranscriptSegment} {now : Instant}
    (h : ComesFrom result rows.segments) (hedited : segment.isEdited) :
    ComesFrom result (rows.saveSegment segment now).segments := by
  obtain ⟨hpositions, hheard⟩ := h
  constructor
  · rw [← hpositions]
    simp only [Rows.saveSegment, List.map_map]
    apply List.map_congr_left
    intro row _
    simp only [Function.comp_apply]
    split <;> rfl
  · intro saved hsaved hunedited
    obtain ⟨row, hrow, rfl⟩ := List.mem_map.mp hsaved
    by_cases hpk : row.pk = segment.pk
    · simp only [if_pos hpk] at hunedited
      exact absurd hedited hunedited
    · simp only [if_neg hpk] at hunedited ⊢
      exact hheard row hrow hunedited

/-! ### What one operation does -/

/-- The row still names the job it named. -/
def SameJob (before after : Transcript) : Prop :=
  after.provider = before.provider ∧ after.providerJobId = before.providerJobId

/-- An approved transcript has cues. -/
def HasWords (rows : Rows) : Prop := rows.transcript.status = .approved → rows.segments ≠ []

/-- What an operation may do to the rows of a transcript. -/
structure Handles (provider : String) (results : List TranscriptionResult) (before after : Rows) : Prop where
  job : SameJob before.transcript after.transcript
  words : HasWords before → HasWords after
  source : (∃ result ∈ results, before.transcript.isFor provider result ∧ ComesFrom result after.segments) ∨
    ((after.segments = [] ↔ before.segments = []) ∧
      ∀ result, ComesFrom result before.segments → ComesFrom result after.segments)

theorem handles_of_segments {provider : String} {results : List TranscriptionResult} {before after : Rows}
    (hjob : SameJob before.transcript after.transcript) (hsegments : after.segments = before.segments)
    (hstatus : after.transcript.status = .approved → before.transcript.status = .approved ∨ before.segments ≠ []) :
    Handles provider results before after := by
  refine ⟨hjob, ?_, .inr ⟨by rw [hsegments], by simp [hsegments]⟩⟩
  intro hwords happroved
  rw [hsegments]
  rcases hstatus happroved with hbefore | hne
  · exact hwords hbefore
  · exact hne

theorem handles_refl (provider : String) (results : List TranscriptionResult) (rows : Rows) :
    Handles provider results rows rows :=
  handles_of_segments ⟨rfl, rfl⟩ rfl .inl

theorem serviceOf_handles {provider : String} {results : List TranscriptionResult} {action : ReviewAction}
    {transcript : Transcript} {actor : User} {now : Instant} {rows rows' : Rows}
    (h : serviceOf action transcript actor now rows = .ok rows') : Handles provider results rows rows' := by
  cases action with
  | startReview =>
    obtain ⟨-, -, rfl⟩ := startReview_ok.mp h
    exact handles_of_segments ⟨rfl, rfl⟩ rfl (by simp)
  | approve =>
    obtain ⟨-, -, hsegments, rfl⟩ := approve_ok.mp h
    exact handles_of_segments ⟨rfl, rfl⟩ rfl fun _ => .inr hsegments
  | reopen =>
    obtain ⟨-, -, rfl⟩ := reopen_ok.mp h
    exact handles_of_segments ⟨rfl, rfl⟩ rfl (by simp)

theorem returnToReview_job (transcript : Transcript) (rows : Rows) :
    SameJob rows.transcript (returnToReview transcript rows).transcript := by
  unfold returnToReview
  split <;> exact ⟨rfl, rfl⟩

theorem editSegment_handles {provider : String} {results : List TranscriptionResult} {segment : TranscriptSegment}
    {transcript : Transcript} {actor : User} {edit : SegmentEdit} {now : Instant} {rows rows' : Rows}
    (h : editSegment segment transcript actor edit now rows = .ok rows') : Handles provider results rows rows' := by
  obtain ⟨-, ⟨row, hrow, -⟩, rfl⟩ := editSegment_ok.mp h
  have hjob := returnToReview_job transcript ((rows.saveSegment { edit.merge segment with isEdited := true } now).touch now)
  have hne : rows.segments ≠ [] := List.ne_nil_of_mem hrow
  have hempty : (rows.saveSegment { edit.merge segment with isEdited := true } now).segments = [] ↔ rows.segments = [] := by
    simp [Rows.saveSegment]
  refine ⟨hjob, ?_, .inr ⟨?_, ?_⟩⟩
  · intro _ _
    rw [returnToReview_segments, touch_segments, ne_eq, hempty]
    exact hne
  · rw [returnToReview_segments, touch_segments, hempty]
  · intro result hresult
    rw [returnToReview_segments, touch_segments]
    exact hresult.saveSegment rfl

theorem reviewTransaction_handles {provider : String} {results : List TranscriptionResult} {now : Instant}
    {flight : ReviewFlight} {rows rows' : Rows} (h : flight.transaction now rows = .ok rows') :
    Handles provider results rows rows' := by
  cases flight with
  | patch segment transcript edit actor => exact editSegment_handles h
  | post action transcript actor => exact serviceOf_handles h

theorem performCallback_handles {provider : String} {results : List TranscriptionResult} {result : TranscriptionResult}
    (hresult : result ∈ results) (now : Instant) (db : Database) :
    Handles provider results db.rows
      (performCallback now db (planCallback provider result db.rows.transcript)).1.rows := by
  rcases performCallback_cases now db (planCallback provider result db.rows.transcript) with
    hsame | hfailed | ⟨result', hplan, -, htranscribed⟩
  · rw [hsame]
    exact handles_refl provider results db.rows
  · rw [hfailed]
    exact handles_of_segments ⟨rfl, rfl⟩ rfl (by simp [recordFailure])
  · obtain ⟨⟨hfor, -, -⟩, rfl⟩ := planCallback_eq_transcribe.mp hplan
    rw [htranscribed]
    refine ⟨⟨rfl, rfl⟩, fun _ => by simp [HasWords, transcribe], .inl ⟨result', hresult, hfor, ?_⟩⟩
    exact createSegments_comesFrom result' db.rows.nextPk now

theorem operate_handles (provider : String) (s : Callbacks) (operation : Operation) :
    Handles provider (s.events.map (·.payload)) s.db.rows (operate provider s operation).db.rows := by
  cases operation with
  | review request now =>
    simp only [operate]
    split
    · exact handles_refl provider _ s.db.rows
    · rename_i flight _
      apply Database.settle_induction (handles_refl provider _ s.db.rows)
      intro rows hok _
      exact reviewTransaction_handles hok
  | callback webhookEventId now =>
    simp only [operate]
    cases hfind : s.events.find? (·.pk = webhookEventId) with
    | none =>
      simp only [applyTranscriptionCallback, hfind]
      exact handles_refl provider _ s.db.rows
    | some record =>
      have hresult : record.payload ∈ s.events.map (·.payload) := List.mem_map_of_mem (List.mem_of_find?_eq_some hfind)
      rw [applyTranscriptionCallback_db hfind]
      exact performCallback_handles hresult now s.db

/-- No operation adds, removes or rewrites a recorded result. -/
theorem operate_results (provider : String) (s : Callbacks) (operation : Operation) :
    (operate provider s operation).events.map (·.payload) = s.events.map (·.payload) := by
  have hmarked : ∀ pk now, (markProcessed pk now s.events).map (·.payload) = s.events.map (·.payload) := by
    intro pk now
    apply markProcessed_map
    intros
    rfl
  cases operation with
  | review request now =>
    simp only [operate]
    split <;> rfl
  | callback webhookEventId now =>
    simp only [operate, applyTranscriptionCallback]
    split
    · rfl
    · split
      · rfl
      · exact hmarked _ now

end EPlatform.Transcripts
