import EPlatform.Transcripts.Transcript

/-!
# Correcting what the machine heard

The four operations of the review workflow. Each acts on a `Transcript`, and `editSegment` on a `TranscriptSegment` too,
that its caller loaded earlier: the loaded copies decide, and the rows are written with the columns each `save` and
`update` names.
-/

namespace EPlatform.Transcripts

open Runs

def EDITABLE : List TranscriptStatus := [.machine, .inReview, .approved]

def mayReview (transcript : Transcript) (user : User) : Bool := mayManage transcript.instructor user

/-- What a reviewer may change about a cue. An omitted field is `none`. -/
structure SegmentEdit where
  text : Option String
  startMs : Option Int
  endMs : Option Int
  deriving DecidableEq, Repr

/-- The cue with the fields the request names: the merged values the span check reads. -/
def SegmentEdit.merge (edit : SegmentEdit) (segment : TranscriptSegment) : TranscriptSegment :=
  { segment with
    text := edit.text.getD segment.text
    startMs := edit.startMs.getD segment.startMs
    endMs := edit.endMs.getD segment.endMs }

/-- `segment.save(update_fields=["text", "start_ms", "end_ms", "is_edited", "updated_at"])`. -/
def Rows.saveSegment (rows : Rows) (segment : TranscriptSegment) (now : Instant) : Rows :=
  { rows with
    segments := rows.segments.map fun row =>
      if row.pk = segment.pk then
        { row with
          text := segment.text
          startMs := segment.startMs
          endMs := segment.endMs
          isEdited := segment.isEdited
          updatedAt := now }
      else row }

/-- `Transcript.objects.filter(pk=transcript.pk).update(updated_at=...)`. -/
def Rows.touch (rows : Rows) (now : Instant) : Rows :=
  { rows with transcript := { rows.transcript with updatedAt := now } }

def returnToReview (transcript : Transcript) (rows : Rows) : Rows :=
  if transcript.status ≠ .approved then rows
  else
    { rows with
      transcript := { rows.transcript with status := .inReview, reviewedBy := none, approvedAt := none } }

def editSegment (segment : TranscriptSegment) (transcript : Transcript) (actor : User) (edit : SegmentEdit)
    (now : Instant) (rows : Rows) : Except Error Rows := do
  require (mayReview transcript actor) .notYours
  require (transcript.status ∈ EDITABLE) (.notEditable transcript.status)
  let segment := edit.merge segment
  require (segment.startMs < segment.endMs) (.invalidSpan segment.startMs segment.endMs)
  require (∃ row ∈ rows.segments, row.pk = segment.pk) .noRowsAffected
  let rows := rows.saveSegment { segment with isEdited := true } now
  return returnToReview transcript (rows.touch now)

/-- Every legal move. There is no entry from `machine` to `approved`. -/
def ALLOWED_TRANSITIONS : List (TranscriptStatus × TranscriptStatus) :=
  [(.machine, .inReview), (.inReview, .approved), (.inReview, .machine), (.approved, .inReview)]

def requireTransition (transcript : Transcript) (target : TranscriptStatus) : Except Error Unit :=
  require ((transcript.status, target) ∈ ALLOWED_TRANSITIONS) (.invalidTransition transcript.status target)

def startReview (transcript : Transcript) (actor : User) (now : Instant) (rows : Rows) : Except Error Rows := do
  require (mayReview transcript actor) .notYours
  requireTransition transcript .inReview
  return { rows with transcript := { rows.transcript with status := .inReview, updatedAt := now } }

def approve (transcript : Transcript) (actor : User) (now : Instant) (rows : Rows) : Except Error Rows := do
  require (mayReview transcript actor) .notYours
  requireTransition transcript .approved
  require (rows.segments ≠ []) .nothingToApprove
  return { rows with
    transcript := { rows.transcript with
      status := .approved
      reviewedBy := some actor.pk
      approvedAt := some now
      updatedAt := now } }

def reopen (transcript : Transcript) (actor : User) (now : Instant) (rows : Rows) : Except Error Rows := do
  require (mayReview transcript actor) .notYours
  requireTransition transcript .machine
  return { rows with transcript := { rows.transcript with status := .machine, updatedAt := now } }

/-! ### What each operation can do -/

@[simp] theorem saveSegment_transcript (rows : Rows) (segment : TranscriptSegment) (now : Instant) :
    (rows.saveSegment segment now).transcript = rows.transcript := rfl

@[simp] theorem touch_segments (rows : Rows) (now : Instant) : (rows.touch now).segments = rows.segments := rfl

@[simp] theorem touch_status (rows : Rows) (now : Instant) :
    (rows.touch now).transcript.status = rows.transcript.status := rfl

@[simp] theorem returnToReview_segments (transcript : Transcript) (rows : Rows) :
    (returnToReview transcript rows).segments = rows.segments := by
  unfold returnToReview
  split <;> rfl

/-- An edit withdraws the approval its caller saw, and no other. -/
theorem returnToReview_status (transcript : Transcript) (rows : Rows) :
    (returnToReview transcript rows).transcript.status =
      if transcript.status = .approved then .inReview else rows.transcript.status := by
  unfold returnToReview
  by_cases h : transcript.status = .approved <;> simp [h]

/-- An edit is accepted from a permitted reviewer, on an editable status, when the merged span is real. -/
def EditAccepted (segment : TranscriptSegment) (transcript : Transcript) (actor : User) (edit : SegmentEdit) : Prop :=
  mayReview transcript actor ∧ transcript.status ∈ EDITABLE ∧
    (edit.merge segment).startMs < (edit.merge segment).endMs

instance (segment : TranscriptSegment) (transcript : Transcript) (actor : User) (edit : SegmentEdit) :
    Decidable (EditAccepted segment transcript actor edit) := inferInstanceAs (Decidable (_ ∧ _ ∧ _))

theorem editSegment_ok {segment : TranscriptSegment} {transcript : Transcript} {actor : User} {edit : SegmentEdit}
    {now : Instant} {rows rows' : Rows} :
    editSegment segment transcript actor edit now rows = .ok rows' ↔
      EditAccepted segment transcript actor edit ∧ (∃ row ∈ rows.segments, row.pk = segment.pk) ∧
        rows' = returnToReview transcript
          ((rows.saveSegment { edit.merge segment with isEdited := true } now).touch now) := by
  simp only [editSegment, EditAccepted, bind_eq_ok, require_eq_ok, exists_const, pure_eq_ok, and_assoc]
  exact Iff.rfl

/-- The columns can hold the cue's timings. -/
def SpanFits (segment : TranscriptSegment) : Prop :=
  0 ≤ segment.startMs ∧ IsInteger segment.startMs ∧ IsInteger segment.endMs

instance (segment : TranscriptSegment) : Decidable (SpanFits segment) := inferInstanceAs (Decidable (_ ∧ _ ∧ _))

/-- Writing a real span over valid rows leaves valid rows exactly when the columns can hold the span. -/
theorem saveSegment_valid {rows : Rows} {segment : TranscriptSegment} (now : Instant) (hrows : rows.Valid)
    (hspan : segment.startMs < segment.endMs) (hexists : ∃ row ∈ rows.segments, row.pk = segment.pk) :
    (rows.saveSegment segment now).Valid ↔ SpanFits segment := by
  have hpositions : (rows.saveSegment segment now).segments.map (·.position) = rows.segments.map (·.position) := by
    simp only [Rows.saveSegment, List.map_map]
    apply List.map_congr_left
    intro row _
    simp only [Function.comp_apply]
    split <;> rfl
  have hpks : (rows.saveSegment segment now).segments.map (·.pk) = rows.segments.map (·.pk) := by
    simp only [Rows.saveSegment, List.map_map]
    apply List.map_congr_left
    intro row _
    simp only [Function.comp_apply]
    split <;> rfl
  constructor
  · intro h
    obtain ⟨row, hrow, hpk⟩ := hexists
    have hsaved := h.segments _ (List.mem_map_of_mem hrow)
    simp only [hpk, if_true] at hsaved
    exact ⟨hsaved.segmentStartsWithinTheMedia, hsaved.startMs, hsaved.endMs⟩
  · intro hfits
    refine ⟨hrows.transcript, ?_, ?_, ?_, ?_⟩
    · intro saved hsaved
      obtain ⟨row, hrow, rfl⟩ := List.mem_map.mp hsaved
      have hvalid := hrows.segments row hrow
      split
      · exact ⟨hspan, hfits.1, hfits.2.1, hfits.2.2, hvalid.position⟩
      · exact hvalid
    · rw [hpositions]
      exact hrows.segmentPositionUniquePerTranscript
    · rw [hpks]
      exact hrows.primaryKeys
    · intro saved hsaved
      obtain ⟨row, hrow, rfl⟩ := List.mem_map.mp hsaved
      have hfresh := hrows.fresh row hrow
      split <;> exact hfresh

theorem touch_valid {rows : Rows} (now : Instant) : (rows.touch now).Valid ↔ rows.Valid := by
  constructor
  · intro h
    exact ⟨⟨h.1.1, h.1.2, h.1.3, h.1.4⟩, h.2, h.3, h.4, h.5⟩
  · intro h
    exact ⟨⟨h.1.1, h.1.2, h.1.3, h.1.4⟩, h.2, h.3, h.4, h.5⟩

theorem returnToReview_valid (transcript : Transcript) {rows : Rows} (hrow : rows.transcript.Valid) :
    (returnToReview transcript rows).Valid ↔ rows.Valid := by
  unfold returnToReview
  split
  · rfl
  · constructor
    · intro h
      exact ⟨hrow, h.2, h.3, h.4, h.5⟩
    · intro h
      exact ⟨⟨by simp, h.1.2, h.1.3, h.1.4⟩, h.2, h.3, h.4, h.5⟩

/-- An edit is committed when it is accepted, its cue still has a row, and the columns can hold its span. -/
theorem editSegment_commits {segment : TranscriptSegment} {transcript : Transcript} {actor : User}
    {edit : SegmentEdit} {now : Instant} {rows : Rows} (hrows : rows.Valid) :
    Database.Commits Rows.Valid (editSegment segment transcript actor edit now rows) ↔
      EditAccepted segment transcript actor edit ∧ (∃ row ∈ rows.segments, row.pk = segment.pk) ∧
        SpanFits (edit.merge segment) := by
  have hvalid : ∀ saved : TranscriptSegment, saved.startMs < saved.endMs →
      (∃ row ∈ rows.segments, row.pk = saved.pk) →
      ((returnToReview transcript ((rows.saveSegment saved now).touch now)).Valid ↔ SpanFits saved) := by
    intro saved hspan hexists
    rw [returnToReview_valid, touch_valid, saveSegment_valid now hrows hspan hexists]
    exact ⟨hrows.1.1, hrows.1.2, hrows.1.3, hrows.1.4⟩
  have hedited := hvalid { edit.merge segment with isEdited := true }
  rw [Database.commits_iff]
  constructor
  · rintro ⟨rows', hok, hrows'⟩
    obtain ⟨haccepted, hexists, rfl⟩ := editSegment_ok.mp hok
    exact ⟨haccepted, hexists, (hedited haccepted.2.2 hexists).mp hrows'⟩
  · rintro ⟨haccepted, hexists, hfits⟩
    exact ⟨_, editSegment_ok.mpr ⟨haccepted, hexists, rfl⟩, (hedited haccepted.2.2 hexists).mpr hfits⟩

theorem requireTransition_ok {transcript : Transcript} {target : TranscriptStatus} {u : Unit} :
    requireTransition transcript target = .ok u ↔ (transcript.status, target) ∈ ALLOWED_TRANSITIONS :=
  require_eq_ok

theorem startReview_ok {transcript : Transcript} {actor : User} {now : Instant} {rows rows' : Rows} :
    startReview transcript actor now rows = .ok rows' ↔
      mayReview transcript actor ∧ (transcript.status, .inReview) ∈ ALLOWED_TRANSITIONS ∧
        rows' = { rows with transcript := { rows.transcript with status := .inReview, updatedAt := now } } := by
  simp only [startReview, bind_eq_ok, require_eq_ok, requireTransition_ok, exists_const, pure_eq_ok]

theorem approve_ok {transcript : Transcript} {actor : User} {now : Instant} {rows rows' : Rows} :
    approve transcript actor now rows = .ok rows' ↔
      mayReview transcript actor ∧ (transcript.status, .approved) ∈ ALLOWED_TRANSITIONS ∧ rows.segments ≠ [] ∧
        rows' = { rows with
          transcript := { rows.transcript with
            status := .approved
            reviewedBy := some actor.pk
            approvedAt := some now
            updatedAt := now } } := by
  simp only [approve, bind_eq_ok, require_eq_ok, requireTransition_ok, exists_const, pure_eq_ok]

theorem reopen_ok {transcript : Transcript} {actor : User} {now : Instant} {rows rows' : Rows} :
    reopen transcript actor now rows = .ok rows' ↔
      mayReview transcript actor ∧ (transcript.status, .machine) ∈ ALLOWED_TRANSITIONS ∧
        rows' = { rows with transcript := { rows.transcript with status := .machine, updatedAt := now } } := by
  simp only [reopen, bind_eq_ok, require_eq_ok, requireTransition_ok, exists_const, pure_eq_ok]

end EPlatform.Transcripts
