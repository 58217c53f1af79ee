import EPlatform.Runs.Interleaving
import EPlatform.Transcripts.Views

/-!
# Concurrent reviewers

Any number of edits and review transitions of one transcript, each loaded by one query and committed later. The store
keeps, beside the rows, the words that stood when the approval on record was committed.
-/

namespace EPlatform.Transcripts

open Runs

/-- The words of every cue, by its key. -/
def Rows.words (rows : Rows) : List (Uuid × Words) := rows.segments.map fun segment => (segment.pk, segment.words)

structure Reviewed where
  db : Database
  signed : List (Uuid × Words)
  deriving DecidableEq

/-- A history that starts from committed rows: an approval already on record is of the words already there. -/
def Reviewed.start (db : Database) : Reviewed := ⟨db, db.rows.words⟩

def ReviewFlight.isApproval : ReviewFlight → Bool
  | .post .approve .. => true
  | _ => false

def commitReview (now : Instant) (flight : ReviewFlight) (s : Reviewed) : Reviewed :=
  let result := flight.transaction now s.db.rows
  let db := s.db.settle result
  ⟨db, if flight.isApproval ∧ Database.Commits Rows.Valid result then db.rows.words else s.signed⟩

def reviewing : Protocol Reviewed ReviewFlight ReviewRequest Instant where
  load request s := loadReview s.db.rows request
  act now flight s := (commitReview now flight s, none)

/-- What a learner is served was approved. -/
def ServesWhatWasApproved (s : Reviewed) : Prop :=
  s.db.rows.transcript.status = .approved → s.signed = s.db.rows.words

instance : DecidablePred ServesWhatWasApproved := fun _ => inferInstanceAs (Decidable (_ → _))

/-- An edit that saw no approval, and finds one when it commits, writes the words that are already there. -/
def SparesApproval (_ : Instant) (flight : ReviewFlight) (s : Reviewed) : Prop :=
  match flight with
  | .patch segment transcript edit actor =>
    EditAccepted segment transcript actor edit → SpanFits (edit.merge segment) →
      transcript.status ≠ .approved → s.db.rows.transcript.status = .approved →
        ∀ row ∈ s.db.rows.segments, row.pk = segment.pk → row.words = (edit.merge segment).words
  | .post .. => True

/-! ### What a commit does to the words -/

theorem words_eq_saveSegment_iff {rows : Rows} {segment : TranscriptSegment} {now : Instant} :
    rows.words = (rows.saveSegment segment now).words ↔
      ∀ row ∈ rows.segments, row.pk = segment.pk → row.words = segment.words := by
  simp only [Rows.words, Rows.saveSegment, List.map_map, List.map_inj_left, Function.comp_apply]
  refine forall₂_congr fun row _ => ?_
  by_cases hpk : row.pk = segment.pk
  · simp [hpk, TranscriptSegment.words]
  · simp [hpk]

@[simp] theorem returnToReview_words (transcript : Transcript) (rows : Rows) :
    (returnToReview transcript rows).words = rows.words := by
  simp only [Rows.words, returnToReview_segments]

@[simp] theorem touch_words (rows : Rows) (now : Instant) : (rows.touch now).words = rows.words := rfl

private theorem review_servesWhatWasApproved {action : ReviewAction} {transcript : Transcript} {actor : User}
    (now : Instant) {s : Reviewed} (hs : ServesWhatWasApproved s) :
    ServesWhatWasApproved (commitReview now (.post action transcript actor) s) := by
  simp only [commitReview, ReviewFlight.transaction]
  by_cases hcommits : Database.Commits Rows.Valid (serviceOf action transcript actor now s.db.rows)
  · have hok := Database.settle_of_commits s.db hcommits
    intro happroved
    have haction : action = .approve := (serviceOf_status hok).mp happroved
    subst haction
    exact if_pos ⟨rfl, hcommits⟩
  · simp only [Database.settle_of_not_commits hcommits, hcommits, and_false, if_false]
    exact hs

private theorem edit_servesWhatWasApproved {segment : TranscriptSegment} {transcript : Transcript}
    {edit : SegmentEdit} {actor : User} (now : Instant) {s : Reviewed} (hs : ServesWhatWasApproved s) :
    ServesWhatWasApproved (commitReview now (.patch segment transcript edit actor) s) ↔
      SparesApproval now (.patch segment transcript edit actor) s := by
  simp only [commitReview, ReviewFlight.transaction, ReviewFlight.isApproval, SparesApproval, Bool.false_eq_true,
    false_and, if_false]
  by_cases hcommits : Database.Commits Rows.Valid (editSegment segment transcript actor edit now s.db.rows)
  · obtain ⟨haccepted, -, hfits⟩ := (editSegment_commits s.db.valid).mp hcommits
    have hok := Database.settle_of_commits s.db hcommits
    obtain ⟨-, -, hrows⟩ := editSegment_ok.mp hok
    simp only [ServesWhatWasApproved, hrows, returnToReview_status, returnToReview_words, touch_words, touch_status,
      saveSegment_transcript, haccepted, hfits, forall_const]
    by_cases hseen : transcript.status = .approved
    · simp [hseen]
    · simp only [hseen, if_false, ne_eq, not_false_eq_true, forall_const]
      refine forall_congr' fun hstored => ?_
      rw [hs hstored, words_eq_saveSegment_iff]
      rfl
  · rw [Database.settle_of_not_commits hcommits]
    apply iff_of_true hs
    intro haccepted hfits _ _ row hrow hpk
    exact absurd ((editSegment_commits s.db.valid).mpr ⟨haccepted, ⟨row, hrow, hpk⟩, hfits⟩) hcommits

/-- A commit keeps the approved words exactly when it spares the approval. -/
theorem commit_servesWhatWasApproved (now : Instant) (flight : ReviewFlight) {s : Reviewed}
    (hs : ServesWhatWasApproved s) : ServesWhatWasApproved (commitReview now flight s) ↔ SparesApproval now flight s := by
  cases flight with
  | patch segment transcript edit actor => exact edit_servesWhatWasApproved now hs
  | post action transcript actor => exact iff_of_true (review_servesWhatWasApproved now hs) trivial

/-- Learners are served approved words in every committed state of exactly the runs in which every edit spares the
approval it did not see. -/
theorem throughout_servesWhatWasApproved_iff (db : Database) (run : List (Move ReviewRequest Instant)) :
    Throughout reviewing.step (fun w => ServesWhatWasApproved w.store) (World.idle (Reviewed.start db)) run ↔
      Along reviewing.step (Protocol.Guarded SparesApproval) (World.idle (Reviewed.start db)) run := by
  have hstart : ServesWhatWasApproved (Reviewed.start db) := fun _ => rfl
  have hiff := Protocol.throughout_iff_of_step (p := reviewing) (G := SparesApproval)
    (fun hs => commit_servesWhatWasApproved _ _ hs) (Reviewed.start db) run
  exact hiff.trans (and_iff_right hstart)

/-- A transcript under review, with one cue. -/
def underReview : Database where
  rows :=
    { transcript :=
        { pk := 1, mediaAsset := 2, instructor := 7, language := "es", kind := .target, status := .inReview,
          provider := "fake", providerJobId := some "job-1", confidence := some 930, reviewedBy := none,
          approvedAt := none, errorMessage := "", retryCount := 0, updatedAt := 0 }
      segments :=
        [{ pk := 10, position := 1, startMs := 0, endMs := 900, text := "hola", isEdited := false, updatedAt := 0 }]
      nextPk := 11 }
  valid := by decide

def teacher : User := ⟨7, "teacher@example.test", .instructor, false⟩

/-- The edit loads the cue, the approval is loaded and committed, and the edit is committed after it. -/
theorem edit_after_approval_is_served :
    ¬ Throughout reviewing.step (fun w => ServesWhatWasApproved w.store) (World.idle (Reviewed.start underReview))
      [.load (.patch 10 ⟨some "adios", none, none⟩ teacher), .load (.post .approve teacher), .act 1 100, .act 0 101] := by
  decide

end EPlatform.Transcripts
