import EPlatform.Transcripts.Services

/-!
# The review endpoints

`SegmentEditView` and `TranscriptReviewView`. A request loads its instances with one scoped query and hands them to a
service; what it loaded is its `ReviewFlight`.
-/

namespace EPlatform.Transcripts

open Runs

inductive ReviewAction
  | startReview
  | approve
  | reopen
  deriving DecidableEq, Repr

/-- The service `TranscriptReviewView` calls for an action. -/
def serviceOf : ReviewAction → Transcript → User → Instant → Rows → Except Error Rows
  | .startReview => startReview
  | .approve => approve
  | .reopen => reopen

inductive ReviewRequest
  | patch (segment : Uuid) (edit : SegmentEdit) (actor : User)
  | post (action : ReviewAction) (actor : User)
  deriving DecidableEq, Repr

/-- A request between its load and its commit, with the instances it loaded. -/
inductive ReviewFlight
  | patch (segment : TranscriptSegment) (transcript : Transcript) (edit : SegmentEdit) (actor : User)
  | post (action : ReviewAction) (transcript : Transcript) (actor : User)
  deriving DecidableEq, Repr

/-- `segments_editable_by`, with the joined transcript, and `transcripts_reviewable_by`: an object out of scope is as
absent as one that does not exist. -/
def loadReview (rows : Rows) : ReviewRequest → Option ReviewFlight
  | .patch pk edit actor =>
    if mayReview rows.transcript actor then
      (rows.segments.find? (·.pk = pk)).map fun segment => .patch segment rows.transcript edit actor
    else none
  | .post action actor =>
    if mayReview rows.transcript actor then some (.post action rows.transcript actor) else none

/-- The transaction a loaded request runs. -/
def ReviewFlight.transaction (now : Instant) (rows : Rows) : ReviewFlight → Except Error Rows
  | .patch segment transcript edit actor => editSegment segment transcript actor edit now rows
  | .post action transcript actor => serviceOf action transcript actor now rows

/-! ### What a review transition can do -/

/-- `approve` is the only route to `approved`. -/
theorem serviceOf_status {action : ReviewAction} {transcript : Transcript} {actor : User} {now : Instant}
    {rows rows' : Rows} (h : serviceOf action transcript actor now rows = .ok rows') :
    rows'.transcript.status = .approved ↔ action = .approve := by
  cases action with
  | startReview => obtain ⟨-, -, rfl⟩ := startReview_ok.mp h; simp
  | approve => obtain ⟨-, -, -, rfl⟩ := approve_ok.mp h; simp
  | reopen => obtain ⟨-, -, rfl⟩ := reopen_ok.mp h; simp

end EPlatform.Transcripts
