import EPlatform.Accounts.User
import EPlatform.Runs.Transaction

/-!
# Transcripts as rows

One transcript with its cues, and the constraints the two tables carry. A `Database` is rows that satisfy them, so a
transaction whose rows they refuse is rolled back by construction.
-/

namespace EPlatform.Transcripts

inductive TranscriptKind
  | target
  | translation
  deriving DecidableEq, Repr

inductive TranscriptStatus
  | pending
  | machine
  | inReview
  | approved
  | failed
  deriving DecidableEq, Repr

/-- `instructor` is `media_asset.lesson.course.instructor_id`, which the ownership check walks to. `confidence` is in
thousandths, as its `DecimalField` keeps three places. -/
structure Transcript where
  pk : Uuid
  mediaAsset : Uuid
  instructor : Uuid
  language : String
  kind : TranscriptKind
  status : TranscriptStatus
  provider : String
  providerJobId : Option String
  confidence : Option Int
  reviewedBy : Option Uuid
  approvedAt : Option Instant
  errorMessage : String
  retryCount : Int
  updatedAt : Instant
  deriving DecidableEq, Repr

structure TranscriptSegment where
  pk : Uuid
  position : Int
  startMs : Int
  endMs : Int
  text : String
  isEdited : Bool
  updatedAt : Instant
  deriving DecidableEq, Repr

/-- What a learner reads of a cue, and when. -/
structure Words where
  text : String
  startMs : Int
  endMs : Int
  deriving DecidableEq, Repr

def TranscriptSegment.words (segment : TranscriptSegment) : Words := ⟨segment.text, segment.startMs, segment.endMs⟩

/-- A transcript's row and the rows of its cues. `nextPk` is above every key in use: a new row's random key is drawn
from it. -/
structure Rows where
  transcript : Transcript
  segments : List TranscriptSegment
  nextPk : Uuid
  deriving DecidableEq, Repr

/-! ### Constraints -/

structure Transcript.Valid (t : Transcript) : Prop where
  approvedTranscriptIsSigned : t.status = .approved → t.reviewedBy.isSome ∧ t.approvedAt.isSome
  confidenceIsAProportion : ∀ c, t.confidence = some c → 0 ≤ c ∧ c ≤ 1000
  retryCount : IsPositiveInteger t.retryCount
  lengths : t.provider.length ≤ 32 ∧ ∀ id, t.providerJobId = some id → id.length ≤ 128

structure TranscriptSegment.Valid (s : TranscriptSegment) : Prop where
  segmentEndsAfterItStarts : s.startMs < s.endMs
  segmentStartsWithinTheMedia : 0 ≤ s.startMs
  startMs : IsInteger s.startMs
  endMs : IsInteger s.endMs
  position : IsPositiveInteger s.position

structure Rows.Valid (r : Rows) : Prop where
  transcript : r.transcript.Valid
  segments : ∀ s ∈ r.segments, s.Valid
  segmentPositionUniquePerTranscript : (r.segments.map (·.position)).Nodup
  primaryKeys : (r.segments.map (·.pk)).Nodup
  fresh : ∀ s ∈ r.segments, s.pk < r.nextPk

instance (t : Transcript) : Decidable t.Valid :=
  decidable_of_iff
    ((t.status = .approved → t.reviewedBy.isSome ∧ t.approvedAt.isSome) ∧
      (∀ c ∈ t.confidence, 0 ≤ c ∧ c ≤ 1000) ∧ IsPositiveInteger t.retryCount ∧
      t.provider.length ≤ 32 ∧ ∀ id ∈ t.providerJobId, id.length ≤ 128)
    ⟨fun ⟨h₁, h₂, h₃, h₄⟩ => ⟨h₁, h₂, h₃, h₄⟩, fun ⟨h₁, h₂, h₃, h₄⟩ => ⟨h₁, h₂, h₃, h₄⟩⟩

instance (s : TranscriptSegment) : Decidable s.Valid :=
  decidable_of_iff
    (s.startMs < s.endMs ∧ 0 ≤ s.startMs ∧ IsInteger s.startMs ∧ IsInteger s.endMs ∧ IsPositiveInteger s.position)
    ⟨fun ⟨h₁, h₂, h₃, h₄, h₅⟩ => ⟨h₁, h₂, h₃, h₄, h₅⟩, fun ⟨h₁, h₂, h₃, h₄, h₅⟩ => ⟨h₁, h₂, h₃, h₄, h₅⟩⟩

instance (r : Rows) : Decidable r.Valid :=
  decidable_of_iff
    (r.transcript.Valid ∧ (∀ s ∈ r.segments, s.Valid) ∧ (r.segments.map (·.position)).Nodup ∧
      (r.segments.map (·.pk)).Nodup ∧ ∀ s ∈ r.segments, s.pk < r.nextPk)
    ⟨fun ⟨h₁, h₂, h₃, h₄, h₅⟩ => ⟨h₁, h₂, h₃, h₄, h₅⟩, fun ⟨h₁, h₂, h₃, h₄, h₅⟩ => ⟨h₁, h₂, h₃, h₄, h₅⟩⟩

abbrev Database := Runs.Database Rows.Valid

inductive Error
  | notYours
  | notEditable (status : TranscriptStatus)
  | invalidSpan (startMs endMs : Int)
  | invalidTransition (source target : TranscriptStatus)
  | nothingToApprove
  | noRowsAffected
  | jobTaken (provider jobId : String)
  deriving DecidableEq, Repr

end EPlatform.Transcripts
