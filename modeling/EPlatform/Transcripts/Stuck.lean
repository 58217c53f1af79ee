import EPlatform.Runs.Query
import EPlatform.Transcripts.Transcript

/-!
# The stuck-transcription alert

`unfinished_transcriptions` counts everything outstanding and dates the oldest of it, and `stuck_transcriptions` compares
that one age with the threshold.
-/

namespace EPlatform.Transcripts

open Runs Runs.Query

/-- What the aggregate reads of a transcript. -/
structure TranscriptionRow where
  pk : Uuid
  status : TranscriptStatus
  createdAt : Instant
  deriving DecidableEq, Repr

/-- Ages are in microseconds, and negative for what is created in the future. -/
structure UnfinishedTranscriptions where
  count : Nat
  oldestAge : Option Int
  deriving DecidableEq, Repr

structure UnfinishedTranscriptionsReport where
  count : Nat
  oldestAgeDays : Int
  deriving DecidableEq, Repr

def DAY : Int := 24 * 60 * 60 * 1000000

def STUCK_TRANSCRIPTION_AGE : Int := 3 * DAY

def UNFINISHED_STATUSES : List TranscriptStatus := [.pending, .machine, .inReview]

def TranscriptionRow.isUnfinished (row : TranscriptionRow) : Bool := row.status ∈ UNFINISHED_STATUSES

def unfinishedTranscriptions (now : Instant) (rows : List TranscriptionRow) : UnfinishedTranscriptions :=
  let found := rows.filter (·.isUnfinished)
  { count := Query.count (found.map fun row => some row.pk)
    oldestAge := (minimum (found.map fun row => some row.createdAt)).map fun oldest => now - oldest }

def stuckTranscriptions (now : Instant) (rows : List TranscriptionRow) : Option UnfinishedTranscriptionsReport :=
  let outstanding := unfinishedTranscriptions now rows
  match outstanding.oldestAge with
  | none => none
  | some oldestAge =>
    if oldestAge < STUCK_TRANSCRIPTION_AGE then none else some ⟨outstanding.count, oldestAge / DAY⟩

/-! ### What the alert says -/

def TranscriptionRow.age (now : Instant) (row : TranscriptionRow) : Int := now - row.createdAt

/-- Outstanding, and for as long as the threshold. -/
def TranscriptionRow.IsStuck (now : Instant) (row : TranscriptionRow) : Prop :=
  row.isUnfinished ∧ STUCK_TRANSCRIPTION_AGE ≤ row.age now

instance (now : Instant) : DecidablePred (TranscriptionRow.IsStuck now) := fun _ => inferInstanceAs (Decidable (_ ∧ _))

/-- Silent exactly where nothing is stuck, and otherwise the number of what is stuck and the age of the oldest of it. -/
structure CountsStuck (now : Instant) (rows : List TranscriptionRow) (report : Option UnfinishedTranscriptionsReport) :
    Prop where
  silent : report = none ↔ ∀ row ∈ rows, ¬ row.IsStuck now
  count : ∀ said ∈ report, said.count = (rows.filter (·.IsStuck now)).length
  oldest : ∀ said ∈ report, ∃ row ∈ rows, row.IsStuck now ∧ (∀ other ∈ rows, other.IsStuck now → other.age now ≤ row.age now) ∧
    said.oldestAgeDays = row.age now / DAY

/-! ### What the alert counts -/

variable {now : Instant} {rows : List TranscriptionRow}

/-- Either nothing is unfinished, or the age is that of an unfinished transcript than which none is older. -/
theorem oldestAge_cases (now : Instant) (rows : List TranscriptionRow) :
    ((unfinishedTranscriptions now rows).oldestAge = none ∧ ∀ row ∈ rows, ¬ row.isUnfinished) ∨
      ∃ row ∈ rows, row.isUnfinished ∧ (unfinishedTranscriptions now rows).oldestAge = some (row.age now) ∧
        ∀ other ∈ rows, other.isUnfinished → other.age now ≤ row.age now := by
  cases holdest : minimum ((rows.filter (·.isUnfinished)).map fun row => some row.createdAt) with
  | none =>
    left
    refine ⟨by simp [unfinishedTranscriptions, holdest], ?_⟩
    simpa using minimum_eq_none.mp holdest
  | some oldest =>
    right
    obtain ⟨⟨row, hrow, rfl⟩, hleast⟩ := minimum_eq_some.mp holdest
    obtain ⟨hin, hunfinished⟩ := List.mem_filter.mp hrow
    refine ⟨row, hin, hunfinished, by simp [unfinishedTranscriptions, holdest, TranscriptionRow.age], ?_⟩
    intro other hother hoff
    have hle : row.createdAt ≤ other.createdAt := hleast other (List.mem_filter.mpr ⟨hother, hoff⟩)
    exact Int.sub_le_sub_left (Int.ofNat_le.mpr hle) now

theorem stuckTranscriptions_eq_none (h : ∀ row ∈ rows, ¬ row.IsStuck now) : stuckTranscriptions now rows = none := by
  rw [stuckTranscriptions]
  rcases oldestAge_cases now rows with ⟨hnone, -⟩ | ⟨row, hrow, hunfinished, hage, -⟩
  · simp [hnone]
  · have hyoung : row.age now < STUCK_TRANSCRIPTION_AGE := by
      by_contra hold
      exact h row hrow ⟨hunfinished, by omega⟩
    simp [hage, hyoung]

/-- The count is of everything unfinished, and the age that of the oldest transcript that is stuck. -/
theorem exists_stuckTranscriptions (h : ∃ row ∈ rows, row.IsStuck now) : ∃ row ∈ rows, row.IsStuck now ∧
    (∀ other ∈ rows, other.IsStuck now → other.age now ≤ row.age now) ∧
      stuckTranscriptions now rows = some ⟨(rows.filter (·.isUnfinished)).length, row.age now / DAY⟩ := by
  obtain ⟨stuck, hstuck, hunfinished, hold⟩ := h
  rcases oldestAge_cases now rows with ⟨-, hnone⟩ | ⟨row, hrow, hrowUnfinished, hage, hleast⟩
  · exact absurd hunfinished (hnone stuck hstuck)
  · have hrowOld := hleast stuck hstuck hunfinished
    have hnot : ¬ row.age now < STUCK_TRANSCRIPTION_AGE := by omega
    refine ⟨row, hrow, ⟨hrowUnfinished, by omega⟩, fun other hother hoff => hleast other hother hoff.1, ?_⟩
    have hcount : (unfinishedTranscriptions now rows).count = (rows.filter (·.isUnfinished)).length := count_some _ _
    simp only [stuckTranscriptions, hage, hcount, if_neg hnot]

/-- As many are unfinished as are stuck only where everything unfinished is stuck. -/
theorem length_filter_eq_iff : (rows.filter (·.isUnfinished)).length = (rows.filter (·.IsStuck now)).length ↔
    ∀ row ∈ rows, row.isUnfinished → row.IsStuck now := by
  have hstuck : rows.filter (·.IsStuck now) = (rows.filter (·.isUnfinished)).filter (·.IsStuck now) := by
    rw [List.filter_filter]
    refine List.filter_congr fun row _ => Bool.eq_iff_iff.mpr ?_
    simpa using fun hstuck : row.IsStuck now => hstuck.1
  rw [hstuck, eq_comm, List.length_filter_eq_length_iff]
  simp [List.mem_filter]

theorem countsStuck_of_stuck (h : ∃ row ∈ rows, row.IsStuck now) :
    CountsStuck now rows (stuckTranscriptions now rows) ↔ ∀ row ∈ rows, row.isUnfinished → row.IsStuck now := by
  obtain ⟨row, hrow, hstuck, holdest, hreport⟩ := exists_stuckTranscriptions h
  rw [← length_filter_eq_iff, hreport]
  constructor
  · intro hcounts
    exact hcounts.count _ rfl
  · intro hcount
    refine ⟨iff_of_false (by simp) fun hnone => hnone row hrow hstuck, ?_, ?_⟩
    · rintro said ⟨⟩
      exact hcount
    · rintro said ⟨⟩
      exact ⟨row, hrow, hstuck, holdest, rfl⟩

/-- The alert counts what is stuck exactly where nothing is, or everything unfinished is. -/
theorem countsStuck_iff (now : Instant) (rows : List TranscriptionRow) :
    CountsStuck now rows (stuckTranscriptions now rows) ↔
      (∀ row ∈ rows, ¬ row.IsStuck now) ∨ ∀ row ∈ rows, row.isUnfinished → row.IsStuck now := by
  by_cases hstuck : ∃ row ∈ rows, row.IsStuck now
  · rw [countsStuck_of_stuck hstuck, or_iff_right]
    exact fun hnone => hstuck.elim fun row h => hnone row h.1 h.2
  · have hnone : ∀ row ∈ rows, ¬ row.IsStuck now := fun row hrow h => hstuck ⟨row, hrow, h⟩
    refine iff_of_true ⟨iff_of_true (stuckTranscriptions_eq_none hnone) hnone, ?_, ?_⟩ (.inl hnone)
    · simp [stuckTranscriptions_eq_none hnone]
    · simp [stuckTranscriptions_eq_none hnone]

/-- A job that died nine days ago and a review begun yesterday are reported as two stuck transcriptions. -/
theorem yesterday_is_counted : ¬ CountsStuck (10 * DAY).toNat
    [⟨1, .pending, DAY.toNat⟩, ⟨2, .inReview, (9 * DAY).toNat⟩]
    (stuckTranscriptions (10 * DAY).toNat [⟨1, .pending, DAY.toNat⟩, ⟨2, .inReview, (9 * DAY).toNat⟩]) := by
  rw [countsStuck_of_stuck (by decide)]
  decide

end EPlatform.Transcripts
