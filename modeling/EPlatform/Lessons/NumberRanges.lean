import EPlatform.Learning.Earned
import EPlatform.Transcripts.Services
import EPlatform.Transcripts.Tasks

/-!
# Admitted numbers and the columns they are saved in

Heartbeats and cue edits that their serializers admit, in any order, by any users on any lessons and transcripts. The
serializers bound some numbers and the services clamp others. The columns bound all of them, and refuse what is left.
-/

namespace EPlatform.Lessons

open Runs

/-- `HeartbeatSerializer`. -/
structure HeartbeatAdmitted (heartbeat : Learning.Heartbeat) : Prop where
  positionSeconds : 0 ≤ heartbeat.positionSeconds
  watchedDeltaSeconds : 0 ≤ heartbeat.watchedDeltaSeconds ∧ heartbeat.watchedDeltaSeconds ≤ 3600

/-- `SegmentEditSerializer`. -/
structure SegmentEditAdmitted (edit : Transcripts.SegmentEdit) : Prop where
  text : ∀ text ∈ edit.text, text ≠ ""
  startMs : ∀ ms ∈ edit.startMs, 0 ≤ ms
  endMs : ∀ ms ∈ edit.endMs, 1 ≤ ms
  somethingToChange : edit ≠ ⟨none, none, none⟩

structure HeartbeatRequest where
  user : Uuid
  lesson : Learning.Lesson
  heartbeat : Learning.Heartbeat
  env : Learning.Env
  admitted : HeartbeatAdmitted heartbeat
  asset : ∀ asset ∈ env.asset, asset.Valid

/-- An edit with the copies of the cue and of its transcript that the view loaded. -/
structure SegmentEditRequest where
  pk : Uuid
  segment : Transcripts.TranscriptSegment
  transcript : Transcripts.Transcript
  actor : User
  edit : Transcripts.SegmentEdit
  now : Instant
  admitted : SegmentEditAdmitted edit
  loaded : segment.Valid

inductive NumberRequest
  | heartbeat (request : HeartbeatRequest)
  | editSegment (request : SegmentEditRequest)

/-- The tables the two services write: what learners have done, and every transcript with its cues. -/
structure NumberTables where
  learning : Learning.Database
  transcripts : Uuid → Transcripts.Database

def HeartbeatRequest.call (request : HeartbeatRequest) : Learning.Call :=
  ⟨request.user, request.lesson, .recordProgress request.heartbeat, request.env⟩

def HeartbeatRequest.transaction (settings : Learning.Settings) (request : HeartbeatRequest) (rows : Learning.Rows) :
    Except Learning.Error Learning.Rows :=
  Learning.recordProgress settings request.user request.lesson request.heartbeat request.env rows

def SegmentEditRequest.transaction (request : SegmentEditRequest) (rows : Transcripts.Rows) :
    Except Transcripts.Error Transcripts.Rows :=
  Transcripts.editSegment request.segment request.transcript request.actor request.edit request.now rows

def NumberTables.perform (settings : Learning.Settings) (s : NumberTables) : NumberRequest → NumberTables
  | .heartbeat request =>
    { s with learning := s.learning.settle (request.transaction settings s.learning.rows) }
  | .editSegment request =>
    { s with
      transcripts := Function.update s.transcripts request.pk
        ((s.transcripts request.pk).settle (request.transaction (s.transcripts request.pk).rows)) }

/-! ### Numbers that fit -/

structure ProgressFits (p : Learning.LessonProgress) : Prop where
  lastPositionSeconds : IsPositiveInteger p.lastPositionSeconds
  maxPositionSeconds : IsPositiveInteger p.maxPositionSeconds
  watchedSeconds : IsPositiveInteger p.watchedSeconds

structure TimingsFit (segment : Transcripts.TranscriptSegment) : Prop where
  startMs : IsInteger segment.startMs
  endMs : IsInteger segment.endMs

/-- What the request writes is in the range of its columns, and the tables take it. -/
def NumbersFit (settings : Learning.Settings) (s : NumberTables) : NumberRequest → Prop
  | .heartbeat request => ∀ rows, request.transaction settings s.learning.rows = .ok rows →
      (∀ p ∈ rows.progress, ProgressFits p) ∧ rows.Valid
  | .editSegment request => ∀ rows, request.transaction (s.transcripts request.pk).rows = .ok rows →
      (∀ segment ∈ rows.segments, TimingsFit segment) ∧ rows.Valid

/-- The playhead is in range, and so is the time watched where no duration caps it. -/
structure BeatWithinBounds (settings : Learning.Settings) (request : HeartbeatRequest) (rows : Learning.Rows) : Prop where
  positionSeconds : request.heartbeat.positionSeconds ≤ 2147483647
  watchedSeconds : (∃ duration, Learning.lessonDuration request.env.asset = some duration ∧ duration ≠ 0) ∨
    (request.call.row rows).watchedSeconds +
      min request.heartbeat.watchedDeltaSeconds settings.progressMaxHeartbeatSeconds ≤ 2147483647

/-- The bounds the serializers leave out, for a request the service does not turn away. -/
def WithinBounds (settings : Learning.Settings) (s : NumberTables) : NumberRequest → Prop
  | .heartbeat request => request.env.decision.allowed = true → BeatWithinBounds settings request s.learning.rows
  | .editSegment request =>
    Transcripts.EditAccepted request.segment request.transcript request.actor request.edit →
    (∃ row ∈ (s.transcripts request.pk).rows.segments, row.pk = request.segment.pk) →
    ∀ ms ∈ request.edit.endMs, ms ≤ 2147483647

variable {settings : Learning.Settings}

/-! ### A heartbeat -/

section Beat

variable {request : HeartbeatRequest} {rows : Learning.Rows}

theorem row_valid (hvalid : rows.Valid) : (request.call.row rows).Valid := by
  rcases Table.getOrCreate_row Learning.LessonProgress.key
    (.new request.call.user request.call.lesson.pk request.call.env.now) rows.progress with ⟨hmem, -⟩ | ⟨-, hnew⟩
  · exact hvalid.progress _ hmem
  · rw [Learning.Call.row, hnew]
    have hzero : IsPositiveInteger 0 := by decide
    exact ⟨hzero, hzero, hzero, Int.le_refl 0⟩

theorem accumulate_fits (settings : Learning.Settings) {watched delta : Int} {duration : Option Int}
    (hwatched : IsPositiveInteger watched)
    (hdelta : 0 ≤ delta) (hduration : ∀ seconds ∈ duration, IsPositiveInteger seconds) :
    IsPositiveInteger (Learning.accumulate settings watched delta duration) ↔
      (∃ seconds, duration = some seconds ∧ seconds ≠ 0) ∨
        watched + min delta settings.progressMaxHeartbeatSeconds ≤ 2147483647 := by
  unfold IsPositiveInteger at *
  cases duration with
  | none =>
    simp only [Learning.accumulate, reduceCtorEq, false_and, exists_false, false_or]
    omega
  | some seconds =>
    have hseconds := hduration seconds rfl
    by_cases hzero : seconds = 0
    · subst hzero
      simp only [Learning.accumulate, if_true, Option.some.injEq, ne_eq]
      constructor
      · intro h
        exact .inr (by omega)
      · rintro (⟨n, hn, hne⟩ | h)
        · exact absurd hn.symm hne
        · omega
    · simp only [Learning.accumulate, if_neg hzero]
      refine iff_of_true ?_ (.inl ⟨seconds, rfl, hzero⟩)
      omega

/-- The row a heartbeat saves is one the columns take exactly within the bounds. -/
theorem saved_valid_iff (hvalid : rows.Valid) :
    (request.call.saved settings (request.call.row rows)).Valid ↔ BeatWithinBounds settings request rows := by
  have hrow : (request.call.row rows).Valid := row_valid hvalid
  have hposition := request.admitted.positionSeconds
  have hduration : ∀ seconds ∈ Learning.lessonDuration request.env.asset, IsPositiveInteger seconds := by
    intro seconds hseconds
    obtain ⟨asset, hasset, hof⟩ := Option.bind_eq_some_iff.mp hseconds
    exact (request.asset asset hasset).durationSeconds seconds hof
  have hwatched := accumulate_fits settings hrow.watchedSeconds request.admitted.watchedDeltaSeconds.1 hduration
  constructor
  · intro hsaved
    refine ⟨?_, hwatched.mp hsaved.watchedSeconds⟩
    have hlast : max 0 request.heartbeat.positionSeconds ≤ 2147483647 := hsaved.lastPositionSeconds.2
    omega
  · intro hbounds
    have hlimit := hbounds.positionSeconds
    have hmax := hrow.maxPositionSeconds
    refine ⟨?_, ?_, hwatched.mpr hbounds.watchedSeconds, Int.le_max_right _ _⟩
    · change IsPositiveInteger (max 0 request.heartbeat.positionSeconds)
      unfold IsPositiveInteger
      omega
    · change IsPositiveInteger (max _ (max 0 request.heartbeat.positionSeconds))
      unfold IsPositiveInteger at *
      omega

theorem heartbeat_numbersFit_iff {s : NumberTables} :
    NumbersFit settings s (.heartbeat request) ↔ WithinBounds settings s (.heartbeat request) := by
  have hvalid := s.learning.valid
  have hcommits : Database.Commits Learning.Rows.Valid (request.call.transaction settings s.learning.rows) ↔ _ :=
    Learning.transaction_commits_iff hvalid
  rw [saved_valid_iff hvalid, Database.commits_iff] at hcommits
  constructor
  · intro hfits hallowed
    obtain ⟨table, justFinished, hok, -, -⟩ := 
      Learning.transaction_ok settings hvalid (show request.call.env.decision.allowed = true from hallowed)
    exact (hcommits.mp ⟨_, hok, (hfits _ hok).2⟩).2
  · intro hbounds rows hok
    have hcall : request.call.transaction settings s.learning.rows = .ok rows := hok
    have hallowed := Learning.allowed_of_ok hcall
    obtain ⟨rows', hok', hvalid'⟩ := hcommits.mpr ⟨hallowed, hbounds hallowed⟩
    cases hok.symm.trans hok'
    refine ⟨fun p hp => ?_, hvalid'⟩
    have hp := hvalid'.progress p hp
    exact ⟨hp.lastPositionSeconds, hp.maxPositionSeconds, hp.watchedSeconds⟩

end Beat

/-! ### An edit -/

section Edit

variable {request : SegmentEditRequest} {rows : Transcripts.Rows}

/-- The start is under the end, so that the end alone can be out of range. -/
theorem spanFits_iff
    (hspan : (request.edit.merge request.segment).startMs < (request.edit.merge request.segment).endMs) :
    Transcripts.SpanFits (request.edit.merge request.segment) ↔ ∀ ms ∈ request.edit.endMs, ms ≤ 2147483647 := by
  have hstart : 0 ≤ (request.edit.merge request.segment).startMs := by
    change 0 ≤ request.edit.startMs.getD request.segment.startMs
    cases hgiven : request.edit.startMs with
    | none => exact request.loaded.segmentStartsWithinTheMedia
    | some ms => exact request.admitted.startMs ms hgiven
  have hend : (∀ ms ∈ request.edit.endMs, ms ≤ 2147483647) ↔
      (request.edit.merge request.segment).endMs ≤ 2147483647 := by
    change _ ↔ request.edit.endMs.getD request.segment.endMs ≤ 2147483647
    cases request.edit.endMs with
    | none => exact iff_of_true (by simp) request.loaded.endMs.2
    | some ms => simp
  rw [hend, Transcripts.SpanFits, IsInteger, IsInteger]
  omega

theorem editSegment_numbersFit_iff {s : NumberTables} :
    NumbersFit settings s (.editSegment request) ↔ WithinBounds settings s (.editSegment request) := by
  have hcommits : Database.Commits Transcripts.Rows.Valid (request.transaction (s.transcripts request.pk).rows) ↔ _ :=
    Transcripts.editSegment_commits (s.transcripts request.pk).valid
  rw [Database.commits_iff] at hcommits
  constructor
  · intro hfits haccepted hexists
    have hok : request.transaction (s.transcripts request.pk).rows = .ok _ :=
      Transcripts.editSegment_ok.mpr ⟨haccepted, hexists, rfl⟩
    have hspan := (hcommits.mp ⟨_, hok, (hfits _ hok).2⟩).2.2
    exact (spanFits_iff haccepted.2.2).mp hspan
  · intro hbounds rows hok
    obtain ⟨haccepted, hexists, -⟩ := Transcripts.editSegment_ok.mp hok
    obtain ⟨rows', hok', hvalid'⟩ := hcommits.mpr
      ⟨haccepted, hexists, (spanFits_iff haccepted.2.2).mpr (hbounds haccepted hexists)⟩
    cases hok.symm.trans hok'
    refine ⟨fun segment hsegment => ?_, hvalid'⟩
    have hsegment := hvalid'.segments segment hsegment
    exact ⟨hsegment.startMs, hsegment.endMs⟩

end Edit

/-! ### Every sequence of requests -/

theorem numbersFit_iff (s : NumberTables) (request : NumberRequest) :
    NumbersFit settings s request ↔ WithinBounds settings s request := by
  cases request with
  | heartbeat request => exact heartbeat_numbersFit_iff
  | editSegment request => exact editSegment_numbersFit_iff

/-- Every number written fits in exactly the runs whose requests stay within the bounds no serializer sets. -/
theorem along_numbersFit_iff (settings : Learning.Settings) (s : NumberTables) (run : List NumberRequest) :
    Along (NumberTables.perform settings) (NumbersFit settings) s run ↔
      Along (NumberTables.perform settings) (WithinBounds settings) s run := by
  apply along_congr (I := fun _ => True) (fun _ _ h => h)
  · exact fun s request _ => numbersFit_iff s request
  · trivial

def emptyTables : NumberTables where
  learning := ⟨⟨[], []⟩, by decide⟩
  transcripts := fun pk => ⟨⟨.new pk 2 7 "es" 0, [], 0⟩, Transcripts.new_valid pk 2 7 "es" 0⟩

/-- A playhead one second past the last the column holds, on a preview lesson. -/
def pastTheColumn : HeartbeatRequest where
  user := 1
  lesson := ⟨2, 3⟩
  heartbeat := ⟨2147483648, 15⟩
  env := ⟨Entitlements.ALLOW_PREVIEW, none, [⟨2, 3⟩], 0⟩
  admitted := ⟨by decide, by decide⟩
  asset := fun _ h => by cases h

def deployed : Learning.Settings where
  progressMaxHeartbeatSeconds := 60
  completionMark := fun duration => 9 / 10 * duration

theorem position_past_the_column : ¬ Along (NumberTables.perform deployed) (NumbersFit deployed) emptyTables
    [.heartbeat pastTheColumn] := by
  intro hfits
  exact absurd ((numbersFit_iff _ _).mp hfits.1 rfl).positionSeconds (by decide)

end EPlatform.Lessons
