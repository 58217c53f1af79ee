import EPlatform.Learning.Services
import EPlatform.Runs.Run

/-!
# Progress is monotone and only earned

Any calls by any users on any lessons, one after the other, while entitlements, durations and the lessons there are
change between them. A call that commits writes one progress row; what it may make of that row is the whole argument.
-/

namespace EPlatform.Learning

open Runs Entitlements

inductive Request
  | recordProgress (heartbeat : Heartbeat)
  | markComplete
  deriving DecidableEq, Repr

structure Call where
  user : Uuid
  lesson : Lesson
  request : Request
  env : Env

def Call.key (call : Call) : Uuid × Uuid := (call.user, call.lesson.pk)

def Call.transaction (settings : Settings) (call : Call) (rows : Rows) : Except Error Rows :=
  match call.request with
  | .recordProgress heartbeat => recordProgress settings call.user call.lesson heartbeat call.env rows
  | .markComplete => markComplete call.user call.lesson call.env rows

def perform (settings : Settings) (db : Database) (call : Call) : Database :=
  db.settle (call.transaction settings db.rows)

/-- The row the call works on: the learner's row of the lesson, or a new one. -/
def Call.row (call : Call) (rows : Rows) : LessonProgress :=
  (Table.getOrCreate LessonProgress.key (.new call.user call.lesson.pk call.env.now) rows.progress).1

/-- What the call makes of its row. -/
def Call.saved (settings : Settings) (call : Call) (progress : LessonProgress) : LessonProgress :=
  match call.request with
  | .recordProgress heartbeat =>
    progress.fold settings heartbeat (lessonDuration call.env.asset) call.env.now
  | .markComplete => if progress.completedAt.isNone then progress.mark call.env.now else progress

/-- What a call that committed did: its own row is the one it saved, all other progress is as it was, and no enrolment
is lost or finished anew. -/
structure Recorded (settings : Settings) (call : Call) (before after : Rows) : Prop where
  allowed : call.env.decision.allowed = true
  progress : ∀ p, p ∈ after.progress ↔
    (p ∈ before.progress ∧ p.key ≠ call.key) ∨ p = call.saved settings (call.row before)
  enrollments : EnrollmentsKept before.enrollments after.enrollments

variable {settings : Settings} {call : Call} {rows rows' : Rows} {db : Database}

theorem key_row : (call.row rows).key = call.key := Table.key_getOrCreate _ _ _

theorem key_saved {progress : LessonProgress} : (call.saved settings progress).key = progress.key := by
  unfold Call.saved
  cases call.request with
  | recordProgress heartbeat => rfl
  | markComplete =>
    dsimp only
    split
    · rfl
    · rfl

/-- A call that is allowed computes a table with its saved row in it, and goes on to the enrolment. -/
theorem transaction_ok (settings : Settings) (hvalid : rows.Valid) (hallowed : call.env.decision.allowed = true) :
    ∃ table justFinished, call.transaction settings rows = .ok
        (bookmarkAndFinish call.user call.lesson justFinished call.env { rows with progress := table }) ∧
      Table.Unique LessonProgress.key table ∧
      ∀ p, p ∈ table ↔ (p ∈ rows.progress ∧ p.key ≠ call.key) ∨ p = call.saved settings (call.row rows) := by
  have hunique := hvalid.oneProgressRowPerLesson
  have hcreated : Table.Unique LessonProgress.key
      (Table.getOrCreate LessonProgress.key (.new call.user call.lesson.pk call.env.now) rows.progress).2 :=
    Table.unique_getOrCreate hunique
  unfold Call.transaction Call.saved
  cases call.request with
  | recordProgress heartbeat =>
    simp only [recordProgress, require, hallowed, if_true]
    exact ⟨_, _, rfl, Table.unique_save.mpr hcreated, fun p => Table.mem_save_getOrCreate hunique key_row⟩
  | markComplete =>
    simp only [markComplete, require, hallowed, if_true]
    refine ⟨_, _, rfl, ?_, fun p => ?_⟩
    · split
      · exact Table.unique_save.mpr hcreated
      · exact hcreated
    · by_cases hopen : (call.row rows).completedAt.isNone = true
      · rw [if_pos hopen]
        exact (Eq.to_iff (congrArg (p ∈ ·) (if_pos hopen))).trans (Table.mem_save_getOrCreate hunique key_row)
      · rw [if_neg hopen]
        exact (Eq.to_iff (congrArg (p ∈ ·) (if_neg hopen))).trans (Table.mem_getOrCreate hunique)

theorem allowed_of_ok (h : call.transaction settings rows = .ok rows') : call.env.decision.allowed = true := by
  unfold Call.transaction at h
  cases hrequest : call.request with
  | recordProgress heartbeat =>
    simp only [hrequest, recordProgress, bind_eq_ok, require_eq_ok, exists_const] at h
    exact h.1
  | markComplete =>
    simp only [hrequest, markComplete, bind_eq_ok, require_eq_ok, exists_const] at h
    exact h.1

theorem transaction_recorded (hvalid : rows.Valid) (h : call.transaction settings rows = .ok rows') :
    Recorded settings call rows rows' := by
  have hallowed := allowed_of_ok h
  obtain ⟨table, justFinished, hok, -, htable⟩ := transaction_ok settings hvalid hallowed
  cases h.symm.trans hok
  obtain ⟨hprogress, -, hkept⟩ := bookmarkAndFinish_spec call.user call.lesson justFinished call.env
    { rows with progress := table } hvalid.oneEnrollmentPerCourse
  refine ⟨hallowed, fun p => ?_, hkept⟩
  rw [hprogress]
  exact htable p

/-- A call is recorded when the resolver allows it and the columns take the row it saves. -/
theorem transaction_commits_iff (hvalid : rows.Valid) :
    Database.Commits Rows.Valid (call.transaction settings rows) ↔
      call.env.decision.allowed = true ∧ (call.saved settings (call.row rows)).Valid := by
  rw [Database.commits_iff]
  constructor
  · rintro ⟨rows', hok, hvalid'⟩
    have hrecorded := transaction_recorded hvalid hok
    exact ⟨hrecorded.allowed, hvalid'.progress _ ((hrecorded.progress _).mpr (.inr rfl))⟩
  · rintro ⟨hallowed, hsaved⟩
    obtain ⟨table, justFinished, hok, hunique, htable⟩ := transaction_ok settings hvalid hallowed
    obtain ⟨hprogress, henrollments, -⟩ := bookmarkAndFinish_spec call.user call.lesson justFinished
      call.env { rows with progress := table } hvalid.oneEnrollmentPerCourse
    refine ⟨_, hok, ?_, henrollments, ?_⟩
    · rw [hprogress]
      exact hunique
    · rw [hprogress]
      intro p hp
      rcases (htable p).mp hp with ⟨hp, -⟩ | rfl
      · exact hvalid.progress p hp
      · exact hsaved

/-- A call either leaves the database as it is, or is recorded. -/
theorem perform_cases (settings : Settings) (call : Call) (db : Database) :
    (¬ Database.Commits Rows.Valid (call.transaction settings db.rows) ∧ perform settings db call = db) ∨
      Recorded settings call db.rows (perform settings db call).rows := by
  by_cases hcommits : Database.Commits Rows.Valid (call.transaction settings db.rows)
  · exact .inr (transaction_recorded db.valid (Database.settle_of_commits db hcommits))
  · exact .inl ⟨hcommits, Database.settle_of_not_commits hcommits⟩

/-! ### What no call takes away -/

/-- Every row is still there, its furthest position no less, and what was finished still finished on the same date. -/
structure Keeps (before after : Rows) : Prop where
  progress : ∀ p ∈ before.progress, ∃ p' ∈ after.progress, p'.key = p.key ∧
    p.maxPositionSeconds ≤ p'.maxPositionSeconds ∧ ∀ t, p.completedAt = some t → p'.completedAt = some t
  enrollments : EnrollmentsKept before.enrollments after.enrollments

theorem Keeps.refl (rows : Rows) : Keeps rows rows where
  progress p hp := ⟨p, hp, rfl, Int.le_refl _, fun _ h => h⟩
  enrollments := .refl rows.enrollments

theorem Keeps.trans {first second third : Rows} (h : Keeps first second) (h' : Keeps second third) :
    Keeps first third := by
  refine ⟨?_, h.enrollments.trans h'.enrollments⟩
  intro p hp
  obtain ⟨p', hp', hkey, hmax, hcompleted⟩ := h.progress p hp
  obtain ⟨p'', hp'', hkey', hmax', hcompleted'⟩ := h'.progress p' hp'
  exact ⟨p'', hp'', hkey'.trans hkey, Int.le_trans hmax hmax', fun t ht => hcompleted' t (hcompleted t ht)⟩

theorem maxPositionSeconds_le_saved (progress : LessonProgress) :
    progress.maxPositionSeconds ≤ (call.saved settings progress).maxPositionSeconds := by
  unfold Call.saved
  cases call.request with
  | recordProgress heartbeat => exact Int.le_max_left _ _
  | markComplete =>
    dsimp only
    split
    · exact Int.le_refl _
    · exact Int.le_refl _

theorem completedAt_saved {progress : LessonProgress} {t : Instant} (h : progress.completedAt = some t) :
    (call.saved settings progress).completedAt = some t := by
  unfold Call.saved
  cases call.request with
  | recordProgress heartbeat => exact completedAt_fold h
  | markComplete => simp [h]

/-- The row the call works on is the one that was there. -/
theorem row_eq_of_mem (hvalid : rows.Valid) {p : LessonProgress} (hp : p ∈ rows.progress) (hkey : p.key = call.key) :
    call.row rows = p := by
  rcases Table.getOrCreate_row LessonProgress.key (.new call.user call.lesson.pk call.env.now) rows.progress with
    ⟨hmem, hrow⟩ | ⟨hnone, -⟩
  · exact hvalid.oneProgressRowPerLesson.eq hmem hp (hrow.trans hkey.symm)
  · exact absurd hkey (hnone p hp)

theorem Recorded.keeps (h : Recorded settings call rows rows') (hvalid : rows.Valid) : Keeps rows rows' := by
  refine ⟨?_, h.enrollments⟩
  intro p hp
  by_cases hkey : p.key = call.key
  · have hrow := row_eq_of_mem hvalid hp hkey
    refine ⟨call.saved settings (call.row rows), (h.progress _).mpr (.inr rfl), ?_, ?_, ?_⟩
    · rw [key_saved, hrow]
    · rw [hrow]
      exact maxPositionSeconds_le_saved p
    · rw [hrow]
      exact fun t ht => completedAt_saved ht
  · exact ⟨p, (h.progress p).mpr (.inl ⟨hp, hkey⟩), rfl, Int.le_refl _, fun _ ht => ht⟩

theorem perform_keeps (db : Database) (call : Call) : Keeps db.rows (perform settings db call).rows := by
  rcases perform_cases settings call db with ⟨-, hsame⟩ | hrecorded
  · rw [hsame]
    exact .refl db.rows
  · exact hrecorded.keeps db.valid

theorem run_keeps (db : Database) (run : List Call) : Keeps db.rows (final (perform settings) db run).rows := by
  induction run generalizing db with
  | nil => exact .refl db.rows
  | cons call run ih => exact (perform_keeps db call).trans (ih (perform settings db call))

/-! ### What a call may give -/

/-- A denied call changes nothing; a heartbeat adds no more than its cap and, once recorded, leaves no more than the
duration; and nothing is finished but by a mark or by having been watched. -/
structure Earned (settings : Settings) (call : Call) (before after : Rows) : Prop where
  denied : call.env.decision.allowed = false → after = before
  others : ∀ p, p.key ≠ call.key → (p ∈ after.progress ↔ p ∈ before.progress)
  raised : ∀ heartbeat, call.request = .recordProgress heartbeat → ∀ p' ∈ after.progress, p'.key = call.key →
    (∀ p ∈ before.progress, p.key = call.key →
      p'.watchedSeconds ≤ p.watchedSeconds + settings.progressMaxHeartbeatSeconds) ∧
    ((∀ p ∈ before.progress, p.key ≠ call.key) → p'.watchedSeconds ≤ settings.progressMaxHeartbeatSeconds)
  capped : ∀ heartbeat, call.request = .recordProgress heartbeat →
    Database.Commits Rows.Valid (call.transaction settings before) → ∀ p' ∈ after.progress, p'.key = call.key →
      ∀ duration, lessonDuration call.env.asset = some duration → duration ≠ 0 → p'.watchedSeconds ≤ duration
  finished : ∀ p' ∈ after.progress, p'.completedAt ≠ none →
    (∃ p ∈ before.progress, p.key = p'.key ∧ p.completedAt = p'.completedAt) ∨
      (p'.key = call.key ∧ (call.request = .markComplete ∨
        ∃ heartbeat duration, call.request = .recordProgress heartbeat ∧
          lessonDuration call.env.asset = some duration ∧ duration ≠ 0 ∧
          settings.completionMark duration ≤ p'.watchedSeconds))

theorem Recorded.saved_of_key (h : Recorded settings call rows rows') {p' : LessonProgress} (hp' : p' ∈ rows'.progress)
    (hkey : p'.key = call.key) : p' = call.saved settings (call.row rows) := by
  rcases (h.progress p').mp hp' with ⟨-, hother⟩ | hsaved
  · exact absurd hkey hother
  · exact hsaved

/-- Watching starts from what the row had, or from nothing. -/
theorem watchedSeconds_row (call : Call) (hvalid : rows.Valid) :
    (∀ p ∈ rows.progress, p.key = call.key → (call.row rows).watchedSeconds = p.watchedSeconds) ∧
      ((∀ p ∈ rows.progress, p.key ≠ call.key) → (call.row rows).watchedSeconds = 0) := by
  refine ⟨fun p hp hkey => by rw [row_eq_of_mem hvalid hp hkey], fun hnone => ?_⟩
  rcases Table.getOrCreate_row LessonProgress.key (.new call.user call.lesson.pk call.env.now) rows.progress with
    ⟨hmem, hrow⟩ | ⟨-, hnew⟩
  · exact absurd hrow (hnone _ hmem)
  · exact congrArg LessonProgress.watchedSeconds hnew

/-- A row that is finished was so before, or the call finished it. -/
theorem Recorded.finished (h : Recorded settings call rows rows') {p' : LessonProgress} (hp' : p' ∈ rows'.progress)
    (hfinished : p'.completedAt ≠ none) :
    (∃ p ∈ rows.progress, p.key = p'.key ∧ p.completedAt = p'.completedAt) ∨
      (p'.key = call.key ∧ (call.request = .markComplete ∨
        ∃ heartbeat duration, call.request = .recordProgress heartbeat ∧
          lessonDuration call.env.asset = some duration ∧ duration ≠ 0 ∧
          settings.completionMark duration ≤ p'.watchedSeconds)) := by
  rcases (h.progress p').mp hp' with ⟨hp, -⟩ | hsaved
  · exact .inl ⟨p', hp, rfl, rfl⟩
  have hkey : p'.key = call.key := by rw [hsaved, key_saved, key_row]
  cases hbefore : (call.row rows).completedAt with
  | some t =>
    -- the row was finished before, so it is in the table
    rcases Table.getOrCreate_row LessonProgress.key (.new call.user call.lesson.pk call.env.now) rows.progress with
      ⟨hmem, hsame⟩ | ⟨-, hnew⟩
    · refine .inl ⟨call.row rows, hmem, hsame.trans hkey.symm, ?_⟩
      rw [hsaved, hbefore, completedAt_saved hbefore]
    · rw [Call.row, hnew] at hbefore
      cases hbefore
  | none =>
    refine .inr ⟨hkey, ?_⟩
    cases hrequest : call.request with
    | markComplete => exact .inl rfl
    | recordProgress heartbeat =>
      rw [hsaved, Call.saved, hrequest] at hfinished
      obtain ⟨duration, hduration, hne, hmark⟩ :=
        isComplete_iff.mp (isComplete_of_completedAt_fold hbefore hfinished)
      refine .inr ⟨heartbeat, duration, rfl, hduration, hne, ?_⟩
      rw [hsaved, Call.saved, hrequest]
      exact hmark

theorem Recorded.earned (h : Recorded settings call rows rows') (hvalid : rows.Valid) :
    Earned settings call rows rows' := by
  obtain ⟨hrow, hnew⟩ := watchedSeconds_row call hvalid
  refine ⟨?_, ?_, ?_, ?_, fun p' hp' hfinished => h.finished hp' hfinished⟩
  · intro hdenied
    simp [h.allowed] at hdenied
  · intro p hkey
    rw [h.progress]
    constructor
    · rintro (⟨hp, -⟩ | rfl)
      · exact hp
      · exact absurd (key_saved.trans key_row) hkey
    · exact fun hp => .inl ⟨hp, hkey⟩
  · intro heartbeat hrequest p' hp' hkey
    have hle : p'.watchedSeconds ≤ (call.row rows).watchedSeconds + settings.progressMaxHeartbeatSeconds := by
      rw [h.saved_of_key hp' hkey, Call.saved, hrequest]
      exact accumulate_le settings _ _ _
    constructor
    · intro p hp hsame
      rwa [hrow p hp hsame] at hle
    · intro hnone
      rwa [hnew hnone, Int.zero_add] at hle
  · intro heartbeat hrequest _ p' hp' hkey duration hduration hne
    rw [h.saved_of_key hp' hkey, Call.saved, hrequest, hduration]
    exact accumulate_le_duration settings _ _ hne

theorem perform_earned (db : Database) (call : Call) :
    Earned settings call db.rows (perform settings db call).rows := by
  rcases perform_cases settings call db with ⟨hrefused, hsame⟩ | hrecorded
  · rw [hsame]
    refine ⟨fun _ => rfl, fun _ _ => Iff.rfl, ?_, ?_, ?_⟩
    · intro heartbeat _ p' hp' hkey
      constructor
      · intro p hp hsame
        rw [db.valid.oneProgressRowPerLesson.eq hp' hp (hkey.trans hsame.symm)]
        omega
      · intro hnone
        exact absurd hkey (hnone p' hp')
    · intro heartbeat _ hcommits
      exact absurd hcommits hrefused
    · intro p' hp' _
      exact .inl ⟨p', hp', rfl, rfl⟩
  · exact hrecorded.earned db.valid

/-- In every run, rows are unique and in range, nothing is ever taken away, and nothing is given that was not earned. -/
theorem progress_monotone_and_earned (settings : Settings) (db : Database) (run : List Call) :
    (Table.Unique LessonProgress.key (final (perform settings) db run).rows.progress ∧
      Table.Unique Enrollment.key (final (perform settings) db run).rows.enrollments ∧
      ∀ p ∈ (final (perform settings) db run).rows.progress,
        0 ≤ p.lastPositionSeconds ∧ p.lastPositionSeconds ≤ p.maxPositionSeconds) ∧
    (∀ later, Keeps (final (perform settings) db run).rows (final (perform settings) db (run ++ later)).rows) ∧
    ∀ call, Earned settings call (final (perform settings) db run).rows
      (final (perform settings) db (run ++ [call])).rows := by
  have hvalid := (final (perform settings) db run).valid
  refine ⟨⟨hvalid.oneProgressRowPerLesson, hvalid.oneEnrollmentPerCourse, fun p hp => ?_⟩, ?_, ?_⟩
  · exact ⟨(hvalid.progress p hp).lastPositionSeconds.1, (hvalid.progress p hp).maxPositionIsAtLeastLast⟩
  · intro later
    rw [final_append]
    exact run_keeps _ later
  · intro call
    rw [final_append]
    exact perform_earned _ call

end EPlatform.Learning
