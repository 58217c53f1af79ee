import EPlatform.Learning.Transactions

/-!
# What a call in flight may rely on

The assertion each call makes about the rows it has locked and written, kept by its own statements and by every commit of
another call, and what one statement can change of what is finished and completed.
-/

namespace EPlatform.Learning

open Runs ReadCommitted Entitlements

def Finished (view : Store Row) (lesson : Uuid) : Prop := (view (.progress lesson)).any isFinished = true

def Completed (view : Store Row) : Prop := (view .enrollment).any isCompleted = true

instance (view : Store Row) (lesson : Uuid) : Decidable (Finished view lesson) := inferInstanceAs (Decidable (_ = true))

instance (view : Store Row) : Decidable (Completed view) := inferInstanceAs (Decidable (_ = true))

/-- The call has finished a lesson and has not found the course unfinished. -/
def Stage.Undecided : Stage → Prop
  | .bookmarking justFinished => justFinished = true
  | .enrolling justFinished => justFinished = true
  | .moving justFinished enrollment => justFinished = true ∧ isCompleted enrollment = false
  | .counting => True
  | .countingFinished _ => True
  | .completing => True
  | _ => False

/-! ### Assertions -/

variable {c : Course} {committed : Store Row} {s s' t : Session Row Flight Empty}

/-- The call holds the row of its lesson, which it alone has finished. -/
structure Finishing (committed : Store Row) (s : Session Row Flight Empty) : Prop where
  holds : .progress s.stage.lesson ∈ s.holds
  before : ¬ Finished committed s.stage.lesson
  after : Finished (s.view committed) s.stage.lesson

def StageSound (c : Course) (committed : Store Row) (s : Session Row Flight Empty) : Prop :=
  match s.stage.stage with
  | .resolving | .measuring | .getting _ | .creating _ =>
    s.writes (.progress s.stage.lesson) = none ∧ s.writes .enrollment = none
  | .saving _ progress =>
    .progress s.stage.lesson ∈ s.holds ∧ s.view committed (.progress s.stage.lesson) = some progress ∧
      (isFinished progress = true → Finished committed s.stage.lesson) ∧ s.writes .enrollment = none
  | .bookmarking justFinished => (justFinished = true → Finishing committed s) ∧ s.writes .enrollment = none
  | .enrolling _ => False
  | .moving justFinished enrollment =>
    (justFinished = true → Finishing committed s) ∧ s.writes .enrollment = none ∧
      (isCompleted enrollment = true → Completed committed) ∧
      (justFinished = true → isCompleted enrollment = false → ¬ Completed committed)
  | .counting => Finishing committed s ∧ ¬ Completed committed
  | .countingFinished total => Finishing committed s ∧ ¬ Completed committed ∧ total = c.lessons.length
  | .completing => Finishing committed s ∧ ¬ Completed committed ∧
      ∀ lesson ∈ c.lessons, Finished (s.view committed) lesson
  | .leaving => True

/-- It writes no progress but its own, takes nothing back, and completes the course only on seeing every lesson
finished. -/
structure WritesSound (c : Course) (committed : Store Row) (s : Session Row Flight Empty) : Prop where
  lesson : s.stage.lesson ∈ c.lessons
  others : ∀ lesson, lesson ≠ s.stage.lesson → s.writes (.progress lesson) = none
  keepsFinished : ∀ lesson, Finished committed lesson → Finished (s.view committed) lesson
  keepsCompleted : Completed committed → Completed (s.view committed)
  sees : Completed (s.view committed) →
    Completed committed ∨ ∀ lesson ∈ c.lessons, Finished (s.view committed) lesson

structure Sound (c : Course) (committed : Store Row) (s : Session Row Flight Empty) : Prop where
  writes : WritesSound c committed s
  stage : StageSound c committed s

/-- What one statement changes of what is finished, completed and undecided. -/
inductive Effect (c : Course) (committed : Store Row) (s s' : Session Row Flight Empty) : Prop
  | nothing (hfinished : ∀ lesson, Finished (s'.view committed) lesson ↔ Finished (s.view committed) lesson)
    (hcompleted : Completed (s'.view committed) ↔ Completed (s.view committed))
    (hundecided : s'.stage.stage.Undecided ↔ s.stage.stage.Undecided) : Effect c committed s s'
  | finishes (hfinished : ∀ lesson, Finished (s.view committed) lesson → Finished (s'.view committed) lesson)
    (hbefore : ¬ Finished (s.view committed) s.stage.lesson) (hholds : .progress s.stage.lesson ∈ s.holds)
    (hundecided : s'.stage.stage.Undecided) : Effect c committed s s'
  | answered (hview : s'.view committed = s.view committed) (hcompleted : Completed committed) : Effect c committed s s'
  | countsInVain (total : Nat) (hstage : s.stage.stage = .countingFinished total)
    (hview : s'.view committed = s.view committed)
    (hmissing : ¬ ∀ lesson ∈ c.lessons, Finished (s.view committed) lesson)
    (hdecided : ¬ s'.stage.stage.Undecided) : Effect c committed s s'
  | completes (hfinished : ∀ lesson, Finished (s'.view committed) lesson ↔ Finished (s.view committed) lesson)
    (hundecided : s.stage.stage.Undecided) (hcompleted : Completed (s'.view committed)) : Effect c committed s s'

/-! ### One statement -/

section Statements

variable {stage : Stage} {moment : Moment}

theorem finished_write_progress {lesson lesson' : Uuid} {progress : LessonProgress} {next : Flight} :
    Finished ((s.write (.progress lesson') progress next).view committed) lesson ↔
      if lesson = lesson' then isFinished progress = true else Finished (s.view committed) lesson := by
  unfold Finished
  split
  · rename_i hsame
    subst hsame
    rw [view_write_self, Option.any_some]
  · rename_i hother
    rw [view_write_of_ne (by simpa using hother)]

theorem completed_write_progress {lesson : Uuid} {progress : LessonProgress} {next : Flight} :
    Completed ((s.write (.progress lesson) progress next).view committed) ↔ Completed (s.view committed) := by
  unfold Completed
  rw [view_write_of_ne (by simp)]

theorem finished_write_enrollment {lesson : Uuid} {enrollment : Enrollment} {next : Flight} :
    Finished ((s.write .enrollment enrollment next).view committed) lesson ↔ Finished (s.view committed) lesson := by
  unfold Finished
  rw [view_write_of_ne (by simp)]

theorem completed_write_enrollment {enrollment : Enrollment} {next : Flight} :
    Completed ((s.write .enrollment enrollment next).view committed) ↔ isCompleted enrollment = true := by
  unfold Completed
  rw [view_write_self, Option.any_some]

/-- A statement that writes nothing leaves what was written sound. -/
theorem WritesSound.congr (h : WritesSound c committed s) (hlesson : s'.stage.lesson = s.stage.lesson)
    (hwrites : s'.writes = s.writes) : WritesSound c committed s' := by
  have hview : s'.view committed = s.view committed := by
    funext k
    rw [Session.view, hwrites, Session.view]
  constructor
  · rw [hlesson]
    exact h.lesson
  · rw [hlesson, hwrites]
    exact h.others
  · rw [hview]
    exact h.keepsFinished
  · rw [hview]
    exact h.keepsCompleted
  · rw [hview]
    exact h.sees

theorem WritesSound.write_progress (h : WritesSound c committed s) {progress : LessonProgress}
    (hkeeps : Finished (s.view committed) s.stage.lesson → isFinished progress = true) :
    WritesSound c committed (s.write (.progress s.stage.lesson) progress (s.stage.to stage)) := by
  have hgrows : ∀ lesson, Finished (s.view committed) lesson →
      Finished ((s.write (.progress s.stage.lesson) progress (s.stage.to stage)).view committed) lesson := by
    intro lesson hfinished
    rw [finished_write_progress]
    split
    · rename_i hsame
      exact hkeeps (hsame ▸ hfinished)
    · exact hfinished
  constructor
  · exact h.lesson
  · intro lesson hother
    have hne : lesson ≠ s.stage.lesson := hother
    rw [writes_write_of_ne (by simpa using hne)]
    exact h.others lesson hne
  · exact fun lesson hfinished => hgrows lesson (h.keepsFinished lesson hfinished)
  · rw [completed_write_progress]
    exact h.keepsCompleted
  · rw [completed_write_progress]
    exact fun hcompleted => (h.sees hcompleted).imp_right fun hall lesson hmem => hgrows lesson (hall lesson hmem)

theorem WritesSound.write_enrollment (h : WritesSound c committed s) {enrollment : Enrollment}
    (hkeeps : Completed (s.view committed) → isCompleted enrollment = true)
    (hsees : isCompleted enrollment = true →
      Completed (s.view committed) ∨ ∀ lesson ∈ c.lessons, Finished (s.view committed) lesson) :
    WritesSound c committed (s.write .enrollment enrollment (s.stage.to stage)) := by
  constructor
  · exact h.lesson
  · intro lesson hother
    rw [writes_write_of_ne (by simp)]
    exact h.others lesson hother
  · intro lesson hfinished
    rw [finished_write_enrollment]
    exact h.keepsFinished lesson hfinished
  · rw [completed_write_enrollment]
    exact fun hcompleted => hkeeps (h.keepsCompleted hcompleted)
  · rw [completed_write_enrollment]
    simp only [finished_write_enrollment]
    intro hcompleted
    rcases hsees hcompleted with hcompleted | hall
    · exact h.sees hcompleted
    · exact .inr hall

/-- A statement that reads or locks, and comes to a stage as decided as before. -/
theorem effect_same (hview : s'.view committed = s.view committed)
    (hundecided : s'.stage.stage.Undecided ↔ s.stage.stage.Undecided) : Effect c committed s s' := by
  apply Effect.nothing
  · intro lesson
    rw [hview]
  · rw [hview]
  · exact hundecided

theorem sound_select (h : Sound c committed s) (hsound : StageSound c committed { s with stage := s.stage.to stage })
    (hundecided : stage.Undecided ↔ s.stage.stage.Undecided) :
    Sound c committed { s with stage := s.stage.to stage } ∧
      Effect c committed s { s with stage := s.stage.to stage } :=
  ⟨⟨h.writes.congr rfl rfl, hsound⟩, effect_same rfl hundecided⟩

/-- Before its row is locked a call has written nothing. -/
def Stage.Early : Stage → Prop
  | .resolving | .measuring | .getting _ | .creating _ => True
  | _ => False

theorem writes_of_early (h : Sound c committed s) (hearly : s.stage.stage.Early) :
    s.writes (.progress s.stage.lesson) = none ∧ s.writes .enrollment = none := by
  have hstage := h.stage
  unfold StageSound at hstage
  cases hs : s.stage.stage <;> simp_all [Stage.Early]

theorem takes_getting {duration : Option Int} (h : Sound c committed s)
    (htakes : c.learning.Takes moment committed s s') (hs : s.stage.stage = .getting duration) :
    Sound c committed s' ∧ Effect c committed s s' := by
  have hwrites := writes_of_early h (by simp [hs, Stage.Early])
  simp only [Program.Takes, Course.learning, Course.send, hs] at htakes
  cases hview : s.view committed (.progress s.stage.lesson) with
  | none =>
    simp only [hview] at htakes
    subst htakes
    exact sound_select h hwrites (by simp [hs, Stage.Undecided])
  | some progress =>
    simp only [hview] at htakes
    subst htakes
    refine ⟨⟨h.writes.congr rfl rfl, List.mem_cons_self, hview, ?_, hwrites.2⟩, ?_⟩
    · intro hfinished
      rw [Session.view, hwrites.1, Option.none_or] at hview
      rw [Finished]
      simp [Flight.to, hview, hfinished]
    · exact effect_same rfl (by simp [hs, Flight.to, Stage.Undecided])

theorem takes_creating {duration : Option Int} (h : Sound c committed s)
    (htakes : c.learning.Takes moment committed s s') (hs : s.stage.stage = .creating duration) :
    Sound c committed s' ∧ Effect c committed s s' := by
  have hwrites := writes_of_early h (by simp [hs, Stage.Early])
  simp only [Program.Takes, Course.learning, Course.send, hs] at htakes
  cases hview : s.view committed (.progress s.stage.lesson) with
  | some progress =>
    simp only [hview] at htakes
    subst htakes
    exact sound_select h hwrites (by simp [hs, Stage.Undecided])
  | none =>
    simp only [hview] at htakes
    subst htakes
    have hopen : ¬ Finished (s.view committed) s.stage.lesson := by simp [Finished, hview]
    refine ⟨⟨h.writes.write_progress fun hfinished => absurd hfinished hopen, ?_⟩, ?_⟩
    · refine ⟨List.mem_cons_self, view_write_self .., ?_, hwrites.2⟩
      intro hfinished
      simp [isFinished, LessonProgress.new] at hfinished
    · apply Effect.nothing
      · intro lesson
        rw [finished_write_progress]
        split
        · rename_i hsame
          rw [hsame]
          exact iff_of_false (by simp [isFinished, LessonProgress.new]) hopen
        · exact Iff.rfl
      · exact completed_write_progress
      · simp [hs, Session.write, Flight.to, Stage.Undecided]

theorem takes_early (h : Sound c committed s) (htakes : c.learning.Takes moment committed s s')
    (hearly : s.stage.stage.Early) : Sound c committed s' ∧ Effect c committed s s' := by
  have hwrites := writes_of_early h hearly
  cases hs : s.stage.stage with
  | resolving =>
    simp only [Program.Takes, Course.learning, Course.send, hs] at htakes
    split_ifs at htakes
    · subst htakes
      exact sound_select h hwrites (by simp [hs, Stage.Undecided])
    · subst htakes
      exact sound_select h hwrites (by simp [hs, Stage.Undecided])
    · exact htakes.elim
  | measuring =>
    simp only [Program.Takes, Course.learning, Course.send, hs] at htakes
    subst htakes
    exact sound_select h hwrites (by simp [hs, Stage.Undecided])
  | getting duration => exact takes_getting h htakes hs
  | creating duration => exact takes_creating h htakes hs
  | _ => simp [Stage.Early, hs] at hearly

/-- Saving a row that finishes the lesson. -/
theorem sound_finish {progress saved : LessonProgress} (h : Sound c committed s)
    (hholds : .progress s.stage.lesson ∈ s.holds) (henrollment : s.writes .enrollment = none)
    (hview : s.view committed (.progress s.stage.lesson) = some progress) (hbefore : isFinished progress = false)
    (hafter : isFinished saved = true) :
    Sound c committed (s.write (.progress s.stage.lesson) saved (s.stage.to (.bookmarking true))) ∧
      Effect c committed s (s.write (.progress s.stage.lesson) saved (s.stage.to (.bookmarking true))) := by
  have hopen : ¬ Finished (s.view committed) s.stage.lesson := by simp [Finished, hview, hbefore]
  refine ⟨⟨h.writes.write_progress fun _ => hafter, fun _ => ⟨?_, ?_, ?_⟩, henrollment⟩, ?_⟩
  · exact List.mem_cons_self
  · exact mt (h.writes.keepsFinished s.stage.lesson) hopen
  · exact finished_write_progress.mpr (by simpa [Session.write, Flight.to] using hafter)
  · refine Effect.finishes ?_ hopen hholds rfl
    intro lesson hfinished
    rw [finished_write_progress]
    split
    · exact hafter
    · exact hfinished

/-- Saving a row that is as finished as it was. -/
theorem sound_save {progress saved : LessonProgress} (h : Sound c committed s) (henrollment : s.writes .enrollment = none)
    (hview : s.view committed (.progress s.stage.lesson) = some progress)
    (hundecided : ¬ s.stage.stage.Undecided) (hsame : isFinished saved = isFinished progress) :
    Sound c committed (s.write (.progress s.stage.lesson) saved (s.stage.to (.bookmarking false))) ∧
      Effect c committed s (s.write (.progress s.stage.lesson) saved (s.stage.to (.bookmarking false))) := by
  have hfinished : Finished (s.view committed) s.stage.lesson ↔ isFinished saved = true := by
    simp [Finished, hview, hsame]
  refine ⟨⟨h.writes.write_progress hfinished.mp, fun hfalse => ?_, henrollment⟩, ?_⟩
  · cases hfalse
  · apply Effect.nothing
    · intro lesson
      rw [finished_write_progress]
      split
      · rename_i hlesson
        rw [hlesson, hfinished]
      · exact Iff.rfl
    · exact completed_write_progress
    · exact iff_of_false (by simp [Session.write, Flight.to, Stage.Undecided]) hundecided

theorem takes_saving {duration : Option Int} {progress : LessonProgress} (h : Sound c committed s)
    (htakes : c.learning.Takes moment committed s s') (hs : s.stage.stage = .saving duration progress) :
    Sound c committed s' ∧ Effect c committed s s' := by
  have hstage := h.stage
  simp only [StageSound, hs] at hstage
  obtain ⟨hholds, hview, -, henrollment⟩ := hstage
  have hundecided : ¬ s.stage.stage.Undecided := by simp [hs, Stage.Undecided]
  simp only [Program.Takes, Course.learning, Course.send, hs] at htakes
  cases hheartbeat : s.stage.heartbeat with
  | some heartbeat =>
    simp only [hheartbeat] at htakes
    split_ifs at htakes
    · cases hfinished : progress.finishedBy c.settings heartbeat duration with
      | true =>
        rw [hfinished] at htakes
        subst htakes
        apply sound_finish h hholds henrollment hview
        · simp only [LessonProgress.finishedBy, Bool.and_eq_true, Option.isNone_iff_eq_none] at hfinished
          simp [isFinished, hfinished.1]
        · simp [isFinished, LessonProgress.fold, hfinished]
      | false =>
        rw [hfinished] at htakes
        subst htakes
        apply sound_save h henrollment hview hundecided
        simp [isFinished, LessonProgress.fold, hfinished]
    · exact htakes.elim
  | none =>
    simp only [hheartbeat] at htakes
    split_ifs at htakes with hopen
    · subst htakes
      apply sound_finish h hholds henrollment hview
      · simpa [isFinished] using hopen
      · rfl
    · subst htakes
      refine sound_select h ⟨fun hfalse => ?_, henrollment⟩ ?_
      · cases hfalse
      · exact iff_of_false (by simp [Stage.Undecided]) hundecided

theorem Finishing.to (h : Finishing committed s) (stage : Stage) :
    Finishing committed { s with stage := s.stage.to stage } :=
  ⟨h.holds, h.before, h.after⟩

theorem length_le_finishedCount_iff {lessons : List Uuid} {view : Store Row} :
    lessons.length ≤ finishedCount lessons view ↔ ∀ lesson ∈ lessons, Finished view lesson := by
  unfold finishedCount Finished
  rw [← List.length_filter_eq_length_iff]
  constructor
  · exact fun h => Nat.le_antisymm (List.length_filter_le _ _) h
  · exact fun h => Nat.le_of_eq h.symm

/-- The enrolment as the call finds it, while it has not written one. -/
theorem exists_enrollment (henrolled : (committed .enrollment).isSome = true) (hwrites : s.writes .enrollment = none) :
    ∃ enrollment, s.view committed .enrollment = some enrollment ∧
      (isCompleted enrollment = true ↔ Completed committed) := by
  obtain ⟨enrollment, he⟩ := Option.isSome_iff_exists.mp henrolled
  refine ⟨enrollment, ?_, ?_⟩
  · rw [Session.view, hwrites, Option.none_or, he]
  · rw [Completed, he, Option.any_some]

theorem takes_bookmarking {justFinished : Bool} (henrolled : (committed .enrollment).isSome = true)
    (h : Sound c committed s) (htakes : c.learning.Takes moment committed s s')
    (hs : s.stage.stage = .bookmarking justFinished) : Sound c committed s' ∧ Effect c committed s s' := by
  have hstage := h.stage
  simp only [StageSound, hs] at hstage
  obtain ⟨hfinishing, hwrites⟩ := hstage
  obtain ⟨enrollment, hview, hcompleted⟩ := exists_enrollment henrolled hwrites
  simp only [Program.Takes, Course.learning, Course.send, hs, hview] at htakes
  -- what the copy says decides whether the call goes on to count
  have hmoves : Sound c committed { s with stage := s.stage.to (.moving justFinished enrollment) } :=
    ⟨h.writes.congr rfl rfl, fun hjust => (hfinishing hjust).to _, hwrites, hcompleted.mp,
      fun _ hopen hdone => by simp [hcompleted.mpr hdone] at hopen⟩
  cases hjust : justFinished with
  | false =>
    subst hjust
    split_ifs at htakes
    · subst htakes
      exact sound_select h trivial (by simp [hs, afterBookmark, Stage.Undecided])
    · subst htakes
      exact ⟨hmoves, effect_same rfl (by simp [hs, Flight.to, Stage.Undecided])⟩
  | true =>
    subst hjust
    cases hopen : isCompleted enrollment with
    | true =>
      have hanswered : Completed committed := hcompleted.mp hopen
      split_ifs at htakes
      · subst htakes
        simp only [afterBookmark, hopen]
        exact ⟨⟨h.writes.congr rfl rfl, trivial⟩, .answered rfl hanswered⟩
      · subst htakes
        exact ⟨hmoves, .answered rfl hanswered⟩
    | false =>
      have hnot : ¬ Completed committed := by
        intro hdone
        simp [hcompleted.mpr hdone] at hopen
      split_ifs at htakes
      · subst htakes
        simp only [afterBookmark, hopen]
        exact sound_select h ⟨(hfinishing rfl).to .counting, hnot⟩ (by simp [hs, Stage.Undecided])
      · subst htakes
        exact ⟨hmoves, effect_same rfl (by simp [hs, hopen, Flight.to, Stage.Undecided])⟩

theorem takes_moving {justFinished : Bool} {enrollment : Enrollment}
    (henrolled : (committed .enrollment).isSome = true) (h : Sound c committed s)
    (htakes : c.learning.Takes moment committed s s') (hs : s.stage.stage = .moving justFinished enrollment) :
    Sound c committed s' ∧ Effect c committed s s' := by
  have hstage := h.stage
  simp only [StageSound, hs] at hstage
  obtain ⟨hfinishing, hwrites, -, hopen⟩ := hstage
  obtain ⟨current, hview, hcompleted⟩ := exists_enrollment henrolled hwrites
  simp only [Program.Takes, Course.learning, Course.send, hs, hview] at htakes
  subst htakes
  have hsame : Completed (s.view committed) ↔ isCompleted current = true := by rw [Completed, hview, Option.any_some]
  refine ⟨⟨h.writes.write_enrollment hsame.mp fun hdone => .inl (hsame.mpr hdone), ?_⟩, ?_⟩
  · cases justFinished with
    | false => trivial
    | true =>
      cases hcopy : isCompleted enrollment with
      | true => simp [StageSound, afterBookmark, hcopy, Session.write, Flight.to]
      | false =>
        obtain ⟨hholds, hbefore, hafter⟩ := hfinishing rfl
        simp only [StageSound, afterBookmark, hcopy, Session.write, Flight.to]
        exact ⟨⟨List.mem_cons_of_mem _ hholds, hbefore, finished_write_enrollment.mpr hafter⟩, hopen rfl hcopy⟩
  · apply Effect.nothing
    · exact fun lesson => finished_write_enrollment
    · rw [completed_write_enrollment, hsame]
      rfl
    · cases justFinished <;> cases hcopy : isCompleted enrollment <;>
        simp [hs, hcopy, afterBookmark, Session.write, Flight.to, Stage.Undecided]

theorem takes_counting (hlessons : c.lessons ≠ []) (h : Sound c committed s)
    (htakes : c.learning.Takes moment committed s s') (hs : s.stage.stage = .counting) :
    Sound c committed s' ∧ Effect c committed s s' := by
  have hstage := h.stage
  simp only [StageSound, hs] at hstage
  simp only [Program.Takes, Course.learning, Course.send, hs] at htakes
  rw [if_neg (by simpa using hlessons)] at htakes
  subst htakes
  exact sound_select h ⟨hstage.1.to _, hstage.2, rfl⟩ (by simp [hs, Stage.Undecided])

theorem takes_countingFinished {total : Nat} (h : Sound c committed s)
    (htakes : c.learning.Takes moment committed s s') (hs : s.stage.stage = .countingFinished total) :
    Sound c committed s' ∧ Effect c committed s s' := by
  have hstage := h.stage
  simp only [StageSound, hs] at hstage
  obtain ⟨hfinishing, hopen, htotal⟩ := hstage
  simp only [Program.Takes, Course.learning, Course.send, hs, htotal, length_le_finishedCount_iff] at htakes
  split_ifs at htakes with hall
  · subst htakes
    exact sound_select h ⟨hfinishing.to .completing, hopen, hall⟩ (by simp [hs, Stage.Undecided])
  · subst htakes
    refine ⟨⟨h.writes.congr rfl rfl, trivial⟩, .countsInVain total hs rfl hall ?_⟩
    simp [Flight.to, Stage.Undecided]

theorem takes_completing (henrolled : (committed .enrollment).isSome = true) (h : Sound c committed s)
    (htakes : c.learning.Takes moment committed s s') (hs : s.stage.stage = .completing) :
    Sound c committed s' ∧ Effect c committed s s' := by
  have hstage := h.stage
  simp only [StageSound, hs] at hstage
  obtain ⟨-, -, hall⟩ := hstage
  have hsome : (s.view committed .enrollment).isSome = true := by
    simp [Session.view, henrolled]
  obtain ⟨current, hview⟩ := Option.isSome_iff_exists.mp hsome
  simp only [Program.Takes, Course.learning, Course.send, hs, hview] at htakes
  subst htakes
  refine ⟨⟨h.writes.write_enrollment (fun _ => rfl) fun _ => .inr hall, trivial⟩, ?_⟩
  refine .completes (fun lesson => finished_write_enrollment) (by simp [hs, Stage.Undecided]) ?_
  exact completed_write_enrollment.mpr rfl

/-- Every statement keeps the call's assertion and has one of the effects. -/
theorem takes_sound (hlessons : c.lessons ≠ []) (henrolled : (committed .enrollment).isSome = true)
    (h : Sound c committed s) (htakes : c.learning.Takes moment committed s s') :
    Sound c committed s' ∧ Effect c committed s s' := by
  cases hs : s.stage.stage with
  | resolving | measuring | getting duration | creating duration =>
    exact takes_early h htakes (by simp [hs, Stage.Early])
  | saving duration progress => exact takes_saving h htakes hs
  | bookmarking justFinished => exact takes_bookmarking henrolled h htakes hs
  | enrolling justFinished => simpa only [StageSound, hs] using h.stage
  | moving justFinished enrollment => exact takes_moving henrolled h htakes hs
  | counting => exact takes_counting hlessons h htakes hs
  | countingFinished total => exact takes_countingFinished h htakes hs
  | completing => exact takes_completing henrolled h htakes hs
  | leaving => simp [Program.Takes, Course.learning, Course.send, hs] at htakes

end Statements

/-! ### The commits of other calls -/

def Enrolled (committed : Store Row) (_ : List Empty) : Prop := (committed .enrollment).isSome = true

theorem sound_begin {request : Uuid × Option Heartbeat} {flight : Flight}
    (h : c.learning.start request = some flight) : Sound c committed (.begin flight) := by
  obtain ⟨lesson, heartbeat⟩ := request
  simp only [Course.learning] at h
  split_ifs at h with hlesson
  cases h
  refine ⟨⟨hlesson, fun _ _ => rfl, ?_, ?_, ?_⟩, rfl, rfl⟩
  · intro lesson hfinished
    rwa [view_begin]
  · intro hcompleted
    rwa [view_begin]
  · intro hcompleted
    exact .inl (by rwa [view_begin] at hcompleted)

/-- A call that is not affected by a commit where it holds the row sees what it saw, and elsewhere what was committed. -/
theorem Finishing.stable (h : Finishing committed t)
    (hheld : ∀ k ∈ t.holds, s.view committed k = committed k) : Finishing (s.view committed) t := by
  have hrow := hheld _ h.holds
  refine ⟨h.holds, ?_, ?_⟩
  · rw [Finished, hrow]
    exact h.before
  · have hafter := h.after
    unfold Finished Session.view at hafter ⊢
    cases hwrites : t.writes (.progress t.stage.lesson) with
    | some progress => simpa [hwrites] using hafter
    | none =>
      rw [hwrites, Option.none_or] at hafter
      exact absurd hafter h.before

/-- Another call can complete the course only on seeing this call's lesson finished, which it cannot. -/
theorem not_completed_stable (hs : WritesSound c committed s) (ht : WritesSound c committed t)
    (hfinishing : Finishing committed t) (hopen : ¬ Completed committed)
    (hheld : ∀ k ∈ t.holds, s.view committed k = committed k) : ¬ Completed (s.view committed) := by
  intro hcompleted
  rcases hs.sees hcompleted with hdone | hall
  · exact hopen hdone
  · apply hfinishing.before
    have hlesson := hall t.stage.lesson ht.lesson
    rwa [Finished, hheld _ hfinishing.holds] at hlesson

/-- What a call saw finished it still sees finished. -/
theorem finished_stable (hs : WritesSound c committed s) {lesson : Uuid} (h : Finished (t.view committed) lesson) :
    Finished (t.view (s.view committed)) lesson := by
  rw [Finished, view_view]
  split
  · rename_i hnone
    apply hs.keepsFinished
    rwa [Finished, Session.view, hnone, Option.none_or] at h
  · exact h

theorem WritesSound.stable (hs : WritesSound c committed s) (ht : WritesSound c committed t)
    (hwritten : ∀ k, t.writes k ≠ none → s.view committed k = committed k) :
    WritesSound c (s.view committed) t := by
  constructor
  · exact ht.lesson
  · exact ht.others
  · intro lesson hfinished
    rw [Finished, view_view]
    split
    · exact hfinished
    · rename_i hsome
      apply ht.keepsFinished
      rwa [Finished, hwritten _ hsome] at hfinished
  · intro hcompleted
    rw [Completed, view_view]
    split
    · exact hcompleted
    · rename_i hsome
      apply ht.keepsCompleted
      rwa [Completed, hwritten _ hsome] at hcompleted
  · intro hcompleted
    rw [Completed, view_view] at hcompleted
    split at hcompleted
    · exact .inl hcompleted
    · rename_i hsome
      rcases ht.sees hcompleted with hdone | hall
      · exact .inl (hs.keepsCompleted hdone)
      · exact .inr fun lesson hmem => finished_stable hs (hall lesson hmem)

theorem stageSound_stable (hs : Sound c committed s) (ht : Sound c committed t)
    (hheld : ∀ k ∈ t.holds, s.view committed k = committed k) : StageSound c (s.view committed) t := by
  have hstage := ht.stage
  unfold StageSound at hstage ⊢
  cases hcase : t.stage.stage with
  | resolving | measuring | getting _ | creating _ => simpa only [hcase] using hstage
  | saving duration progress =>
    simp only [hcase] at hstage ⊢
    obtain ⟨hholds, hview, hfinished, hwrites⟩ := hstage
    refine ⟨hholds, ?_, fun h => hs.writes.keepsFinished _ (hfinished h), hwrites⟩
    rw [view_view]
    split
    · rename_i hnone
      rw [hheld _ hholds]
      rwa [Session.view, hnone, Option.none_or] at hview
    · exact hview
  | bookmarking justFinished =>
    simp only [hcase] at hstage ⊢
    exact ⟨fun hjust => (hstage.1 hjust).stable hheld, hstage.2⟩
  | enrolling justFinished => simp only [hcase] at hstage
  | moving justFinished enrollment =>
    simp only [hcase] at hstage ⊢
    obtain ⟨hfinishing, hwrites, hcopy, hopen⟩ := hstage
    refine ⟨fun hjust => (hfinishing hjust).stable hheld, hwrites, fun h => hs.writes.keepsCompleted (hcopy h), ?_⟩
    intro hjust hnot
    exact not_completed_stable hs.writes ht.writes (hfinishing hjust) (hopen hjust hnot) hheld
  | counting =>
    simp only [hcase] at hstage ⊢
    obtain ⟨hfinishing, hopen⟩ := hstage
    exact ⟨hfinishing.stable hheld, not_completed_stable hs.writes ht.writes hfinishing hopen hheld⟩
  | countingFinished total =>
    simp only [hcase] at hstage ⊢
    obtain ⟨hfinishing, hopen, htotal⟩ := hstage
    exact ⟨hfinishing.stable hheld, not_completed_stable hs.writes ht.writes hfinishing hopen hheld, htotal⟩
  | completing =>
    simp only [hcase] at hstage ⊢
    obtain ⟨hfinishing, hopen, hall⟩ := hstage
    exact ⟨hfinishing.stable hheld, not_completed_stable hs.writes ht.writes hfinishing hopen hheld,
      fun lesson hmem => finished_stable hs.writes (hall lesson hmem)⟩
  | leaving => trivial

theorem learning_maintains (hlessons : c.lessons ≠ []) : c.learning.Maintains Enrolled (Sound c) where
  begins _ hstart := sound_begin hstart
  takes henrolled hs htakes := (takes_sound hlessons henrolled hs htakes).1
  commits henrolled _ _ := by
    rw [Enrolled] at henrolled
    simp [Enrolled, Session.view, henrolled]
  stable _ hs ht _ hwritten hheld :=
    ⟨hs.writes.stable ht.writes fun k hk => hheld k (hwritten k hk), stageSound_stable hs ht hheld⟩

end EPlatform.Learning
