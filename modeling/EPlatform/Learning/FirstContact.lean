import EPlatform.Learning.Enrolling

/-!
# First contact

What the calls of a learner who is not enrolled yet leave together: one enrolment, and for every lesson what the call on
it makes of its row. A call that is rolled back leaves neither.
-/

namespace EPlatform.Learning

open Runs ReadCommitted Entitlements

section Reflects

variable (c : Course) (M : Moment → Prop) (before : Store Row)

/-- The row a call starts from: the one that was there, or a new one. -/
def Course.StartsFrom (lesson : Uuid) (progress : LessonProgress) : Prop :=
  match before (.progress lesson) with
  | some row => progress = row
  | none => ∃ moment, M moment ∧ progress = .new c.user lesson moment.now

/-- What a heartbeat, or a mark, makes of it. -/
def Course.Makes (heartbeat : Option Heartbeat) (progress saved : LessonProgress) : Prop :=
  match heartbeat with
  | some heartbeat => ∃ measured moment, M measured ∧ M moment ∧
      saved = progress.fold c.settings heartbeat (lessonDuration measured.asset) moment.now
  | none =>
    if progress.completedAt.isNone then ∃ moment, M moment ∧ saved = progress.mark moment.now else saved = progress

/-- The row of the call's lesson is what its own heartbeat or mark makes of the row it starts from. -/
def Course.Reflects (call : Uuid × Option Heartbeat) (view : Store Row) : Prop :=
  ∃ progress saved, c.StartsFrom M before call.1 progress ∧ c.Makes M call.2 progress saved ∧
    view (.progress call.1) = some saved

/-- Nothing is rolled back, and once calls have ended there is an enrolment and every call's progress. -/
structure Course.EnrolsOnce (run : List (Turn (Uuid × Option Heartbeat) Moment)) : Prop where
  commits : Along c.learning.step (fun w turn => ¬ c.learning.RollsBack w turn) (Server.idle before []) run
  enrolls : ∀ call ∈ c.learning.begun run,
    c.HasEnrollment (final c.learning.step (Server.idle before []) run).committed
  reflects : ∀ call ∈ c.learning.begun run,
    c.Reflects (fun moment => ∃ i, .step i moment ∈ run) before call
      (final c.learning.step (Server.idle before []) run).committed

end Reflects

/-! ### What each call leaves -/

section Recorded

variable {c : Course} {committed : Store Row} {s s' t : Session Row Flight Empty} {moment : Moment} {M : Moment → Prop}
  {before : Store Row}

def Flight.call (flight : Flight) : Uuid × Option Heartbeat := (flight.lesson, flight.heartbeat)

variable (M) in
/-- The duration a heartbeat is measured against was read at some moment. -/
def Measured (heartbeat : Option Heartbeat) (duration : Option Int) : Prop :=
  heartbeat.isSome → ∃ moment, M moment ∧ duration = lessonDuration moment.asset

variable (before) in
/-- It has written nothing, and the row of its lesson is as it was. -/
structure Untouched (committed : Store Row) (s : Session Row Flight Empty) : Prop where
  unwritten : s.Unwritten
  committed : committed (.progress s.stage.lesson) = before (.progress s.stage.lesson)

variable (c M before) in
/-- What a call in flight has made of its lesson's row. -/
def Course.StageRecorded (committed : Store Row) (s : Session Row Flight Empty) : Prop :=
  match s.stage.stage with
  | .resolving | .measuring => Untouched before committed s
  | .getting duration | .creating duration => Untouched before committed s ∧ Measured M s.stage.heartbeat duration
  | .saving duration progress =>
    c.StartsFrom M before s.stage.lesson progress ∧ s.view committed (.progress s.stage.lesson) = some progress ∧
      Measured M s.stage.heartbeat duration
  | _ => c.Reflects M before s.stage.call (s.view committed)

variable (c M before) in
structure Course.Recorded (committed : Store Row) (s : Session Row Flight Empty) : Prop where
  others : ∀ lesson, lesson ≠ s.stage.lesson → s.writes (.progress lesson) = none
  stage : c.StageRecorded M before committed s

theorem reflects_congr {call : Uuid × Option Heartbeat} {view view' : Store Row}
    (h : view' (.progress call.1) = view (.progress call.1)) :
    c.Reflects M before call view' ↔ c.Reflects M before call view := by
  rw [Course.Reflects, Course.Reflects, h]

/-- Only the committed row of its lesson matters to a call. -/
theorem stageRecorded_congr {committed' : Store Row}
    (h : committed' (.progress s.stage.lesson) = committed (.progress s.stage.lesson))
    (hs : c.StageRecorded M before committed s) : c.StageRecorded M before committed' s := by
  have hview : s.view committed' (.progress s.stage.lesson) = s.view committed (.progress s.stage.lesson) := by
    rw [Session.view, h, Session.view]
  have huntouched : Untouched before committed s → Untouched before committed' s := by
    intro huntouched
    exact ⟨huntouched.unwritten, h.trans huntouched.committed⟩
  have hreflects : c.Reflects M before s.stage.call (s.view committed) → c.Reflects M before s.stage.call (s.view committed') :=
    (reflects_congr hview).mpr
  unfold Course.StageRecorded at hs ⊢
  cases hstage : s.stage.stage <;> simp only [hstage] at hs ⊢
  case resolving | measuring => exact huntouched hs
  case getting | creating => exact ⟨huntouched hs.1, hs.2⟩
  case saving => exact ⟨hs.1, hview.trans hs.2.1, hs.2.2⟩
  all_goals exact hreflects hs

theorem stageRecorded_of_saved (hstage : s.stage.stage.Saved) :
    c.StageRecorded M before committed s ↔ c.Reflects M before s.stage.call (s.view committed) := by
  unfold Course.StageRecorded
  cases hs : s.stage.stage <;> simp_all [Stage.Saved]

theorem Untouched.to {stage : Stage} (h : Untouched before committed s) :
    Untouched before committed { s with stage := s.stage.to stage } :=
  ⟨⟨h.unwritten.writes, h.unwritten.entries⟩, h.committed⟩

theorem takes_getting_recorded {duration : Option Int} (h : c.Recorded M before committed s)
    (htakes : c.learning.Takes moment committed s s') (hs : s.stage.stage = .getting duration) :
    c.Recorded M before committed s' ∧ s'.stage.call = s.stage.call := by
  obtain ⟨hothers, hstage⟩ := h
  simp only [Course.StageRecorded, hs] at hstage
  obtain ⟨huntouched, hmeasured⟩ := hstage
  simp only [Program.Takes, Course.learning, Course.send, hs] at htakes
  cases hview : s.view committed (.progress s.stage.lesson) with
  | none =>
    simp only [hview] at htakes
    subst htakes
    exact ⟨⟨hothers, huntouched.to, hmeasured⟩, rfl⟩
  | some progress =>
    simp only [hview] at htakes
    subst htakes
    refine ⟨⟨hothers, ?_, hview, hmeasured⟩, rfl⟩
    rw [huntouched.unwritten.view, huntouched.committed] at hview
    rw [Course.StartsFrom]
    simp [Flight.to, hview]

theorem takes_creating_recorded {duration : Option Int} (hmoment : M moment) (h : c.Recorded M before committed s)
    (htakes : c.learning.Takes moment committed s s') (hs : s.stage.stage = .creating duration) :
    c.Recorded M before committed s' ∧ s'.stage.call = s.stage.call := by
  obtain ⟨hothers, hstage⟩ := h
  simp only [Course.StageRecorded, hs] at hstage
  obtain ⟨huntouched, hmeasured⟩ := hstage
  simp only [Program.Takes, Course.learning, Course.send, hs] at htakes
  cases hview : s.view committed (.progress s.stage.lesson) with
  | some progress =>
    simp only [hview] at htakes
    subst htakes
    exact ⟨⟨hothers, huntouched.to, hmeasured⟩, rfl⟩
  | none =>
    simp only [hview] at htakes
    subst htakes
    refine ⟨⟨fun lesson hlesson => ?_, ?_, view_write_self .., hmeasured⟩, rfl⟩
    · have hne : lesson ≠ s.stage.lesson := hlesson
      rw [writes_write_of_ne (by simpa using hne)]
      exact hothers lesson hne
    · rw [huntouched.unwritten.view, huntouched.committed] at hview
      rw [Course.StartsFrom]
      simp only [Session.write, Flight.to, hview]
      exact ⟨moment, hmoment, rfl⟩

theorem takes_saving_recorded {duration : Option Int} {progress : LessonProgress} (hmoment : M moment)
    (h : c.Recorded M before committed s) (htakes : c.learning.Takes moment committed s s')
    (hs : s.stage.stage = .saving duration progress) :
    c.Recorded M before committed s' ∧ s'.stage.call = s.stage.call := by
  obtain ⟨hothers, hstage⟩ := h
  simp only [Course.StageRecorded, hs] at hstage
  obtain ⟨hstarts, hview, hmeasured⟩ := hstage
  have hwrites : ∀ (saved : LessonProgress) next, next.lesson = s.stage.lesson → ∀ lesson, lesson ≠ next.lesson →
      (s.write (.progress s.stage.lesson) saved next).writes (.progress lesson) = none := by
    intro saved next hnext lesson hlesson
    rw [hnext] at hlesson
    rw [writes_write_of_ne (by simpa using hlesson)]
    exact hothers lesson hlesson
  simp only [Program.Takes, Course.learning, Course.send, hs] at htakes
  cases hheartbeat : s.stage.heartbeat with
  | some heartbeat =>
    simp only [hheartbeat] at htakes
    split_ifs at htakes
    · subst htakes
      obtain ⟨measured, hM, rfl⟩ := hmeasured (by simp [hheartbeat])
      refine ⟨⟨hwrites _ _ rfl, progress, _, hstarts, ?_, view_write_self ..⟩, rfl⟩
      simp only [Flight.call, Session.write, Flight.to, hheartbeat]
      exact ⟨measured, moment, hM, hmoment, rfl⟩
    · exact htakes.elim
  | none =>
    simp only [hheartbeat] at htakes
    split_ifs at htakes with hopen
    · subst htakes
      refine ⟨⟨hwrites _ _ rfl, progress, _, hstarts, ?_, view_write_self ..⟩, rfl⟩
      simp only [Flight.call, Session.write, Flight.to, hheartbeat, Course.Makes, if_pos hopen]
      exact ⟨moment, hmoment, rfl⟩
    · subst htakes
      refine ⟨⟨hothers, progress, progress, hstarts, ?_, hview⟩, rfl⟩
      simp only [Flight.call, Flight.to, hheartbeat, Course.Makes, if_neg hopen]

/-- What a call does after its row is saved. -/
structure Leaves (s s' : Session Row Flight Empty) : Prop where
  saved : s'.stage.stage.Saved
  call : s'.stage.call = s.stage.call
  writes : ∀ lesson, s'.writes (.progress lesson) = s.writes (.progress lesson)

theorem leaves_select {stage : Stage} (h : stage.Saved) : Leaves s { s with stage := s.stage.to stage } := ⟨h, rfl, fun _ => rfl⟩

theorem leaves_write {stage : Stage} {enrollment : Enrollment} (h : stage.Saved) :
    Leaves s (s.write .enrollment enrollment (s.stage.to stage)) :=
  ⟨h, rfl, fun _ => writes_write_of_ne (by simp)⟩

theorem takes_leaves (htakes : c.learning.Takes moment committed s s') (hs : s.stage.stage.Saved) : Leaves s s' := by
  cases lateStep_of_takes htakes hs with
  | misses stage _ hafter _ heq => exact heq ▸ leaves_select hafter
  | finds enrollment stage _ hafter _ heq => exact heq ▸ leaves_select hafter.saved
  | reads stage _ hafter heq => exact heq ▸ leaves_select hafter.saved
  | inserts enrollment stage hafter _ heq => exact heq ▸ leaves_write hafter.saved
  | updates enrollment current stage _ hafter _ heq _ => exact heq ▸ leaves_write hafter.saved

theorem recorded_of_leaves (h : c.Recorded M before committed s) (hs : s.stage.stage.Saved) (hleaves : Leaves s s') :
    c.Recorded M before committed s' := by
  have hlesson : s'.stage.lesson = s.stage.lesson := congrArg Prod.fst hleaves.call
  refine ⟨fun lesson hother => ?_, (stageRecorded_of_saved hleaves.saved).mpr ?_⟩
  · rw [hleaves.writes]
    exact h.others lesson (hlesson ▸ hother)
  · have hview : s'.view committed (.progress s.stage.call.1) = s.view committed (.progress s.stage.call.1) := by
      rw [Session.view, hleaves.writes, Session.view]
    rw [hleaves.call, reflects_congr hview]
    exact (stageRecorded_of_saved hs).mp h.stage

theorem takes_recorded (hmoment : M moment) (h : c.Recorded M before committed s)
    (htakes : c.learning.Takes moment committed s s') :
    c.Recorded M before committed s' ∧ s'.stage.call = s.stage.call := by
  have hstage := h.stage
  cases hs : s.stage.stage with
  | resolving =>
    simp only [Course.StageRecorded, hs] at hstage
    simp only [Program.Takes, Course.learning, Course.send, hs] at htakes
    split_ifs at htakes with _ hheartbeat
    · subst htakes
      exact ⟨⟨h.others, hstage.to⟩, rfl⟩
    · subst htakes
      exact ⟨⟨h.others, hstage.to, fun hsome => absurd hsome hheartbeat⟩, rfl⟩
    · exact htakes.elim
  | measuring =>
    simp only [Course.StageRecorded, hs] at hstage
    simp only [Program.Takes, Course.learning, Course.send, hs] at htakes
    subst htakes
    exact ⟨⟨h.others, hstage.to, fun _ => ⟨moment, hmoment, rfl⟩⟩, rfl⟩
  | getting duration => exact takes_getting_recorded h htakes hs
  | creating duration => exact takes_creating_recorded hmoment h htakes hs
  | saving duration progress => exact takes_saving_recorded hmoment h htakes hs
  | _ =>
    have hsaved : s.stage.stage.Saved := by simp [hs, Stage.Saved]
    have hleaves := takes_leaves htakes hsaved
    exact ⟨recorded_of_leaves h hsaved hleaves, hleaves.call⟩

/-! ### All of them -/

variable (c before) in
/-- A call that has not begun finds its lesson's row as it was. -/
structure Course.Awaited (call : Uuid × Option Heartbeat) (committed : Store Row) : Prop where
  own : c.OwnEnrollment committed []
  row : committed (.progress call.1) = before (.progress call.1)

variable (c M before) in
structure Course.Underway (call : Uuid × Option Heartbeat) (committed : Store Row) (s : Session Row Flight Empty) : Prop where
  call : s.stage.call = call
  own : c.OwnEnrollment committed []
  enrolled : c.StageEnrolled committed s
  recorded : c.Recorded M before committed s

variable (c M before) in
structure Course.Delivered (call : Uuid × Option Heartbeat) (committed : Store Row) : Prop where
  enrolled : c.HasEnrollment committed
  reflects : c.Reflects M before call committed

/-- The commit of another call leaves a lesson's row. -/
theorem view_other {call call' : Uuid × Option Heartbeat} (hne : call'.1 ≠ call.1)
    (h : c.Underway M before call' committed s) : s.view committed (.progress call.1) = committed (.progress call.1) := by
  have hlesson : s.stage.lesson = call'.1 := congrArg Prod.fst h.call
  rw [Session.view, h.recorded.others call.1 (hlesson ▸ Ne.symm hne), Option.none_or]

theorem ownEnrollment_commit {call : Uuid × Option Heartbeat} (h : c.Underway M before call committed s)
    (hcommit : c.learning.statement moment s.stage (s.view committed) = .commit) :
    c.OwnEnrollment (s.view committed) [] :=
  (learning_enrolled c).commits h.own h.enrolled hcommit

theorem learning_delivers (c : Course) (M : Moment → Prop) (before : Store Row) :
    c.learning.Delivers M Prod.fst (c.Awaited before) (c.Underway M before) (c.Delivered M before) where
  begins := by
    intro call flight committed hstart h
    rw [start_eq hstart]
    exact ⟨rfl, h.own, stageEnrolled_of_unwritten rfl (by simp [Session.begin, Stage.Bookmarked]), fun _ _ => rfl,
      unwritten_begin _, h.row⟩
  takes := by
    intro call moment committed s s' hmoment h htakes
    obtain ⟨hrecorded, hcall⟩ := takes_recorded hmoment h.recorded htakes
    exact ⟨hcall.trans h.call, h.own, takes_enrolled h.own h.enrolled htakes, hrecorded⟩
  commits := by
    intro call moment committed s h hcommit
    have hsaved : s.stage.stage.Saved := by simp [commit_leaving hcommit, Stage.Saved]
    refine ⟨hasEnrollment_of_commit h.enrolled hcommit, ?_⟩
    rw [← h.call]
    exact (stageRecorded_of_saved hsaved).mp h.recorded.stage
  fresh := by
    intro call call' moment committed s hne h hcommit hawaited
    exact ⟨ownEnrollment_commit h hcommit, (view_other hne h).trans hawaited.row⟩
  flying := by
    intro call call' moment committed s t hne h hcommit ht
    have hlesson : t.stage.lesson = call.1 := congrArg Prod.fst ht.call
    have hrow : s.view committed (.progress t.stage.lesson) = committed (.progress t.stage.lesson) := by
      rw [hlesson]
      exact view_other hne h
    exact ⟨ht.call, ownEnrollment_commit h hcommit, stageEnrolled_commit h.enrolled hcommit ht.enrolled,
      ht.recorded.others, stageRecorded_congr hrow ht.recorded.stage⟩
  ended := by
    intro call call' moment committed s hne h hcommit hended
    exact ⟨hasEnrollment_of_commit h.enrolled hcommit, (reflects_congr (view_other hne h)).mpr hended.reflects⟩

/-- From no enrolment on, calls on different lessons all commit, enrol the learner once and lose nothing, exactly if each is
allowed, its row fits, and none commits while another has read that there is no enrolment and has not inserted one. -/
theorem enrolsOnce_iff (c : Course) {before : Store Row} (hnew : before .enrollment = none)
    (run : List (Turn (Uuid × Option Heartbeat) Moment)) (hlessons : ((c.learning.begun run).map Prod.fst).Nodup)
    (hquiet : (final c.learning.step (Server.idle before []) run).Quiet) :
    c.EnrolsOnce before run ↔ Along c.learning.step c.Proceeds (Server.idle before []) run := by
  constructor
  · intro h
    exact along_proceeds (contact_idle hnew).satisfies h.commits hquiet
  · intro h
    have hcommits := along_of_along (fun _ _ hw hproceeds => contact_step hw hproceeds)
      (fun _ _ hw hproceeds => not_rollsBack hw hproceeds) (contact_idle hnew) h
    have hawaited : ∀ call ∈ c.learning.begun run, c.Awaited before call before :=
      fun call _ => ⟨(contact_idle hnew).satisfies.committed, rfl⟩
    have hdelivered := (learning_delivers c (fun moment => ∃ i, .step i moment ∈ run) before).run
      (fun i moment hmem => ⟨i, hmem⟩) hcommits hlessons (delivering_idle hawaited)
    have hall := hdelivered.of_quiet hquiet
    exact ⟨hcommits, fun call hcall => (hall call hcall).enrolled, fun call hcall => (hall call hcall).reflects⟩

def nothing : Store Row := fun _ => none

/-- One call after the other. -/
theorem enrolsOnce_one_after_the_other :
    twoLessons.EnrolsOnce nothing (.begin (1, none) :: marks 0 9 ++ .begin (2, none) :: marks 1 10) :=
  (enrolsOnce_iff twoLessons rfl (.begin (1, none) :: marks 0 9 ++ .begin (2, none) :: marks 1 10) (by decide)
    (by decide)).mpr (by decide)

/-- Two calls that both find no enrolment: the second is rolled back, and its mark is lost. -/
theorem second_mark_is_lost : ¬ twoLessons.EnrolsOnce nothing
    (.begin (1, none) :: .begin (2, none) :: marks 0 5 ++ marks 1 5 ++ marks 0 4 ++ marks 1 4) := by
  intro h
  obtain ⟨progress, saved, -, -, hsaved⟩ := h.reflects (2, none) (by decide)
  have hlost : (final twoLessons.learning.step (Server.idle nothing [])
    (.begin (1, none) :: .begin (2, none) :: marks 0 5 ++ marks 1 5 ++ marks 0 4 ++ marks 1 4)).committed
      (.progress 2) = none := by decide
  rw [hlost] at hsaved
  cases hsaved

end Recorded

end EPlatform.Learning
