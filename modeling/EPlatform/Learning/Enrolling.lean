import EPlatform.Learning.Completion
import EPlatform.Runs.Delivery

/-!
# Enrolling on first contact

Calls of a learner who is not enrolled yet. Each reads that there is no enrolment before it inserts one, and an insert
that meets the enrolment of another call rolls the call back. All of them commit exactly when none commits between the
reading and the insert of another.
-/

namespace EPlatform.Learning

open Runs ReadCommitted Entitlements

/-- What the learner's enrolment in the course is. -/
def Course.HasEnrollment (c : Course) (view : Store Row) : Prop :=
  ∃ enrollment, view .enrollment = some enrollment ∧ enrollment.key = (c.user, c.pk)

/-- The call has read that there is no enrolment. -/
def Stage.FoundNone : Stage → Prop
  | .enrolling _ => True
  | _ => False

instance : DecidablePred Stage.FoundNone
  | .enrolling _ => inferInstanceAs (Decidable True)
  | .resolving | .measuring | .getting _ | .creating _ | .saving .. | .bookmarking _ | .moving .. | .counting
  | .countingFinished _ | .completing | .leaving => inferInstanceAs (Decidable False)

/-- A call being resolved is allowed, and a row being saved fits its columns. -/
def Course.Accepts (c : Course) (moment : Moment) (flight : Flight) : Prop :=
  match flight.stage with
  | .resolving => moment.decision.allowed = true
  | .saving duration progress =>
    ∀ heartbeat ∈ flight.heartbeat, (progress.fold c.settings heartbeat duration moment.now).Valid
  | _ => True

instance (c : Course) (moment : Moment) : DecidablePred (c.Accepts moment)
  | ⟨_, _, .resolving⟩ => inferInstanceAs (Decidable (_ = true))
  | ⟨_, heartbeat, .saving duration progress⟩ =>
    inferInstanceAs (Decidable (∀ h ∈ heartbeat, (progress.fold c.settings h duration moment.now).Valid))
  | ⟨_, _, .measuring⟩ | ⟨_, _, .getting _⟩ | ⟨_, _, .creating _⟩ | ⟨_, _, .bookmarking _⟩ | ⟨_, _, .enrolling _⟩
  | ⟨_, _, .moving ..⟩ | ⟨_, _, .counting⟩ | ⟨_, _, .countingFinished _⟩ | ⟨_, _, .completing⟩ | ⟨_, _, .leaving⟩ =>
    inferInstanceAs (Decidable True)

/-- No call commits while another has read that there is no enrolment and has not inserted one. -/
def Course.Proceeds (c : Course) (w : Server Row Flight Empty) : Turn (Uuid × Option Heartbeat) Moment → Prop
  | .begin _ => True
  | .step i moment => ∀ s, w.At i s → c.Accepts moment s.stage ∧
    (s.stage.stage = .leaving → ¬ w.Other i fun t => t.stage.stage.FoundNone)

instance (stage : Stage) : Decidable (stage = .leaving) :=
  match stage with
  | .leaving => isTrue rfl
  | .resolving | .measuring | .getting _ | .creating _ | .saving .. | .bookmarking _ | .enrolling _ | .moving ..
  | .counting | .countingFinished _ | .completing => isFalse nofun

instance (c : Course) (w : Server Row Flight Empty) : DecidablePred (c.Proceeds w)
  | .begin _ => inferInstanceAs (Decidable True)
  | .step i moment => inferInstanceAs (Decidable (∀ s, w.At i s → c.Accepts moment s.stage ∧
    (s.stage.stage = .leaving → ¬ w.Other i fun t => t.stage.stage.FoundNone)))

/-! ### The enrolment -/

variable {c : Course} {committed : Store Row} {s s' t : Session Row Flight Empty} {moment : Moment}

/-- The stages after the row is saved. -/
def Stage.Saved : Stage → Prop
  | .resolving | .measuring | .getting _ | .creating _ | .saving .. => False
  | _ => True

/-- The stages after the bookmark is read. -/
def Stage.Bookmarked : Stage → Prop
  | .moving .. | .counting | .countingFinished _ | .completing | .leaving => True
  | _ => False

/-- A call that has read its bookmark sees an enrolment, and one that has not has written none. -/
structure Course.StageEnrolled (c : Course) (committed : Store Row) (s : Session Row Flight Empty) : Prop where
  seen : s.stage.stage.Bookmarked → c.HasEnrollment (s.view committed)
  unwritten : ¬ s.stage.stage.Bookmarked → s.writes .enrollment = none

/-- The committed enrolment, if there is one, is the learner's in the course. -/
def Course.OwnEnrollment (c : Course) (committed : Store Row) (_ : List Empty) : Prop :=
  ∀ enrollment, committed .enrollment = some enrollment → enrollment.key = (c.user, c.pk)

theorem bookmarked_afterBookmark (justFinished : Bool) (enrollment : Enrollment) :
    (afterBookmark justFinished enrollment).Bookmarked := by
  rw [afterBookmark]
  split <;> trivial

theorem stageEnrolled_of_bookmarked (h : c.HasEnrollment (s.view committed)) (hstage : s.stage.stage.Bookmarked) :
    c.StageEnrolled committed s := ⟨fun _ => h, fun hnot => absurd hstage hnot⟩

theorem stageEnrolled_of_unwritten (h : s.writes .enrollment = none) (hstage : ¬ s.stage.stage.Bookmarked) :
    c.StageEnrolled committed s := ⟨fun hbookmarked => absurd hbookmarked hstage, fun _ => h⟩

/-- What one statement does to the enrolment a call sees. -/
inductive Course.EnrolStep (c : Course) (committed : Store Row) (s s' : Session Row Flight Empty) : Prop
  | early (hbefore : ¬ s.stage.stage.Bookmarked) (hafter : ¬ s'.stage.stage.Bookmarked)
    (hwrites : s'.writes .enrollment = s.writes .enrollment)
    (hfound : s'.stage.stage.FoundNone → s.view committed .enrollment = none) : c.EnrolStep committed s s'
  | finds (enrollment : Enrollment) (hbefore : ¬ s.stage.stage.Bookmarked) (hafter : s'.stage.stage.Bookmarked)
    (hwrites : s'.writes .enrollment = s.writes .enrollment)
    (hview : s.view committed .enrollment = some enrollment) : c.EnrolStep committed s s'
  | reads (hbefore : s.stage.stage.Bookmarked) (hafter : s'.stage.stage.Bookmarked)
    (hwrites : s'.writes .enrollment = s.writes .enrollment) : c.EnrolStep committed s s'
  | inserts (enrollment : Enrollment) (hafter : s'.stage.stage.Bookmarked)
    (hwrites : s'.writes .enrollment = some enrollment) (hkey : enrollment.key = (c.user, c.pk)) : c.EnrolStep committed s s'
  | updates (enrollment current : Enrollment) (hbefore : s.stage.stage.Bookmarked) (hafter : s'.stage.stage.Bookmarked)
    (hwrites : s'.writes .enrollment = some enrollment) (hview : s.view committed .enrollment = some current)
    (hkey : enrollment.key = current.key) : c.EnrolStep committed s s'

theorem enrolStep_select {stage : Stage} (hbefore : ¬ s.stage.stage.Bookmarked) (hafter : ¬ stage.Bookmarked)
    (hfound : ¬ stage.FoundNone) : c.EnrolStep committed s { s with stage := s.stage.to stage } :=
  .early hbefore hafter rfl fun h => absurd h hfound

theorem enrolStep_write_progress {stage : Stage} {lesson : Uuid} {progress : LessonProgress}
    (hbefore : ¬ s.stage.stage.Bookmarked) (hafter : ¬ stage.Bookmarked) (hfound : ¬ stage.FoundNone) :
    c.EnrolStep committed s (s.write (.progress lesson) progress (s.stage.to stage)) :=
  .early hbefore hafter (writes_write_of_ne (by simp)) fun h => absurd h hfound

theorem Stage.Bookmarked.saved {stage : Stage} (h : stage.Bookmarked) : stage.Saved := by
  cases stage <;> trivial

/-- A statement after the save reads on, or writes the enrolment. -/
inductive Course.LateStep (c : Course) (committed : Store Row) (s s' : Session Row Flight Empty) : Prop
  | misses (stage : Stage) (hbefore : ¬ s.stage.stage.Bookmarked ∧ ¬ stage.Bookmarked) (hafter : stage.Saved)
    (hview : s.view committed .enrollment = none) (heq : s' = { s with stage := s.stage.to stage }) :
    c.LateStep committed s s'
  | finds (enrollment : Enrollment) (stage : Stage) (hbefore : ¬ s.stage.stage.Bookmarked) (hafter : stage.Bookmarked)
    (hview : s.view committed .enrollment = some enrollment) (heq : s' = { s with stage := s.stage.to stage }) :
    c.LateStep committed s s'
  | reads (stage : Stage) (hbefore : s.stage.stage.Bookmarked) (hafter : stage.Bookmarked)
    (heq : s' = { s with stage := s.stage.to stage }) : c.LateStep committed s s'
  | inserts (enrollment : Enrollment) (stage : Stage) (hafter : stage.Bookmarked) (hkey : enrollment.key = (c.user, c.pk))
    (heq : s' = s.write .enrollment enrollment (s.stage.to stage)) : c.LateStep committed s s'
  | updates (enrollment current : Enrollment) (stage : Stage) (hbefore : s.stage.stage.Bookmarked)
    (hafter : stage.Bookmarked) (hview : s.view committed .enrollment = some current)
    (heq : s' = s.write .enrollment enrollment (s.stage.to stage)) (hkey : enrollment.key = current.key) :
    c.LateStep committed s s'

theorem lateStep_of_takes (htakes : c.learning.Takes moment committed s s') (hsaved : s.stage.stage.Saved) :
    c.LateStep committed s s' := by
  simp only [Program.Takes, Course.learning, Course.send] at htakes
  cases hs : s.stage.stage with
  | bookmarking justFinished =>
    cases hview : s.view committed .enrollment with
    | none =>
      simp only [hs, hview] at htakes
      exact .misses (.enrolling justFinished) ⟨hs ▸ id, id⟩ trivial hview htakes
    | some enrollment =>
      simp only [hs, hview] at htakes
      split_ifs at htakes
      · exact .finds enrollment _ (hs ▸ id) (bookmarked_afterBookmark ..) hview htakes
      · exact .finds enrollment (.moving justFinished enrollment) (hs ▸ id) trivial hview htakes
  | enrolling justFinished =>
    cases hview : s.view committed .enrollment with
    | some enrollment => simp only [hs, hview] at htakes
    | none =>
      simp only [hs, hview] at htakes
      exact .inserts _ _ (bookmarked_afterBookmark ..) rfl htakes
  | moving justFinished enrollment =>
    cases hview : s.view committed .enrollment with
    | none =>
      simp only [hs, hview] at htakes
      exact .reads _ (hs ▸ trivial) (bookmarked_afterBookmark ..) htakes
    | some current =>
      simp only [hs, hview] at htakes
      exact .updates _ current _ (hs ▸ trivial) (bookmarked_afterBookmark ..) hview htakes rfl
  | counting =>
    simp only [hs] at htakes
    exact .reads _ (hs ▸ trivial) (by split <;> trivial) htakes
  | countingFinished total =>
    simp only [hs] at htakes
    exact .reads _ (hs ▸ trivial) (by split <;> trivial) htakes
  | completing =>
    cases hview : s.view committed .enrollment with
    | none => simp only [hs, hview] at htakes
    | some current =>
      simp only [hs, hview] at htakes
      exact .updates _ current .leaving (hs ▸ trivial) trivial hview htakes rfl
  | leaving => simp only [hs] at htakes
  | _ => simp [hs, Stage.Saved] at hsaved

theorem Course.LateStep.enrolStep (h : c.LateStep committed s s') : c.EnrolStep committed s s' := by
  cases h with
  | misses stage hbefore _ hview heq => exact heq ▸ .early hbefore.1 hbefore.2 rfl fun _ => hview
  | finds enrollment stage hbefore hafter hview heq => exact heq ▸ .finds enrollment hbefore hafter rfl hview
  | reads stage hbefore hafter heq => exact heq ▸ .reads hbefore hafter rfl
  | inserts enrollment stage hafter hkey heq => exact heq ▸ .inserts enrollment hafter (writes_write_self ..) hkey
  | updates enrollment current stage hbefore hafter hview heq hkey =>
    exact heq ▸ .updates enrollment current hbefore hafter (writes_write_self ..) hview hkey

theorem enrolStep_of_takes (htakes : c.learning.Takes moment committed s s') : c.EnrolStep committed s s' := by
  by_cases hsaved : s.stage.stage.Saved
  · exact (lateStep_of_takes htakes hsaved).enrolStep
  simp only [Program.Takes, Course.learning, Course.send] at htakes
  cases hs : s.stage.stage with
  | resolving =>
    simp only [hs] at htakes
    split_ifs at htakes
    · subst htakes
      exact enrolStep_select (hs ▸ id) id id
    · subst htakes
      exact enrolStep_select (hs ▸ id) id id
    · exact htakes.elim
  | measuring =>
    simp only [hs] at htakes
    subst htakes
    exact enrolStep_select (hs ▸ id) id id
  | getting duration =>
    cases hview : s.view committed (.progress s.stage.lesson) <;> simp only [hs, hview] at htakes <;> subst htakes
    · exact enrolStep_select (hs ▸ id) id id
    · exact .early (hs ▸ id) id rfl False.elim
  | creating duration =>
    cases hview : s.view committed (.progress s.stage.lesson) <;> simp only [hs, hview] at htakes <;> subst htakes
    · exact enrolStep_write_progress (hs ▸ id) id id
    · exact enrolStep_select (hs ▸ id) id id
  | saving duration progress =>
    cases hheartbeat : s.stage.heartbeat with
    | none =>
      simp only [hs, hheartbeat] at htakes
      split_ifs at htakes <;> subst htakes
      · exact enrolStep_write_progress (hs ▸ id) id id
      · exact enrolStep_select (hs ▸ id) id id
    | some heartbeat =>
      simp only [hs, hheartbeat] at htakes
      split_ifs at htakes
      · subst htakes
        exact enrolStep_write_progress (hs ▸ id) id id
      · exact htakes.elim
  | _ => exact absurd (hs ▸ trivial) hsaved

theorem hasEnrollment_of_writes {enrollment : Enrollment} (hwrites : s.writes .enrollment = some enrollment)
    (hkey : enrollment.key = (c.user, c.pk)) : c.HasEnrollment (s.view committed) :=
  ⟨enrollment, by rw [Session.view, hwrites]; rfl, hkey⟩

theorem takes_enrolled {log : List Empty} (hown : c.OwnEnrollment committed log) (h : c.StageEnrolled committed s)
    (htakes : c.learning.Takes moment committed s s') : c.StageEnrolled committed s' := by
  have hview : s'.writes .enrollment = s.writes .enrollment → s'.view committed .enrollment = s.view committed .enrollment :=
    fun hwrites => by rw [Session.view, hwrites, Session.view]
  cases enrolStep_of_takes htakes with
  | early hbefore hafter hwrites _ => exact stageEnrolled_of_unwritten (hwrites.trans (h.unwritten hbefore)) hafter
  | finds enrollment hbefore hafter hwrites hfinds =>
    refine stageEnrolled_of_bookmarked ⟨enrollment, (hview hwrites).trans hfinds, hown enrollment ?_⟩ hafter
    rw [← hfinds, Session.view, h.unwritten hbefore, Option.none_or]
  | reads hbefore hafter hwrites =>
    obtain ⟨enrollment, hsees, hkey⟩ := h.seen hbefore
    exact stageEnrolled_of_bookmarked ⟨enrollment, (hview hwrites).trans hsees, hkey⟩ hafter
  | inserts enrollment hafter hwrites hkey =>
    exact stageEnrolled_of_bookmarked (hasEnrollment_of_writes hwrites hkey) hafter
  | updates enrollment current hbefore hafter hwrites hcurrent hsame =>
    obtain ⟨seen, hsees, hkey⟩ := h.seen hbefore
    rw [hcurrent, Option.some.injEq] at hsees
    exact stageEnrolled_of_bookmarked (hasEnrollment_of_writes hwrites (hsame.trans (hsees ▸ hkey))) hafter

theorem start_eq {request : Uuid × Option Heartbeat} {flight : Flight} (h : c.learning.start request = some flight) :
    flight = ⟨request.1, request.2, .resolving⟩ := by
  simp only [Course.learning] at h
  split_ifs at h
  exact (Option.some.inj h).symm

theorem hasEnrollment_of_commit (h : c.StageEnrolled committed s)
    (hcommit : c.learning.statement moment s.stage (s.view committed) = .commit) : c.HasEnrollment (s.view committed) :=
  h.seen (by simp [commit_leaving hcommit, Stage.Bookmarked])

theorem stageEnrolled_commit (hs : c.StageEnrolled committed s)
    (hcommit : c.learning.statement moment s.stage (s.view committed) = .commit) (ht : c.StageEnrolled committed t) :
    c.StageEnrolled (s.view committed) t := by
  refine ⟨fun hbookmarked => ?_, ht.unwritten⟩
  rw [Course.HasEnrollment, view_view]
  split
  · exact hasEnrollment_of_commit hs hcommit
  · exact ht.seen hbookmarked

theorem learning_enrolled (c : Course) : c.learning.Maintains c.OwnEnrollment c.StageEnrolled where
  begins := by
    intro request flight committed log _ hstart
    rw [start_eq hstart]
    exact stageEnrolled_of_unwritten rfl (by simp [Session.begin, Stage.Bookmarked])
  takes := fun hown h htakes => takes_enrolled hown h htakes
  commits := by
    intro moment committed log s _ h hcommit enrollment henrollment
    obtain ⟨seen, hseen, hkey⟩ := hasEnrollment_of_commit h hcommit
    rw [henrollment, Option.some.injEq] at hseen
    rw [hseen, hkey]
  stable := fun _ hs ht hcommit _ _ => stageEnrolled_commit hs hcommit ht

/-! ### Calls that are too late -/

section Steps

variable {w : Server Row Flight Empty} {turn : Turn (Uuid × Option Heartbeat) Moment}

theorem sees_committed (s : Session Row Flight Empty) (h : (committed .enrollment).isSome = true) :
    ∃ enrollment, s.view committed .enrollment = some enrollment := by
  apply Option.isSome_iff_exists.mp
  rw [Session.view, Option.isSome_or, h, Bool.or_true]

theorem rollback_of_found_none (hstage : s.stage.stage.FoundNone) (hcommitted : (committed .enrollment).isSome = true) :
    c.learning.statement moment s.stage (s.view committed) = .rollback := by
  obtain ⟨enrollment, hview⟩ := sees_committed s hcommitted
  cases hs : s.stage.stage <;> simp only [hs, Stage.FoundNone] at hstage
  simp only [Course.learning, Course.send, hs, hview]

/-- A call has read that there is no enrolment, and meanwhile one is committed. -/
def TooLate (w : Server Row Flight Empty) : Prop :=
  (w.committed .enrollment).isSome = true ∧ w.Some fun t => t.stage.stage.FoundNone

/-- Until it is rolled back it stays too late. -/
theorem tooLate_step (h : TooLate w) (hcommits : ¬ c.learning.RollsBack w turn) : TooLate (c.learning.step w turn) := by
  obtain ⟨hcommitted, j, t, ht, hfound⟩ := h
  have hrollback : ∀ moment, c.learning.statement moment t.stage (t.view w.committed) = .rollback :=
    fun moment => rollback_of_found_none hfound hcommitted
  have hstep := c.learning.step_spec w turn
  generalize c.learning.step w turn = w' at hstep
  cases hstep with
  | wait => exact ⟨hcommitted, j, t, ht, hfound⟩
  | begin hstart => exact ⟨hcommitted, some_begin.mpr (.inl ⟨j, t, ht, hfound⟩)⟩
  | @take i moment s s' hat htakes =>
    refine ⟨hcommitted, j, t, (at_put hat).mpr (.inr ⟨?_, ht⟩), hfound⟩
    rintro rfl
    cases hat.symm.trans ht
    rw [Program.Takes, hrollback] at htakes
    exact htakes
  | @commit i moment s hat hcommit =>
    obtain ⟨enrollment, hview⟩ := sees_committed s hcommitted
    refine ⟨Option.isSome_iff_exists.mpr ⟨enrollment, hview⟩, j, t, at_commit.mpr ⟨?_, ht⟩, hfound⟩
    rintro rfl
    cases hat.symm.trans ht
    rw [hrollback] at hcommit
    cases hcommit
  | rollback hat hrollback' => exact absurd ⟨_, hat, hrollback'⟩ hcommits

theorem tooLate_final (h : TooLate w) {run : List (Turn (Uuid × Option Heartbeat) Moment)}
    (hcommits : Along c.learning.step (fun w turn => ¬ c.learning.RollsBack w turn) w run) :
    TooLate (final c.learning.step w run) := by
  induction run generalizing w with
  | nil => exact h
  | cons turn run ih => exact ih (tooLate_step h hcommits.1) hcommits.2

theorem accepts_of_not_rollback (h : c.learning.statement moment s.stage (s.view committed) ≠ .rollback) :
    c.Accepts moment s.stage := by
  cases hs : s.stage.stage with
  | resolving =>
    simp only [Course.Accepts, hs]
    by_contra hdenied
    exact h (by simp [Course.learning, Course.send, hs, hdenied])
  | saving duration progress =>
    simp only [Course.Accepts, hs]
    intro heartbeat hheartbeat
    by_contra hinvalid
    exact h (by simp [Course.learning, Course.send, hs, Option.mem_def.mp hheartbeat, hinvalid])
  | _ => simp [Course.Accepts, hs]

/-- A call that does not proceed is rolled back, or makes another too late. -/
theorem rollsBack_or_tooLate (hw : w.Satisfies c.OwnEnrollment c.StageEnrolled) (hnot : ¬ c.Proceeds w turn) :
    c.learning.RollsBack w turn ∨ TooLate (c.learning.step w turn) := by
  cases turn with
  | begin request => exact absurd trivial hnot
  | step i moment =>
    simp only [Course.Proceeds, not_forall] at hnot
    obtain ⟨s, hat, hnot⟩ := hnot
    by_cases hrollback : c.learning.statement moment s.stage (s.view w.committed) = .rollback
    · exact .inl ⟨s, hat, hrollback⟩
    · have hleaving : ¬ (s.stage.stage = .leaving → ¬ w.Other i fun t => t.stage.stage.FoundNone) :=
        fun hleave => hnot ⟨accepts_of_not_rollback hrollback, hleave⟩
      simp only [Classical.not_imp, not_not] at hleaving
      obtain ⟨hstage, hother⟩ := hleaving
      have hcommit : c.learning.statement moment s.stage (s.view w.committed) = .commit := by
        simp [Course.learning, Course.send, hstage]
      obtain ⟨enrollment, hview, -⟩ := hasEnrollment_of_commit (hw.sessions hat) hcommit
      rw [step_commit hat hcommit]
      exact .inr ⟨Option.isSome_iff_exists.mpr ⟨enrollment, hview⟩, some_commit.mpr hother⟩

theorem along_proceeds (hw : w.Satisfies c.OwnEnrollment c.StageEnrolled)
    {run : List (Turn (Uuid × Option Heartbeat) Moment)}
    (hcommits : Along c.learning.step (fun w turn => ¬ c.learning.RollsBack w turn) w run)
    (hquiet : (final c.learning.step w run).Quiet) : Along c.learning.step c.Proceeds w run := by
  induction run generalizing w with
  | nil => trivial
  | cons turn run ih =>
    refine ⟨?_, ih ((learning_enrolled c).step hw turn) hcommits.2 hquiet⟩
    by_contra hnot
    have hlate := (rollsBack_or_tooLate hw hnot).resolve_left hcommits.1
    exact not_some_of_quiet hquiet (tooLate_final hlate hcommits.2).2

/-! ### Calls in time -/

/-- While every call proceeds, one that has read that there is no enrolment is right. -/
def InTime (w : Server Row Flight Empty) : Prop :=
  (w.Some fun t => t.stage.stage.FoundNone) → w.committed .enrollment = none

theorem not_foundNone_of_bookmarked {stage : Stage} (h : stage.Bookmarked) : ¬ stage.FoundNone := by
  cases stage <;> simp_all [Stage.Bookmarked, Stage.FoundNone]

theorem found_none_of_takes (htakes : c.learning.Takes moment committed s s') (hfound : s'.stage.stage.FoundNone) :
    s.view committed .enrollment = none := by
  cases enrolStep_of_takes htakes with
  | early _ _ _ hnone => exact hnone hfound
  | finds _ _ hafter => exact absurd hfound (not_foundNone_of_bookmarked hafter)
  | reads _ hafter => exact absurd hfound (not_foundNone_of_bookmarked hafter)
  | inserts _ hafter => exact absurd hfound (not_foundNone_of_bookmarked hafter)
  | updates _ _ _ hafter => exact absurd hfound (not_foundNone_of_bookmarked hafter)

theorem not_rollback_of_accepts (h : c.StageEnrolled committed s)
    (hfound : s.stage.stage.FoundNone → committed .enrollment = none) (haccepts : c.Accepts moment s.stage) :
    c.learning.statement moment s.stage (s.view committed) ≠ .rollback := by
  intro hrollback
  simp only [Course.learning, Course.send] at hrollback
  cases hs : s.stage.stage with
  | resolving =>
    simp only [Course.Accepts, hs] at haccepts
    simp [hs, haccepts] at hrollback
  | saving duration progress =>
    simp only [Course.Accepts, hs] at haccepts
    cases hheartbeat : s.stage.heartbeat with
    | some heartbeat => simp [hs, hheartbeat, haccepts heartbeat hheartbeat] at hrollback
    | none => 
      simp only [hs, hheartbeat] at hrollback
      split at hrollback <;> cases hrollback
  | enrolling justFinished =>
    have hview : s.view committed .enrollment = none := by
      rw [Session.view, h.unwritten (by simp [hs, Stage.Bookmarked]), hfound (by simp [hs, Stage.FoundNone])]
      rfl
    simp [hs, hview] at hrollback
  | completing =>
    obtain ⟨current, hview, -⟩ := h.seen (by simp [hs, Stage.Bookmarked])
    simp [hs, hview] at hrollback
  | measuring => simp [hs] at hrollback
  | getting duration =>
    cases hview : s.view committed (.progress s.stage.lesson) <;> simp [hs, hview] at hrollback
  | creating duration =>
    cases hview : s.view committed (.progress s.stage.lesson) <;> simp [hs, hview] at hrollback
  | bookmarking justFinished =>
    cases hview : s.view committed .enrollment <;> simp [hs, hview] at hrollback
    split at hrollback <;> cases hrollback
  | moving justFinished enrollment =>
    cases hview : s.view committed .enrollment <;> simp [hs, hview] at hrollback
  | counting => simp [hs] at hrollback
  | countingFinished total => simp [hs] at hrollback
  | leaving => simp [hs] at hrollback

/-- The invariant of a run in which every call proceeds. -/
structure Course.Contact (c : Course) (w : Server Row Flight Empty) : Prop where
  satisfies : w.Satisfies c.OwnEnrollment c.StageEnrolled
  inTime : InTime w

theorem not_rollsBack (h : c.Contact w) (hproceeds : c.Proceeds w turn) : ¬ c.learning.RollsBack w turn := by
  cases turn with
  | begin request => exact id
  | step i moment =>
    rintro ⟨s, hat, hrollback⟩
    exact not_rollback_of_accepts (h.satisfies.sessions hat) (fun hfound => h.inTime ⟨i, s, hat, hfound⟩)
      (hproceeds s hat).1 hrollback

theorem inTime_step (h : c.Contact w) (hproceeds : c.Proceeds w turn) : InTime (c.learning.step w turn) := by
  have hcommits := not_rollsBack h hproceeds
  have hstep := c.learning.step_spec w turn
  generalize c.learning.step w turn = w' at hstep
  cases hstep with
  | wait => exact h.inTime
  | begin hstart => 
    intro hsome
    rcases some_begin.mp hsome with hsome | hfound
    · exact h.inTime hsome
    · rw [start_eq hstart] at hfound
      exact hfound.elim
  | @take i moment s s' hat htakes =>
    intro hsome
    rcases (some_put hat).mp hsome with hfound | ⟨j, t, -, ht, hfound⟩
    · have hview := found_none_of_takes htakes hfound
      rw [Session.view, Option.or_eq_none_iff] at hview
      exact hview.2
    · exact h.inTime ⟨j, t, ht, hfound⟩
  | @commit i moment s hat hcommit =>
    intro hsome
    exact absurd (some_commit.mp hsome) ((hproceeds s hat).2 (commit_leaving hcommit))
  | rollback hat hrollback => exact absurd ⟨_, hat, hrollback⟩ hcommits

theorem contact_step (h : c.Contact w) (hproceeds : c.Proceeds w turn) : c.Contact (c.learning.step w turn) :=
  ⟨(learning_enrolled c).step h.satisfies turn, inTime_step h hproceeds⟩

theorem contact_idle (hnew : committed .enrollment = none) : c.Contact (Server.idle committed []) where
  satisfies := satisfies_idle fun enrollment henrollment => by rw [hnew] at henrollment; cases henrollment
  inTime := fun _ => hnew

end Steps

end EPlatform.Learning
