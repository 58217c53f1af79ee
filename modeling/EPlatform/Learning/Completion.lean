import EPlatform.Learning.InFlight

/-!
# Finishing the last lesson finishes the course

A call that has just finished a lesson counts the others and completes the enrolment if none is missing. It counts what
is committed and its own: two calls that finish the last two lessons together may each miss the other's. The course is
finished in the end exactly when no call is the last to count and misses a lesson.
-/

namespace EPlatform.Learning

open Runs ReadCommitted Entitlements

/-- If every lesson of the course is finished, the enrolment is completed. -/
def Course.Finishes (c : Course) (committed : Store Row) : Prop :=
  (∀ lesson ∈ c.lessons, Finished committed lesson) → Completed committed

instance (c : Course) (committed : Store Row) : Decidable (c.Finishes committed) :=
  inferInstanceAs (Decidable (_ → _))

/-- A call that counts the finished lessons, when with those of the calls in flight all are finished, sees them all
itself or leaves another call undecided. -/
def Course.CountsInTime (c : Course) (w : Server Row Flight Empty) : Turn (Uuid × Option Heartbeat) Moment → Prop
  | .begin _ => True
  | .step i _ => ∀ s total, w.At i s → s.stage.stage = .countingFinished total →
    (∀ lesson ∈ c.lessons, w.Knows (.progress lesson) isFinished) →
    (∀ lesson ∈ c.lessons, Finished (s.view w.committed) lesson) ∨ w.Other i fun t => t.stage.stage.Undecided

variable {c : Course} {s s' t : Session Row Flight Empty}

/-! ### Somebody will complete the course -/

/-- If every lesson is finished, by committed rows or by those of calls in flight, then the course is completed or a call
is still undecided. -/
def Course.InHand (c : Course) (w : Server Row Flight Empty) : Prop :=
  (∀ lesson ∈ c.lessons, w.Knows (.progress lesson) isFinished) →
    w.Knows .enrollment isCompleted ∨ w.Some fun t => t.stage.stage.Undecided

section Steps

variable {w : Server Row Flight Empty} {i : Nat} {moment : Moment}

/-- Nobody else sees finished the lesson whose row a call holds. -/
theorem not_finished_elsewhere {lesson : Uuid} {j : Nat} (h : w.Satisfies Enrolled (Sound c)) (hs : w.At i s)
    (ht : w.At j t) (hji : j ≠ i) (hholds : .progress lesson ∈ s.holds) (hopen : ¬ Finished w.committed lesson) :
    ¬ Finished (t.view w.committed) lesson := by
  have hnone : t.writes (.progress lesson) = none := by
    by_contra hwritten
    exact hji (h.isolated.apart ht hs (h.isolated.written ht hwritten) hholds)
  rw [Finished, Session.view, hnone, Option.none_or]
  exact hopen

theorem not_knows_finished {lesson : Uuid} (h : w.Satisfies Enrolled (Sound c)) (hs : w.At i s)
    (hholds : .progress lesson ∈ s.holds) (hopen : ¬ Finished (s.view w.committed) lesson) :
    ¬ w.Knows (.progress lesson) isFinished := by
  have hcommitted : ¬ Finished w.committed lesson := mt ((h.sessions hs).writes.keepsFinished lesson) hopen
  rintro (hknown | hsome)
  · exact hcommitted hknown
  · rcases (some_iff hs).mp hsome with hown | ⟨j, t, hji, ht, hother⟩
    · exact hopen hown
    · exact not_finished_elsewhere h hs ht hji hholds hcommitted hother

theorem rollback_unwritten (hsound : Sound c committed s) (henrolled : (committed .enrollment).isSome = true)
    (h : c.learning.statement moment s.stage (s.view committed) = .rollback) :
    ¬ s.stage.stage.Undecided ∧ (Finished (s.view committed) s.stage.lesson → Finished committed s.stage.lesson) ∧
      s.writes .enrollment = none := by
  have hstage := hsound.stage
  unfold StageSound at hstage
  simp only [Course.learning, Course.send] at h
  cases hs : s.stage.stage with
  | resolving =>
    simp only [hs] at hstage
    refine ⟨by simp [Stage.Undecided], ?_, hstage.2⟩
    rw [Finished, Session.view, hstage.1, Option.none_or]
    exact id
  | saving duration progress =>
    simp only [hs] at hstage
    obtain ⟨-, hview, hfinished, hwrites⟩ := hstage
    refine ⟨by simp [Stage.Undecided], ?_, hwrites⟩
    rw [Finished, hview, Option.any_some]
    exact hfinished
  | enrolling justFinished => simp only [hs] at hstage
  | completing =>
    have hsome : (s.view committed .enrollment).isSome = true := by simp [Session.view, henrolled]
    obtain ⟨current, hview⟩ := Option.isSome_iff_exists.mp hsome
    simp [hs, hview] at h
  | measuring => simp [hs] at h
  | getting duration => cases hview : s.view committed (.progress s.stage.lesson) <;> simp [hs, hview] at h
  | creating duration => cases hview : s.view committed (.progress s.stage.lesson) <;> simp [hs, hview] at h
  | bookmarking justFinished =>
    cases hview : s.view committed .enrollment <;> simp [hs, hview] at h
    split at h <;> cases h
  | moving justFinished enrollment => cases hview : s.view committed .enrollment <;> simp [hs, hview] at h
  | counting => simp [hs] at h
  | countingFinished total => simp [hs] at h
  | leaving => simp [hs] at h

/-- A call that is rolled back has finished nothing. -/
theorem rollback_unfinished (hsound : Sound c committed s) (henrolled : (committed .enrollment).isSome = true)
    (h : c.learning.statement moment s.stage (s.view committed) = .rollback) :
    ¬ s.stage.stage.Undecided ∧ (∀ lesson, Finished (s.view committed) lesson → Finished committed lesson) ∧
      (Completed (s.view committed) → Completed committed) := by
  obtain ⟨hundecided, hlesson, hwrites⟩ := rollback_unwritten hsound henrolled h
  refine ⟨hundecided, fun lesson => ?_, ?_⟩
  · by_cases hsame : lesson = s.stage.lesson
    · rw [hsame]
      exact hlesson
    · rw [Finished, Session.view, hsound.writes.others lesson hsame, Option.none_or]
      exact id
  · rw [Completed, Session.view, hwrites, Option.none_or]
    exact id

theorem commit_leaving (h : c.learning.statement moment s.stage (s.view committed) = .commit) :
    s.stage.stage = .leaving := by
  simp only [Course.learning, Course.send] at h
  cases hs : s.stage.stage with
  | leaving => rfl
  | resolving => simp only [hs] at h; split at h <;> cases h
  | measuring => simp [hs] at h
  | getting duration => cases hview : s.view committed (.progress s.stage.lesson) <;> simp [hs, hview] at h
  | creating duration => cases hview : s.view committed (.progress s.stage.lesson) <;> simp [hs, hview] at h
  | saving duration progress =>
    cases hheartbeat : s.stage.heartbeat <;> simp only [hs, hheartbeat] at h <;> split at h <;> cases h
  | bookmarking justFinished =>
    cases hview : s.view committed .enrollment <;> simp [hs, hview] at h
    split at h <;> cases h
  | enrolling justFinished => cases hview : s.view committed .enrollment <;> simp [hs, hview] at h
  | moving justFinished enrollment => cases hview : s.view committed .enrollment <;> simp [hs, hview] at h
  | counting => simp [hs] at h
  | countingFinished total => simp [hs] at h
  | completing => cases hview : s.view committed .enrollment <;> simp [hs, hview] at h

/-- The course is in hand because a call is undecided, or because it is completed. -/
theorem inHand_of_undecided (hs : w.At i s) (h : s.stage.stage.Undecided) : c.InHand w :=
  fun _ => .inr ⟨i, s, hs, h⟩

theorem inHand_of_completed (h : w.Knows .enrollment isCompleted) : c.InHand w := fun _ => .inl h

/-- Worlds that know the same and are as undecided. -/
theorem inHand_congr {w' : Server Row Flight Empty}
    (hfinished : ∀ lesson ∈ c.lessons, w'.Knows (.progress lesson) isFinished ↔ w.Knows (.progress lesson) isFinished)
    (hcompleted : w'.Knows .enrollment isCompleted ↔ w.Knows .enrollment isCompleted)
    (hundecided : (w'.Some fun t => t.stage.stage.Undecided) ↔ w.Some fun t => t.stage.stage.Undecided) :
    c.InHand w' ↔ c.InHand w := by
  unfold Course.InHand
  rw [hcompleted, hundecided]
  exact imp_congr_left (forall₂_congr hfinished)

/-- A statement keeps the course in or out of hand, unless the call finishes, counts or completes. -/
theorem inHand_take (hlessons : c.lessons ≠ []) (h : w.Satisfies Enrolled (Sound c)) (hat : w.At i s)
    (htakes : c.learning.Takes moment w.committed s s') :
    (c.InHand (w.put i s') ↔ c.InHand w) ∨
      (c.InHand w ∧ (c.CountsInTime w (.step i moment) → c.InHand (w.put i s'))) := by
  obtain ⟨-, heffect⟩ := takes_sound hlessons h.committed (h.sessions hat) htakes
  cases heffect with
  | nothing hfinished hcompleted hundecided =>
    refine .inl (inHand_congr (fun lesson _ => knows_put hat ?_) (knows_put hat ?_) ?_)
    · exact Bool.eq_iff_iff.mpr (hfinished lesson)
    · exact Bool.eq_iff_iff.mpr hcompleted
    · rw [some_put hat, some_iff hat]
      exact or_congr_left hundecided
  | finishes hfinished hbefore hholds hundecided =>
    refine .inr ⟨?_, fun _ => inHand_of_undecided ((at_put hat).mpr (.inl ⟨rfl, rfl⟩)) hundecided⟩
    intro hall
    exact absurd (hall s.stage.lesson (h.sessions hat).writes.lesson) (not_knows_finished h hat hholds hbefore)
  | answered hview hcompleted =>
    exact .inr ⟨inHand_of_completed (.inl hcompleted), fun _ => inHand_of_completed (.inl hcompleted)⟩
  | countsInVain total hstage hview hmissing hdecided =>
    refine .inr ⟨inHand_of_undecided hat (by simp [hstage, Stage.Undecided]), fun htime hall => ?_⟩
    have hall' : ∀ lesson ∈ c.lessons, w.Knows (.progress lesson) isFinished := by
      intro lesson hmem
      exact (knows_put hat (by rw [hview])).mp (hall lesson hmem)
    rcases htime s total hat hstage hall' with hseen | hother
    · exact absurd hseen hmissing
    · exact .inr ((some_put hat).mpr (.inr hother))
  | completes hfinished hundecided hcompleted =>
    exact .inr ⟨inHand_of_undecided hat hundecided, fun _ => inHand_of_completed (knows_put_of_view hat hcompleted)⟩

/-- A step keeps the course in or out of hand, unless a call finishes, counts or completes; then it is in hand before,
and after it too if the call counts in time. -/
theorem inHand_step (hlessons : c.lessons ≠ []) (h : w.Satisfies Enrolled (Sound c))
    (turn : Turn (Uuid × Option Heartbeat) Moment) :
    (c.InHand (c.learning.step w turn) ↔ c.InHand w) ∨
      (c.InHand w ∧ (c.CountsInTime w turn → c.InHand (c.learning.step w turn))) := by
  have hstep := c.learning.step_spec w turn
  generalize c.learning.step w turn = w' at hstep
  cases hstep with
  | wait => exact .inl Iff.rfl
  | @begin request flight hstart =>
    refine .inl (inHand_congr (fun lesson _ => knows_begin) knows_begin ?_)
    rw [some_begin]
    apply or_iff_left
    obtain ⟨lesson, heartbeat⟩ := request
    simp only [Course.learning] at hstart
    split_ifs at hstart
    cases hstart
    exact id
  | take hat htakes => exact inHand_take hlessons h hat htakes
  | @commit i moment s hat hcommit =>
    have hwrites := (h.sessions hat).writes
    refine .inl (inHand_congr (fun lesson _ => knows_commit hat (hwrites.keepsFinished lesson))
      (knows_commit hat hwrites.keepsCompleted) ?_)
    rw [some_commit, some_iff hat]
    exact (or_iff_right (by simp [commit_leaving hcommit, Stage.Undecided])).symm
  | @rollback i moment s hat hrollback =>
    obtain ⟨hundecided, hfinished, hcompleted⟩ := rollback_unfinished (h.sessions hat) h.committed hrollback
    refine .inl (inHand_congr (fun lesson _ => knows_rollback hat (hfinished lesson)) (knows_rollback hat hcompleted) ?_)
    rw [some_rollback, some_iff hat]
    exact (or_iff_right hundecided).symm

/-- A call that does not count in time leaves the course out of hand. -/
theorem not_inHand_of_late (h : w.Satisfies Enrolled (Sound c)) {turn : Turn (Uuid × Option Heartbeat) Moment}
    (hlate : ¬ c.CountsInTime w turn) : ¬ c.InHand (c.learning.step w turn) := by
  cases turn with
  | begin request => exact absurd trivial hlate
  | step i moment =>
    simp only [Course.CountsInTime, not_forall, not_or] at hlate
    obtain ⟨s, total, hat, hstage, hall, hmissing, hother⟩ := hlate
    have hmissing' : ¬ ∀ lesson ∈ c.lessons, Finished (s.view w.committed) lesson := by
      simpa only [not_forall] using hmissing
    have hsound := (h.sessions hat).stage
    simp only [StageSound, hstage] at hsound
    obtain ⟨hfinishing, hopen, htotal⟩ := hsound
    have hselect : c.learning.statement moment s.stage (s.view w.committed) = .select (s.stage.to .leaving) := by
      simp only [Course.learning, Course.send, hstage, htotal, length_le_finishedCount_iff, if_neg hmissing']
    rw [step_select hat hselect]
    intro hinHand
    rcases hinHand fun lesson hmem => (knows_put_stage hat).mpr (hall lesson hmem) with hcompleted | hsome
    · rcases (knows_put_stage hat).mp hcompleted with hcommitted | hknown
      · exact hopen hcommitted
      · rcases (some_iff hat).mp hknown with hown | ⟨j, t, hji, ht, hseen⟩
        · rcases (h.sessions hat).writes.sees hown with hcommitted | hseen
          · exact hopen hcommitted
          · exact hmissing' hseen
        · rcases (h.sessions ht).writes.sees hseen with hcommitted | hall'
          · exact hopen hcommitted
          · exact not_finished_elsewhere h hat ht hji hfinishing.holds hfinishing.before
              (hall' s.stage.lesson (h.sessions hat).writes.lesson)
    · rcases (some_put hat).mp hsome with hself | helse
      · simp [Flight.to, Stage.Undecided] at hself
      · exact hother helse

end Steps

/-- Once no call is in flight, the course is in hand exactly when it is finished as it should be. -/
theorem inHand_iff_finishes {w : Server Row Flight Empty} (hquiet : w.Quiet) : c.InHand w ↔ c.Finishes w.committed := by
  unfold Course.InHand Course.Finishes
  simp only [knows_iff_of_quiet hquiet, not_some_of_quiet hquiet, or_false]
  rfl

/-- After every run that leaves no call in flight, finishing all lessons has finished the course if and only if it had
before and every call counted in time. -/
theorem finishes_iff_counted_in_time (c : Course) (hlessons : c.lessons ≠ []) {committed : Store Row}
    (henrolled : (committed .enrollment).isSome = true) (run : List (Turn (Uuid × Option Heartbeat) Moment))
    (hquiet : (final c.learning.step (Server.idle committed []) run).Quiet) :
    c.Finishes (final c.learning.step (Server.idle committed []) run).committed ↔
      c.Finishes committed ∧ Along c.learning.step c.CountsInTime (Server.idle committed []) run := by
  let Sat : Server Row Flight Empty → Prop := fun w => w.Satisfies Enrolled (Sound c)
  have hmaintains := learning_maintains hlessons
  have hstart : Sat (Server.idle committed []) := satisfies_idle henrolled
  have hidle : (Server.idle committed [] : Server Row Flight Empty).Quiet := by simp [Server.idle, Server.Quiet]
  have hkeep : ∀ w turn, Sat w ∧ c.InHand w → c.CountsInTime w turn →
      Sat (c.learning.step w turn) ∧ c.InHand (c.learning.step w turn) := by
    rintro w turn ⟨hsat, hin⟩ htime
    refine ⟨hmaintains.step hsat turn, ?_⟩
    rcases inHand_step hlessons hsat turn with hsame | ⟨-, hafter⟩
    · exact hsame.mpr hin
    · exact hafter htime
  have hleave : ∀ w turn, Sat w ∧ c.InHand w → ¬ c.CountsInTime w turn →
      Sat (c.learning.step w turn) ∧ ¬ c.InHand (c.learning.step w turn) := by
    rintro w turn ⟨hsat, -⟩ hlate
    exact ⟨hmaintains.step hsat turn, not_inHand_of_late hsat hlate⟩
  have hstay : ∀ w turn, Sat w ∧ ¬ c.InHand w →
      Sat (c.learning.step w turn) ∧ ¬ c.InHand (c.learning.step w turn) := by
    rintro w turn ⟨hsat, hout⟩
    refine ⟨hmaintains.step hsat turn, ?_⟩
    rcases inHand_step hlessons hsat turn with hsame | ⟨hin, -⟩
    · exact mt hsame.mp hout
    · exact absurd hin hout
  rw [← inHand_iff_finishes hquiet]
  have hbegin : c.InHand (Server.idle committed []) ↔ c.Finishes committed := inHand_iff_finishes hidle
  by_cases hfinishes : c.Finishes committed
  · rw [and_iff_right hfinishes]
    rcases final_dichotomy hkeep hleave hstay ⟨hstart, hbegin.mpr hfinishes⟩ run with
      ⟨halong, -, hin⟩ | ⟨hnot, -, hout⟩
    · exact iff_of_true hin halong
    · exact iff_of_false hout hnot
  · have hout := final_of_step hstay ⟨hstart, mt hbegin.mp hfinishes⟩ run
    exact iff_of_false hout.2 fun h => hfinishes h.1

/-! ### Two lessons, two marks -/

def twoLessons : Course where
  settings := ⟨60, fun duration => duration * 9 / 10⟩
  user := 9
  pk := 5
  lessons := [1, 2]

/-- Enrolled, with the bookmark at the first lesson. -/
def enrolled : Store Row
  | .progress _ => none
  | .enrollment => some ⟨9, 5, some 1, 100, none, 100⟩

/-- One call marks a lesson complete, and sends `count` statements. -/
def marks (i : Nat) (count : Nat) : List (Turn (Uuid × Option Heartbeat) Moment) :=
  List.replicate count (.step i ⟨ALLOW_ACTIVE, none, 200⟩)

/-- One mark after the other. -/
theorem one_mark_after_the_other :
    Along twoLessons.learning.step twoLessons.CountsInTime (Server.idle enrolled [])
      (.begin (1, none) :: marks 0 8 ++ .begin (2, none) :: marks 1 10) :=
  ((finishes_iff_counted_in_time twoLessons (by decide) (by decide)
    (.begin (1, none) :: marks 0 8 ++ .begin (2, none) :: marks 1 10) (by decide)).mp (by decide)).2

/-- Two marks that both count before either commits: both lessons are finished, and the course never is. -/
theorem two_marks_miss_each_other :
    (final twoLessons.learning.step (Server.idle enrolled [])
      (.begin (1, none) :: .begin (2, none) :: marks 0 7 ++ marks 1 8 ++ marks 0 1 ++ marks 1 1)).Quiet ∧
    twoLessons.Finishes enrolled ∧
    ¬ twoLessons.Finishes (final twoLessons.learning.step (Server.idle enrolled [])
      (.begin (1, none) :: .begin (2, none) :: marks 0 7 ++ marks 1 8 ++ marks 0 1 ++ marks 1 1)).committed := by
  decide

end EPlatform.Learning
