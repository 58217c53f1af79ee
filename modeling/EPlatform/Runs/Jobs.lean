import Mathlib.Tactic.Common

/-!
# Jobs handed to the outside world

A call can be accepted outside without our knowing, so what was accepted is a list of its own: one job for each call that
took effect, in the order of the calls. A job may be done over once it was reported failed and somebody asked for it.
-/

namespace Runs

structure Job (κ ι : Type*) where
  work : κ
  id : ι
  errored : Bool
  retried : Bool
  deriving DecidableEq

namespace Job

variable {κ ι : Type*}

/-- No work was taken on twice, unless the first job failed and was retried. -/
def OncePerWork (jobs : List (Job κ ι)) : Prop :=
  jobs.Pairwise fun earlier later => earlier.work = later.work → earlier.retried

instance [DecidableEq κ] : DecidablePred (OncePerWork : List (Job κ ι) → Prop) :=
  fun jobs => inferInstanceAs (Decidable (jobs.Pairwise _))

def accept (work : κ) (id : ι) (jobs : List (Job κ ι)) : List (Job κ ι) := jobs ++ [⟨work, id, false, false⟩]

/-- The outside world reports a job as failed. -/
def report [DecidableEq ι] (id : ι) (jobs : List (Job κ ι)) : List (Job κ ι) :=
  jobs.map fun job => { job with errored := job.errored || job.id = id }

/-- Somebody asks for the failed jobs of a work to be done over. -/
def retry [DecidableEq κ] (work : κ) (jobs : List (Job κ ι)) : List (Job κ ι) :=
  jobs.map fun job => { job with retried := job.retried || (job.errored && job.work = work) }

theorem oncePerWork_accept_iff {jobs : List (Job κ ι)} (h : OncePerWork jobs) (work : κ) (id : ι) :
    OncePerWork (accept work id jobs) ↔ ∀ job ∈ jobs, job.work = work → job.retried := by
  unfold OncePerWork accept
  rw [List.pairwise_append]
  constructor
  · intro happend job hjob hwork
    exact happend.2.2 job hjob _ (List.mem_singleton.mpr rfl) hwork
  · intro hretried
    refine ⟨h, List.pairwise_singleton _ _, ?_⟩
    intro job hjob later hlater hwork
    rw [List.mem_singleton.mp hlater] at hwork
    exact hretried job hjob hwork

/-- A report alone excuses nothing. -/
@[simp] theorem oncePerWork_report_iff [DecidableEq ι] {id : ι} {jobs : List (Job κ ι)} :
    OncePerWork (report id jobs) ↔ OncePerWork jobs := by
  unfold OncePerWork report
  rw [List.pairwise_map]

theorem oncePerWork_retry [DecidableEq κ] (work : κ) {jobs : List (Job κ ι)} (h : OncePerWork jobs) :
    OncePerWork (retry work jobs) := by
  unfold OncePerWork retry at *
  rw [List.pairwise_map]
  apply h.imp
  intro earlier later hpair hsame
  simp [hpair hsame]

end Job

end Runs
