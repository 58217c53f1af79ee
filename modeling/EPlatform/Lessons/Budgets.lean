import EPlatform.Lessons.ProviderJobs
import EPlatform.MediaAssets.Attempts
import EPlatform.Transcripts.Attempts

/-!
# Budgets of retries

The two tasks that count their own retries. How often they run is up to them, since the queue's own limit is switched off.
-/

namespace EPlatform.Lessons

open Runs MediaAssets Transcripts

/-- Each task keeps its budget exactly when the queue takes every retry before the first call that does not raise, and what
the last call leaves to be stored fits its columns. -/
theorem budgets_exact (maxRetries : Nat) :
    (∀ (db : MediaAssets.Database) (key : ObjectKey) (answers : Nat → Answering), planProcessing db.rows.asset = .ok key →
      (ExactBudget (processMediaAsset maxRetries) (fun answering => CallRaises answering.answer) maxRetries
          (MediaAssets.Waits db.rows) MediaAssets.Ends answers db ↔
        Queued (fun answering => CallRaises answering.answer) MediaAssets.RetryTaken maxRetries answers ∧
          ∀ k, StopsAt (fun answering => CallRaises answering.answer) maxRetries answers k → AnswerFits (answers k).answer)) ∧
      ∀ (r : Recording) (found : Option Transcripts.Database) (sendings : Nat → Sending), MayBeSubmitted found →
        (ExactBudget (attemptTranscription { r with maxRetries := maxRetries }) (fun sending => CallRaises sending.answer)
            maxRetries (Transcripts.Waits { r with maxRetries := maxRetries } found) Transcripts.Ends sendings found ↔
          Queued (fun sending => CallRaises sending.answer) Transcripts.RetryTaken maxRetries sendings ∧
            ∀ k, StopsAt (fun sending => CallRaises sending.answer) maxRetries sendings k → SendingFits (sendings k)) := by
  constructor
  · intro db key answers hplan
    exact (processMediaAsset_bounded maxRetries hplan).exactBudget_iff (waits_zero db)
  · intro r found sendings hopen
    exact (attemptTranscription_bounded hopen).exactBudget_iff (.inl ⟨rfl, rfl⟩)

/-- A provider that does not answer in time. -/
def timedOut (α : Type) : Except Raised α := .error ⟨"TimeoutError", "timed out"⟩

/-- Three retries, of calls that never return. -/
theorem budgets_exact_three :
    ExactBudget (processMediaAsset (3 : Nat)) (fun answering => CallRaises answering.answer) 3
        (MediaAssets.Waits uploadedLesson.media.db.rows) MediaAssets.Ends (fun _ => ⟨timedOut ProviderAsset, 1⟩)
        uploadedLesson.media.db ∧
      ExactBudget (attemptTranscription { recording with maxRetries := (3 : Nat) })
        (fun sending => CallRaises sending.answer) 3
        (Transcripts.Waits { recording with maxRetries := (3 : Nat) } none) Transcripts.Ends
        (fun _ => ⟨8, [], timedOut TranscriptionJob, 1⟩) none := by
  constructor
  · refine ((budgets_exact 3).1 uploadedLesson.media.db ⟨6, "first", "mp4"⟩ _ (by decide)).mpr ⟨?_, ?_⟩
    · intro n hn _
      exact queueTakes_of_le (show n + 1 ≤ 34 by omega) (show 1 ≤ 81603608959999999 by decide)
    · intro k _
      show IsSendable _
      decide
  · refine ((budgets_exact 3).2 recording none _ (by simp [MayBeSubmitted])).mpr ⟨?_, ?_⟩
    · intro n hn _
      exact queueTakes_of_le (show n + 1 ≤ 34 by omega) (show 1 ≤ 81603608959999999 by decide)
    · intro k _
      show IsSendable _
      decide

/-- With thirty-five retries and calls that never return, the last retry is never queued, and the asset is never filed. -/
theorem retry_past_the_calendar :
    ¬ ExactBudget (processMediaAsset (35 : Nat)) (fun answering => CallRaises answering.answer) 35
        (MediaAssets.Waits uploadedLesson.media.db.rows) MediaAssets.Ends (fun _ => ⟨timedOut ProviderAsset, 1⟩)
        uploadedLesson.media.db ∧
      ¬ ∃ n asset, (executions (processMediaAsset (35 : Nat)) (fun _ => ⟨timedOut ProviderAsset, 1⟩) uploadedLesson.media.db
        n).state.rows.asset = some asset ∧ asset.status = .failed := by
  have hplan : planProcessing uploadedLesson.media.db.rows.asset = .ok ⟨6, "first", "mp4"⟩ := by decide
  have hraises : ∀ i : Nat, CallRaises ((fun _ => ⟨timedOut ProviderAsset, 1⟩ : Nat → Answering) i).answer := fun _ => ⟨_, rfl⟩
  have hnever : ¬ ∃ n asset, (executions (processMediaAsset (35 : Nat)) (fun _ => ⟨timedOut ProviderAsset, 1⟩)
      uploadedLesson.media.db n).state.rows.asset = some asset ∧ asset.status = .failed := by
    rintro ⟨n, asset, hasset, hfailed⟩
    obtain ⟨failures, hwaits⟩ := waits_unqueued _ hplan (Nat.le_refl 35) hraises n
    rw [hwaits.row rfl, Option.some.injEq] at hasset
    rw [← hasset, waiting_status] at hfailed
    cases hfailed
  refine ⟨fun hexact => ?_, hnever⟩
  obtain ⟨-, -, asset, hasset, hfiled⟩ := hexact.ends 35 ⟨Nat.le_refl 35, fun i _ => hraises i, fun _ => rfl⟩ 36 (by decide)
  exact hnever ⟨36, asset, hasset, hfiled.1⟩

end EPlatform.Lessons
