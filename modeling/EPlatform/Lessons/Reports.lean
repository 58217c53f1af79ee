import EPlatform.MediaAssets.Reports
import EPlatform.Transcripts.Reports

/-!
# Provider reports that race our own writes

Both hand-overs of a lesson, the master to the video provider and its sound to the transcription provider, have one
shape, and lose a report in one way: an id that is not stored yet is an id of nobody's.
-/

namespace EPlatform.Lessons

open Runs MediaAssets Transcripts

/-- The one report about an id takes effect in exactly those finished runs in which its task looks the id up after it
was stored, provided the columns accept what the provider sent. -/
theorem reports_takeEffect_iff (media : Handing) (transcript : Submitting) (run : List Handover.Step) :
    ((final media.handover.step (Handover.start media.before) run).Finished →
      (Playable (final media.handover.step (Handover.start media.before) run).store ↔
        Along media.handover.step Handover.LooksAfterSave (Handover.start media.before) run ∧
          ReportFits media.settings.provider media.created media.event.durationSeconds)) ∧
    ((final transcript.handover.step (Handover.start transcript.before) run).Finished →
      (Transcribed transcript.result (final transcript.handover.step (Handover.start transcript.before) run).store ↔
        Along transcript.handover.step Handover.LooksAfterSave (Handover.start transcript.before) run ∧
          CallbackFits transcript.provider transcript.takenJobs transcript.job transcript.result)) :=
  ⟨media.finished_playable_iff, transcript.finished_transcribed_iff⟩

/-- An uploaded master that the provider accepted as `fakeasset_1`, and its event. -/
def handedMaster : Handing where
  settings := ⟨5368709120, 3, "fake"⟩
  env := ⟨1, "", 0, ⟨none, []⟩, .raised ⟨"", ""⟩ none⟩
  before :=
    { db :=
        { rows :=
            { lesson := ⟨6, 7, "es"⟩
              asset := some
                { pk := 5, sourceObjectKey := ⟨6, "first", "mp4"⟩, sourceBytes := 2048, sourceChecksum := "etag"
                  provider := "", providerAssetId := "", providerPlaybackId := "", durationSeconds := none
                  status := .uploaded, errorMessage := "", retryCount := 0, updatedAt := 0 } }
          valid := by decide }
      events := [] }
  received := [(videoWebhookView "fake").record 50 ⟨"fakeevt_1", "video.asset.ready", "fakeasset_1", .ready, some 42⟩]
  key := ⟨6, "first", "mp4"⟩
  retries := 0
  created := ⟨"fake", "fakeasset_1", "fakeplay_1", .processing⟩
  event := ⟨"fakeevt_1", "video.asset.ready", "fakeasset_1", .ready, some 42⟩
  webhookEventId := 50
  passedItsGuards := by decide
  isAccepted := by decide
  isReady := rfl
  isAboutIt := rfl
  isNew := by decide
  isReceived := by decide

/-- A new transcript whose job the provider accepted as `job-1`, and its event. -/
def submittedJob : Submitting where
  provider := "fake"
  maxRetries := 3
  retries := 0
  takenJobs := []
  now := 1
  before := ⟨⟨⟨.new 1 5 7 "es" 0, [], 0⟩, new_valid 1 5 7 "es" 0⟩, []⟩
  received := [(transcriptionWebhookView "fake").record 51 ⟨"job-1", .completed, some 940, [⟨1, 0, 900, "ola"⟩]⟩]
  job := ⟨"fake", "job-1", .processing⟩
  result := ⟨"job-1", .completed, some 940, [⟨1, 0, 900, "ola"⟩]⟩
  webhookEventId := 51
  passedItsGuards := by decide
  isAccepted := by decide
  isCompleted := rfl
  isAboutIt := rfl
  isNew := by decide
  isReceived := by decide

/-- The ids are stored, then the reports arrive: both take effect. -/
theorem reports_after_ids_take_effect :
    Playable (final handedMaster.handover.step (Handover.start handedMaster.before)
        [.accept, .save, .receive, .look, .write]).store ∧
      Transcribed submittedJob.result (final submittedJob.handover.step (Handover.start submittedJob.before)
        [.accept, .save, .receive, .look, .write]).store := by
  have hboth := reports_takeEffect_iff handedMaster submittedJob [.accept, .save, .receive, .look, .write]
  have hmaster : ReportFits handedMaster.settings.provider handedMaster.created handedMaster.event.durationSeconds := by
    refine ⟨rfl, by decide, by decide, by decide, ?_⟩
    intro n hn
    cases hn
    decide
  have hjob : CallbackFits submittedJob.provider submittedJob.takenJobs submittedJob.job submittedJob.result := by
    refine ⟨rfl, by decide, by decide, ?_, by decide, by decide, by decide⟩
    intro c hc
    cases hc
    decide
  constructor
  · exact (hboth.1 (by decide)).mpr ⟨by decide, hmaster⟩
  · exact (hboth.2 (by decide)).mpr ⟨by decide, hjob⟩

/-- The run in which the provider is faster than the write of its id. -/
def lateSave : List Handover.Step := [.accept, .receive, .look, .write, .save]

/-- Every step finishes, and neither report takes effect. -/
theorem reports_before_ids_are_lost :
    (final handedMaster.handover.step (Handover.start handedMaster.before) lateSave).Finished ∧
      ¬ Playable (final handedMaster.handover.step (Handover.start handedMaster.before) lateSave).store ∧
      (final submittedJob.handover.step (Handover.start submittedJob.before) lateSave).Finished ∧
      ¬ Transcribed submittedJob.result
        (final submittedJob.handover.step (Handover.start submittedJob.before) lateSave).store := by
  decide

end EPlatform.Lessons
