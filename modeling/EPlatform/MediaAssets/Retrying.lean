import EPlatform.MediaAssets.Attempts
import EPlatform.MediaAssets.Provenance
import EPlatform.MediaAssets.Reruns
import EPlatform.MediaAssets.Webhooks

/-!
# Retrying a failed asset

Uploads, completions, tasks, webhooks and retries of one lesson, each run to its end. An asset fails in the browser, on
submission, when the budget is spent, or at the provider, and from each of these an instructor may send it once more.
-/

namespace EPlatform.MediaAssets

open Runs

/-- One request, run to its end. No request takes more than two steps. -/
def runAlone (settings : Settings) (s : Webhooks) (request : Request × Env) : Webhooks :=
  (pipeline settings).alone 2 request.2 request.1 s

/-- Two steps are all a request takes. -/
theorem alone_eq_runAlone (settings : Settings) (s : Webhooks) (request : Request × Env) {steps : Nat} (h : 2 ≤ steps) :
    (pipeline settings).alone steps request.2 request.1 s = runAlone settings s request := by
  simp only [runAlone, Protocol.alone]
  cases (pipeline settings).load request.1 s with
  | none => rfl
  | some flight =>
    have hless : ∀ s flight flight', ((pipeline settings).act request.2 flight s).2 = some flight' →
        flight'.left < flight.left := fun s flight flight' hnext => act_left hnext
    have hleft := left_lt_two flight
    exact Protocol.finish_eq hless (by omega) hleft s

/-- A retry of the asset, and the processing task it enqueues, with a provider that answers `created`. -/
def retryAndProcess (settings : Settings) (asset : MediaAsset) (actor : User) (now : Instant) (created : ProviderAsset)
    (db : Database) : Attempted Database ObjectKey :=
  processMediaAsset settings.maxRetries 0 ⟨.ok created, now⟩ (db.settle (retryProcessing asset actor now db.rows))

/-- Whoever may retry a failed asset has its master handed over, and whatever copy the provider then accepts is on record,
if the columns take its ids. -/
def RetryWorks (settings : Settings) (s : Webhooks) : Prop :=
  ∀ asset, s.db.rows.asset = some asset → asset.status = .failed →
    ∀ actor, mayManage s.db.rows.lesson.instructor actor → ∀ now created, created.status ≠ .errored →
      (retryAndProcess settings asset actor now created s.db).called = some asset.sourceObjectKey ∧
        (created.Fits → ∃ after, (retryAndProcess settings asset actor now created s.db).state.rows.asset = some after ∧
          after.IsHandedOver created)

/-- No provider reports that it could not process a copy on record. -/
def NoCopyFails (settings : Settings) (s : Webhooks) (request : Request × Env) : Prop :=
  ∀ webhookEventId, request.1 = .applyMediaWebhook webhookEventId →
    ∀ record, s.events.find? (·.pk = webhookEventId) = some record → record.payload.status = .errored →
      ∀ asset, s.db.rows.asset = some asset → asset.isFor settings.provider record.payload → asset.providerAssetId = ""

/-! ### What a retry needs -/

/-- Only an asset that is being transcoded or plays names a copy at the provider. -/
def MediaAsset.NamesLiveCopy (asset : MediaAsset) : Prop :=
  asset.providerAssetId ≠ "" → asset.status ∈ [MediaAssetStatus.transcoding, .ready]

section Retry

variable {settings : Settings} {asset : MediaAsset} {actor : User} {now : Instant} {created : ProviderAsset} {db : Database}

theorem saveRetry_valid (now : Instant) (h : asset.Valid) : (saveRetry now asset).Valid :=
  ⟨h.providerIdsAreNotUrls, by simp [saveRetry], by simp [saveRetry], h.sourceHasBytes, h.durationSeconds,
    ⟨by simp [saveRetry], by simp [saveRetry]⟩, h.lengths⟩

theorem settle_retry (hasset : db.rows.asset = some asset) (hstatus : asset.status = .failed)
    (hmay : mayManage db.rows.lesson.instructor actor) :
    (db.settle (retryProcessing asset actor now db.rows)).rows.asset = some (saveRetry now asset) := by
  have hok : retryProcessing asset actor now db.rows = .ok (db.rows.update (saveRetry now)) :=
    retryProcessing_ok.mpr ⟨hmay, hstatus, rfl⟩
  have hvalid : (db.rows.update (saveRetry now)).Valid := (update_valid hasset).mpr (saveRetry_valid now (db.valid _ hasset))
  rw [hok, Database.settle_ok hvalid]
  exact updated_row hasset

/-- Without an id, the task of a retry makes its call. -/
theorem retryAndProcess_of_unnamed (hasset : db.rows.asset = some asset) (hstatus : asset.status = .failed)
    (hmay : mayManage db.rows.lesson.instructor actor) (hid : asset.providerAssetId = "")
    (haccepted : created.status ≠ .errored) :
    (retryAndProcess settings asset actor now created db).called = some asset.sourceObjectKey ∧
      (created.Fits → ∃ after, (retryAndProcess settings asset actor now created db).state.rows.asset = some after ∧
        after.IsHandedOver created) := by
  have hplan : planProcessing (db.settle (retryProcessing asset actor now db.rows)).rows.asset =
      .ok asset.sourceObjectKey := by
    rw [settle_retry hasset hstatus hmay]
    simp [planProcessing, saveRetry, hid]
  exact ⟨processMediaAsset_called settings.maxRetries 0 hplan,
    fun hfits => (stops_handedOver settings.maxRetries 0 hplan rfl haccepted hfits).2⟩

/-- With an id, the task stops before its call. -/
theorem retryAndProcess_of_named (hasset : db.rows.asset = some asset) (hstatus : asset.status = .failed)
    (hmay : mayManage db.rows.lesson.instructor actor) (hid : asset.providerAssetId ≠ "") :
    (retryAndProcess settings asset actor now created db).called = none := by
  have hplan : planProcessing (db.settle (retryProcessing asset actor now db.rows)).rows.asset =
      .error .alreadyProcessed := by
    rw [settle_retry hasset hstatus hmay]
    simp [planProcessing, saveRetry, hid]
  simp only [retryAndProcess, processMediaAsset, hplan]

end Retry

/-! ### What the runs keep -/

section Run

variable {settings : Settings} {s : Webhooks} {env : Env}

def NamesLiveCopies (db : Database) : Prop := ∀ asset ∈ db.rows.asset, asset.NamesLiveCopy

/-- A write that keeps the id, and says failed only of a row without one. -/
theorem settle_namesLiveCopy {db : Database} {f : MediaAsset → MediaAsset}
    (hf : ∀ asset, db.rows.asset = some asset → asset.NamesLiveCopy → (f asset).NamesLiveCopy)
    (h : NamesLiveCopies db) : NamesLiveCopies (db.settle (.ok (db.rows.update f) : Except Error Rows)) := by
  refine Database.settle_induction (P := fun rows : Rows => ∀ asset ∈ rows.asset, asset.NamesLiveCopy) h ?_
  rintro rows ⟨⟩ -
  intro asset hasset
  obtain ⟨before, hbefore, rfl⟩ := Option.map_eq_some_iff.mp hasset
  exact hf before hbefore (h before hbefore)

/-- A row of another status names no copy. -/
theorem id_eq_empty {asset : MediaAsset} (h : asset.NamesLiveCopy)
    (hstatus : asset.status ∉ [MediaAssetStatus.transcoding, .ready]) : asset.providerAssetId = "" := by
  by_contra hid
  exact hstatus (h hid)

/-- A processing task keeps the id of a row, or hands a copy over. -/
theorem writeProcessing_namesLiveCopy (maxRetries : Int) (retries : Nat) (answer : Except Raised ProviderAsset)
    {asset : MediaAsset} (hid : asset.providerAssetId = "") :
    (writeProcessing maxRetries retries answer asset).NamesLiveCopy := by
  intro hnamed
  cases answer with
  | error exc =>
    simp only [writeProcessing, performProcessing] at hnamed
    split at hnamed <;> exact absurd hid hnamed
  | ok created =>
    by_cases hrefused : created.status = .errored
    · simp only [writeProcessing, performProcessing, if_pos hrefused] at hnamed
      exact absurd hid hnamed
    · rw [writeProcessing_handOver hrefused]
      simp [handOver]

theorem performWebhook_namesLiveCopy {plan : WebhookPlan} {asset : MediaAsset} (h : asset.NamesLiveCopy)
    (hfails : ∀ retryCount, plan = .errored retryCount → asset.providerAssetId = "") :
    (performWebhook plan asset).NamesLiveCopy := by
  cases plan with
  | unknownAsset => exact h
  | ready durationSeconds => exact fun _ => by simp [performWebhook, applyReady]
  | errored retryCount => exact fun hnamed => absurd (hfails retryCount rfl) hnamed
  | ignored status => exact h

/-- The plan of a webhook is to fail the asset only if its event says so. -/
theorem planWebhook_errored {provider : String} {event : ProviderWebhookEvent} {asset : MediaAsset} {retryCount : Int}
    (h : planWebhook provider event (some asset) = .errored retryCount) :
    asset.isFor provider event ∧ event.status = .errored := by
  by_cases hfor : asset.isFor provider event
  · rw [planWebhook_of_isFor hfor] at h
    cases hstatus : event.status with
    | errored => exact ⟨hfor, rfl⟩
    | _ => simp [hstatus] at h
  · rw [planWebhook_of_not_isFor hfor] at h
    cases h

/-- An upload is completed only while it is pending. -/
theorem planCompletion_of_not_pending {maxUploadBytes : Int} {lesson : Lesson} {asset : MediaAsset} {actor : User}
    {landed : Landed} (h : asset.status ≠ .pending) :
    ∃ error, planCompletion maxUploadBytes lesson asset actor landed = .refuse error := by
  unfold planCompletion
  by_cases hmay : mayManage lesson.instructor actor
  · rw [if_neg (not_not.mpr hmay), if_pos h]
    exact ⟨_, rfl⟩
  · rw [if_pos hmay]
    exact ⟨_, rfl⟩

theorem completeUpload_namesLiveCopies {maxUploadBytes : Int} {asset : MediaAsset} {actor : User} {landed : Landed}
    {now : Instant} {db : Database} (hasset : db.rows.asset = some asset)
    (h : NamesLiveCopies db) :
    NamesLiveCopies (db.settle (completeUpload maxUploadBytes asset actor landed now db.rows)) := by
  unfold completeUpload
  by_cases hpending : asset.status = .pending
  · have hid : ∀ asset' : MediaAsset, db.rows.asset = some asset' → asset'.providerAssetId = "" := by
      intro asset' hasset'
      obtain rfl := Option.some.inj (hasset.symm.trans hasset')
      exact id_eq_empty (h asset hasset) (by simp [hpending])
    cases planCompletion maxUploadBytes db.rows.lesson asset actor landed with
    | refuse error => exact h
    | fail message error => exact settle_namesLiveCopy (fun asset' hasset' _ hnamed => absurd (hid asset' hasset') hnamed) h
    | accept stored => exact settle_namesLiveCopy (fun asset' hasset' _ hnamed => absurd (hid asset' hasset') hnamed) h
  · obtain ⟨error, hplan⟩ := planCompletion_of_not_pending hpending
    rw [hplan]
    exact h

theorem retryProcessing_namesLiveCopies {asset : MediaAsset} {actor : User} {now : Instant} {db : Database}
    (hasset : db.rows.asset = some asset) (h : NamesLiveCopies db) :
    NamesLiveCopies (db.settle (retryProcessing asset actor now db.rows)) := by
  cases hresult : retryProcessing asset actor now db.rows with
  | error error => exact h
  | ok rows =>
    obtain ⟨-, hfailed, rfl⟩ := retryProcessing_ok.mp hresult
    refine settle_namesLiveCopy (fun asset' hasset' hlive hnamed => ?_) h
    obtain rfl := Option.some.inj (hasset.symm.trans hasset')
    exact absurd (id_eq_empty hlive (by simp [hfailed])) hnamed

theorem runAlone_namesLiveCopies {request : Request × Env} (hs : NamesLiveCopies s.db)
    (hG : NoCopyFails settings s request) : NamesLiveCopies (runAlone settings s request).db := by
  obtain ⟨request, env⟩ := request
  simp only [runAlone, Protocol.alone, pipeline]
  cases hload : load settings request s with
  | none => exact hs
  | some flight =>
    cases load_loaded hload with
    | uploading =>
      refine Database.settle_induction (P := fun rows : Rows => ∀ asset ∈ rows.asset, asset.NamesLiveCopy) hs ?_
      intro rows hok _ asset hasset
      obtain ⟨asset', hasset', -, hid⟩ := requestUpload_ok hok
      obtain rfl := Option.some.inj (hasset'.symm.trans hasset)
      exact fun hnamed => absurd hid hnamed
    | completing hasset => exact completeUpload_namesLiveCopies hasset hs
    | retrying hasset => exact retryProcessing_namesLiveCopies hasset hs
    | calling hplan =>
      obtain ⟨asset, hasset, hid, -⟩ := planProcessing_ok hplan
      refine settle_namesLiveCopy (fun asset' hasset' _ => ?_) hs
      obtain rfl := Option.some.inj (hasset.symm.trans hasset')
      exact writeProcessing_namesLiveCopy _ _ _ hid
    | reporting hfind =>
      rename_i pk record
      simp only [Protocol.finish, act, NamesLiveCopies, finishWebhook]
      split
      · refine settle_namesLiveCopy (fun asset hasset hlive => ?_) hs
        refine performWebhook_namesLiveCopy hlive fun retryCount hplan => ?_
        rw [hasset] at hplan
        obtain ⟨hfor, herrored⟩ := planWebhook_errored hplan
        exact hG pk rfl record hfind herrored asset hasset hfor
      · exact hs

/-- In such a state every failed asset can be sent once more. -/
theorem retryWorks_of_namesLiveCopies (hs : NamesLiveCopies s.db) : RetryWorks settings s := by
  intro asset hasset hstatus actor hmay now created haccepted
  have hid := id_eq_empty (hs asset hasset) (by simp [hstatus])
  exact retryAndProcess_of_unnamed hasset hstatus hmay hid haccepted

/-- The report that a copy on record failed leaves the asset failed with its id, and the task of a retry is past it. -/
theorem not_retryWorks_of_copyFails {request : Request × Env} (hG : ¬ NoCopyFails settings s request) :
    ¬ RetryWorks settings (runAlone settings s request) := by
  obtain ⟨request, env⟩ := request
  simp only [NoCopyFails, not_forall] at hG
  obtain ⟨pk, rfl, record, hfind, herrored, asset, hasset, hfor, hid⟩ := hG
  have hplan : planWebhook settings.provider record.payload s.db.rows.asset = .errored asset.retryCount := by
    rw [hasset, planWebhook_of_isFor hfor, herrored]
  have hafter : (runAlone settings s (.applyMediaWebhook pk, env)).db.rows.asset =
      some (applyErrored asset.retryCount asset) := by
    simp only [runAlone, Protocol.alone, pipeline, load, hfind, Option.map_some, Protocol.finish, act, hplan]
    rw [finishWebhook_asset hasset]
    exact congrArg some (if_pos (applyErrored_valid (s.db.valid asset hasset)))
  intro hworks
  let instructor : User := ⟨(runAlone settings s (.applyMediaWebhook pk, env)).db.rows.lesson.instructor, "", .instructor, false⟩
  have hmay : mayManage (runAlone settings s (.applyMediaWebhook pk, env)).db.rows.lesson.instructor instructor := by
    simp [mayManage, instructor]
  have hcalled := (hworks _ hafter rfl instructor hmay 0 ⟨"", "", "", .processing⟩ (by simp)).1
  rw [retryAndProcess_of_named hafter rfl hmay hid] at hcalled
  cases hcalled

end Run

/-- From every failure a retry sends the master once more, in exactly the runs in which no provider reports that it could
not process a copy on record. -/
theorem throughout_retryWorks_iff (settings : Settings) (lesson : Lesson) (events : List (WebhookEvent ProviderWebhookEvent))
    (run : List (Request × Env)) :
    Throughout (runAlone settings) (RetryWorks settings) (.start lesson events) run ↔
      Along (runAlone settings) (NoCopyFails settings) (.start lesson events) run := by
  refine throughout_iff_along (I := fun s => NamesLiveCopies s.db) (fun s request hs hG => runAlone_namesLiveCopies hs hG)
    (fun s request _ hG => not_retryWorks_of_copyFails hG) (fun s hs => retryWorks_of_namesLiveCopies hs) ?_
  simp [NamesLiveCopies, Webhooks.start]

/-- An upload is verified and accepted by the provider, which then reports that it failed. The retry leaves the asset
uploaded and calls nobody. -/
theorem retry_after_report_calls_nobody :
    ¬ Throughout (runAlone ⟨5368709120, 3, "fake"⟩) (RetryWorks ⟨5368709120, 3, "fake"⟩)
      (.start ⟨6, 7, "es"⟩
        [(videoWebhookView "fake").record 50 ⟨"fakeevt_1", "video.asset.errored", "fakeasset_1", .errored, none⟩])
      [(.requestUpload ⟨7, "teacher@example.test", .instructor, false⟩ "video/mp4", moment 1 "first"),
        (.completeUpload ⟨7, "teacher@example.test", .instructor, false⟩, moment 2 ""),
        (.processMediaAsset 0, moment 3 ""), (.applyMediaWebhook 50, moment 4 "")] := by
  intro hrun
  have hend := throughout_iff_earlier.mp hrun _ List.prefix_rfl
  have hretry := fun asset hasset hstatus => (hend asset hasset hstatus ⟨7, "teacher@example.test", .instructor, false⟩
    (by decide) 5 ⟨"fake", "fakeasset_2", "fakeplay_2", .processing⟩ (by decide)).1
  revert hretry
  decide

end EPlatform.MediaAssets
