import EPlatform.MediaAssets.Pipeline
import EPlatform.Runs.Repeats

/-!
# Webhook tasks that run again

A worker that dies after the writes of a task leaves it to be delivered again. Executions of recorded events, each any
number of times, and manual retries, in any order, one after the other.
-/

namespace EPlatform.MediaAssets

open Runs

inductive Operation
  | applyMediaWebhook (webhookEventId : Uuid) (now : Instant)
  | retryProcessing (actor : User) (now : Instant)
  deriving DecidableEq, Repr

def operate (provider : String) (s : Webhooks) : Operation → Webhooks
  | .applyMediaWebhook webhookEventId now => applyMediaWebhook provider webhookEventId now s
  | .retryProcessing actor now =>
    match assetsManageableBy s.db.rows actor with
    | none => s
    | some asset => s.settle (retryProcessing asset actor now s.db.rows)

/-- The event a step executes. -/
def Operation.executes : Operation → Option Uuid
  | .applyMediaWebhook webhookEventId _ => some webhookEventId
  | .retryProcessing .. => none

/-- What a person sees of processing. -/
structure Progress where
  status : MediaAssetStatus
  durationSeconds : Option Int
  errorMessage : String
  deriving DecidableEq, Repr

def MediaAsset.progress (asset : MediaAsset) : Progress := ⟨asset.status, asset.durationSeconds, asset.errorMessage⟩

def Webhooks.progress (s : Webhooks) : Option Progress := s.db.rows.asset.map (·.progress)

/-- The columns that name a copy at a provider. -/
structure Copy where
  provider : String
  assetId : String
  playbackId : String
  deriving DecidableEq, Repr

def MediaAsset.copy (asset : MediaAsset) : Copy := ⟨asset.provider, asset.providerAssetId, asset.providerPlaybackId⟩

/-- Nothing in the columns stands against calling this copy ready. -/
def Copy.MayBeReady (copy : Copy) (durationSeconds : Option Int) : Prop :=
  (copy.assetId ≠ "" ∧ copy.playbackId ≠ "") ∧ ∀ n ∈ durationSeconds, IsPositiveInteger n

instance (copy : Copy) (durationSeconds : Option Int) : Decidable (copy.MayBeReady durationSeconds) :=
  inferInstanceAs (Decidable (_ ∧ _))

/-- If the event is about this asset, its task has nothing to change. -/
def FindsItsWrite (provider : String) (s : Webhooks) (webhookEventId : Uuid) : Prop :=
  ∀ record, s.events.find? (·.pk = webhookEventId) = some record →
    ∀ asset, s.db.rows.asset = some asset → asset.isFor provider record.payload →
      match record.payload.status with
      | .ready => asset.copy.MayBeReady record.payload.durationSeconds →
          asset.progress = ⟨.ready, record.payload.durationSeconds, ""⟩
      | .errored => asset.status = .failed ∧ asset.errorMessage = "The provider failed to process this file."
      | .processing => True

/-! ### What drives the progress -/

/-- What no execution and no retry changes. -/
structure Fixed where
  lesson : Lesson
  copy : Option Copy
  events : List (Uuid × ProviderWebhookEvent)

def Webhooks.fixed (s : Webhooks) : Fixed where
  lesson := s.db.rows.lesson
  copy := s.db.rows.asset.map (·.copy)
  events := s.events.map fun record => (record.pk, record.payload)

/-- What an event about a copy makes of its progress. -/
def Copy.report (copy : Copy) (event : ProviderWebhookEvent) (progress : Progress) : Progress :=
  match event.status with
  | .ready => if copy.MayBeReady event.durationSeconds then ⟨.ready, event.durationSeconds, ""⟩ else progress
  | .errored => ⟨.failed, progress.durationSeconds, "The provider failed to process this file."⟩
  | .processing => progress

def Progress.retry (progress : Progress) : Progress :=
  if progress.status = .failed then ⟨.uploaded, progress.durationSeconds, ""⟩ else progress

def Fixed.effect (provider : String) (fixed : Fixed) : Operation → Option Progress → Option Progress
  | .applyMediaWebhook webhookEventId _, progress =>
    match fixed.events.find? (·.1 = webhookEventId), fixed.copy with
    | some (_, event), some copy =>
      if copy.provider = provider ∧ copy.assetId = event.assetId then progress.map (copy.report event) else progress
    | _, _ => progress
  | .retryProcessing actor _, progress =>
    if mayManage fixed.lesson.instructor actor then progress.map Progress.retry else progress

theorem applyReady_valid {asset : MediaAsset} {durationSeconds : Option Int} (h : asset.Valid) :
    (applyReady durationSeconds asset).Valid ↔ asset.copy.MayBeReady durationSeconds := by
  constructor
  · intro hafter
    exact ⟨hafter.readyAssetsArePlayable rfl, hafter.durationSeconds⟩
  · intro ⟨hplayable, hduration⟩
    exact ⟨h.providerIdsAreNotUrls, fun _ => hplayable, by simp [applyReady], h.sourceHasBytes, hduration, h.retryCount,
      h.lengths⟩

theorem applyErrored_errorMessage (retryCount : Int) (asset : MediaAsset) :
    (applyErrored retryCount asset).errorMessage = "The provider failed to process this file." := by
  show truncate "The provider failed to process this file." = _
  decide

theorem applyErrored_valid {asset : MediaAsset} (h : asset.Valid) : (applyErrored asset.retryCount asset).Valid := by
  refine ⟨h.providerIdsAreNotUrls, by simp [applyErrored, recordFailure], ?_, h.sourceHasBytes, h.durationSeconds,
    h.retryCount, h.lengths⟩
  intro _
  rw [applyErrored_errorMessage]
  decide

/-- What the task of an event makes of the row it finds. -/
theorem applyMediaWebhook_progress {provider : String} {webhookEventId : Uuid} {now : Instant} {s : Webhooks}
    {record : WebhookEvent ProviderWebhookEvent} {asset : MediaAsset}
    (hfind : s.events.find? (·.pk = webhookEventId) = some record) (hasset : s.db.rows.asset = some asset) :
    (applyMediaWebhook provider webhookEventId now s).progress =
      some (if asset.isFor provider record.payload then asset.copy.report record.payload asset.progress
        else asset.progress) := by
  have hvalid : asset.Valid := s.db.valid asset hasset
  simp only [applyMediaWebhook, hfind, Webhooks.progress, finishWebhook_asset hasset, Option.map_some, hasset]
  by_cases hfor : asset.isFor provider record.payload
  · rw [planWebhook_of_isFor hfor, if_pos hfor, Copy.report]
    cases record.payload.status with
    | ready =>
      by_cases hready : asset.copy.MayBeReady record.payload.durationSeconds
      · have hrow : (performWebhook (.ready record.payload.durationSeconds) asset).Valid :=
          (applyReady_valid hvalid).mpr hready
        simp only [if_pos hrow, if_pos hready]
        rfl
      · have hrow : ¬ (performWebhook (.ready record.payload.durationSeconds) asset).Valid :=
          mt (applyReady_valid hvalid).mp hready
        simp only [if_neg hrow, if_neg hready]
    | errored =>
      have hrow : (performWebhook (.errored asset.retryCount) asset).Valid := applyErrored_valid hvalid
      simp only [if_pos hrow]
      rfl
    | processing =>
      have hrow : (performWebhook (.ignored .processing) asset).Valid := hvalid
      simp only [if_pos hrow]
      rfl
  · have hrow : (performWebhook .unknownAsset asset).Valid := hvalid
    rw [planWebhook_of_not_isFor hfor, if_neg hfor, if_pos hrow]
    rfl

theorem performWebhook_copy (plan : WebhookPlan) (asset : MediaAsset) : (performWebhook plan asset).copy = asset.copy := by
  cases plan <;> rfl

/-- A write that spares the columns of the copy spares everything fixed. -/
theorem settle_fixed {s : Webhooks} {f : MediaAsset → MediaAsset} (hf : ∀ asset, (f asset).copy = asset.copy) :
    (s.settle (.ok (s.db.rows.update f))).fixed = s.fixed := by
  have hrows : ∀ rows : Rows, rows = s.db.rows.update f → rows.lesson = s.db.rows.lesson ∧
      rows.asset.map (·.copy) = s.db.rows.asset.map (·.copy) := by
    intro rows hrows
    subst hrows
    refine ⟨rfl, ?_⟩
    rw [Rows.update, Option.map_map]
    exact Option.map_congr fun asset _ => hf asset
  rcases s.db.settle_cases (.ok (s.db.rows.update f) : Except Error Rows) with hsame | ⟨rows, hok, -, hafter⟩
  · simp only [Webhooks.fixed, Webhooks.settle, hsame]
  · cases hok
    obtain ⟨hlesson, hcopy⟩ := hrows _ rfl
    simp only [Webhooks.fixed, Webhooks.settle, hafter, hlesson, hcopy]

theorem finishWebhook_fixed (pk : Uuid) (plan : WebhookPlan) (now : Instant) (s : Webhooks) :
    (finishWebhook pk plan now s).fixed = s.fixed := by
  simp only [finishWebhook]
  split
  · rw [← settle_fixed (s := s) (performWebhook_copy plan)]
    simp only [Webhooks.fixed, Webhooks.settle]
    rw [markProcessed_map]
    intros
    rfl
  · rfl

theorem operate_fixed (provider : String) (s : Webhooks) (operation : Operation) :
    (operate provider s operation).fixed = s.fixed := by
  cases operation with
  | applyMediaWebhook pk now =>
    simp only [operate, applyMediaWebhook]
    split
    · rfl
    · exact finishWebhook_fixed _ _ now s
  | retryProcessing actor now =>
    simp only [operate]
    split
    · rfl
    · rename_i asset _
      cases hresult : retryProcessing asset actor now s.db.rows with
      | error e => rfl
      | ok rows =>
        obtain ⟨-, -, rfl⟩ := retryProcessing_ok.mp hresult
        exact settle_fixed fun _ => rfl

/-- A task whose event is not recorded, or that finds no asset, leaves the progress alone. -/
theorem finishWebhook_progress_of_none {pk : Uuid} {plan : WebhookPlan} {now : Instant} {s : Webhooks}
    (h : s.db.rows.asset = none) : (finishWebhook pk plan now s).progress = none := by
  have hcopy := congrArg Fixed.copy (finishWebhook_fixed pk plan now s)
  simp only [Webhooks.fixed, h, Option.map_none, Option.map_eq_none_iff] at hcopy
  rw [Webhooks.progress, hcopy, Option.map_none]

theorem find?_fixed (s : Webhooks) (pk : Uuid) :
    s.fixed.events.find? (·.1 = pk) = (s.events.find? (·.pk = pk)).map fun record => (record.pk, record.payload) := by
  rw [Webhooks.fixed, List.find?_map]
  rfl

theorem retry_progress {s : Webhooks} {asset : MediaAsset} {actor : User} {now : Instant}
    (hasset : s.db.rows.asset = some asset) (hactor : mayManage s.db.rows.lesson.instructor actor) :
    (s.settle (retryProcessing asset actor now s.db.rows)).progress = some asset.progress.retry := by
  have hvalid : asset.Valid := s.db.valid asset hasset
  by_cases hstatus : asset.status = .failed
  · have hok : retryProcessing asset actor now s.db.rows = .ok (s.db.rows.update (saveRetry now)) :=
      retryProcessing_ok.mpr ⟨hactor, hstatus, rfl⟩
    have hafter : (s.db.rows.update (saveRetry now)).asset = some (saveRetry now asset) := by
      rw [Rows.update, hasset, Option.map_some]
    have hrows : (s.db.rows.update (saveRetry now)).Valid := by
      intro row hrow
      rw [hafter, Option.mem_some_iff] at hrow
      rw [← hrow]
      exact ⟨hvalid.providerIdsAreNotUrls, by simp [saveRetry], by simp [saveRetry], hvalid.sourceHasBytes,
        hvalid.durationSeconds, by simp [saveRetry, IsPositiveSmallInteger], hvalid.lengths⟩
    have hretry : asset.progress.retry = ⟨.uploaded, asset.durationSeconds, ""⟩ := if_pos hstatus
    rw [hok, hretry, Webhooks.settle, Database.settle_ok hrows, Webhooks.progress, hafter]
    rfl
  · have hretry : asset.progress.retry = asset.progress := if_neg hstatus
    have hrefused : retryProcessing asset actor now s.db.rows = .error (.uploadNotAllowed asset.status) := by
      simp [retryProcessing, require, hactor, hstatus, bind, Except.bind]
    rw [hrefused, hretry, Webhooks.settle, Database.settle_error, Webhooks.progress, hasset]
    rfl

theorem progress_of_asset {s : Webhooks} {asset : MediaAsset} (h : s.db.rows.asset = some asset) :
    s.progress = some asset.progress := by
  rw [Webhooks.progress, h, Option.map_some]

theorem operate_progress (provider : String) (s : Webhooks) (operation : Operation) :
    (operate provider s operation).progress = s.fixed.effect provider operation s.progress := by
  cases operation with
  | applyMediaWebhook pk now =>
    simp only [operate, Fixed.effect, find?_fixed]
    cases hfind : s.events.find? (·.pk = pk) with
    | none => simp only [applyMediaWebhook, hfind, Option.map_none]
    | some record =>
      cases hasset : s.db.rows.asset with
      | none =>
        simp only [applyMediaWebhook, hfind, Option.map_some, Webhooks.fixed, hasset, Option.map_none]
        rw [finishWebhook_progress_of_none hasset, Webhooks.progress, hasset, Option.map_none]
      | some asset =>
        rw [applyMediaWebhook_progress hfind hasset, progress_of_asset hasset]
        simp only [Option.map_some, Webhooks.fixed, hasset]
        by_cases hfor : asset.isFor provider record.payload
        · rw [if_pos hfor, if_pos]
          exact hfor
        · rw [if_neg hfor, if_neg]
          exact hfor
  | retryProcessing actor now =>
    by_cases hactor : mayManage s.db.rows.lesson.instructor actor
    · cases hasset : s.db.rows.asset with
      | none => simp [operate, Fixed.effect, assetsManageableBy, Webhooks.fixed, Webhooks.progress, hactor, hasset]
      | some asset =>
        have hfound : assetsManageableBy s.db.rows actor = some asset := by rw [assetsManageableBy, if_pos hactor, hasset]
        simp only [operate, hfound]
        rw [retry_progress hasset hactor, progress_of_asset hasset]
        exact (if_pos hactor).symm
    · simp [operate, Fixed.effect, assetsManageableBy, Webhooks.fixed, hactor]

theorem operate_drives (provider : String) :
    Drives (operate provider) Webhooks.fixed Webhooks.progress (Fixed.effect provider) :=
  ⟨operate_fixed provider, operate_progress provider⟩

/-- Executing an event changes no progress exactly when its task finds its own write. -/
theorem applyMediaWebhook_noop_iff (provider : String) (s : Webhooks) (webhookEventId : Uuid) (now : Instant) :
    (operate provider s (.applyMediaWebhook webhookEventId now)).progress = s.progress ↔
      FindsItsWrite provider s webhookEventId := by
  unfold FindsItsWrite
  cases hfind : s.events.find? (·.pk = webhookEventId) with
  | none => simp [operate, applyMediaWebhook, hfind]
  | some record =>
    simp only [Option.some.injEq, forall_eq']
    cases hasset : s.db.rows.asset with
    | none =>
      simp only [operate, applyMediaWebhook, hfind]
      rw [finishWebhook_progress_of_none hasset, Webhooks.progress, hasset]
      simp
    | some asset =>
      simp only [operate, Option.some.injEq, forall_eq']
      rw [applyMediaWebhook_progress hfind hasset, progress_of_asset hasset, Option.some.injEq]
      by_cases hfor : asset.isFor provider record.payload
      · rw [if_pos hfor, Copy.report]
        simp only [hfor, forall_const]
        cases record.payload.status with
        | ready =>
          by_cases hready : asset.copy.MayBeReady record.payload.durationSeconds
          · simp only [hready, if_true, forall_const]
            exact eq_comm
          · simp only [hready, if_false, false_implies]
        | errored =>
          simp only [MediaAsset.progress, Progress.mk.injEq, true_and]
          exact and_congr eq_comm eq_comm
        | processing => simp only
      · simp only [hfor, if_false, false_implies]

/-- Executing events again is harmless after every part of exactly those runs in which each execution of an event that
ran before finds its own write. -/
theorem reruns_harmless_iff (provider : String) (s : Webhooks) (run : List Operation) :
    (∀ earlier, earlier <+: run →
        (final (operate provider) s earlier).progress =
          (final (operate provider) s (firstTimes Operation.executes [] earlier)).progress) ↔
      ∀ earlier webhookEventId now, earlier ++ [.applyMediaWebhook webhookEventId now] <+: run →
        webhookEventId ∈ earlier.filterMap Operation.executes →
          FindsItsWrite provider (final (operate provider) s earlier) webhookEventId := by
  rw [(operate_drives provider).firstTimes_iff s run]
  constructor
  · intro hnoop earlier webhookEventId now hprefix hearlier
    have hrepeats : Repeats Operation.executes earlier (.applyMediaWebhook webhookEventId now) :=
      ⟨webhookEventId, rfl, hearlier⟩
    exact (applyMediaWebhook_noop_iff provider _ webhookEventId now).mp (hnoop earlier _ hprefix hrepeats)
  · intro hfinds earlier operation hprefix hrepeats
    obtain ⟨webhookEventId, hkey, hearlier⟩ := hrepeats
    cases operation with
    | retryProcessing actor now => cases hkey
    | applyMediaWebhook webhookEventId' now =>
      cases hkey
      exact (applyMediaWebhook_noop_iff provider _ webhookEventId now).mpr (hfinds earlier _ now hprefix hearlier)

/-- An asset being transcoded, and the provider's one report about it. -/
def transcodingAsset : Webhooks where
  db :=
    { rows :=
        { lesson := ⟨6, 7, "es"⟩
          asset := some
            { pk := 5, sourceObjectKey := ⟨6, "first", "mp4"⟩, sourceBytes := 1024, sourceChecksum := "etag"
              provider := "fake", providerAssetId := "fakeasset_1", providerPlaybackId := "fakeplay_1"
              durationSeconds := none, status := .transcoding, errorMessage := "", retryCount := 0, updatedAt := 0 } }
      valid := by decide }
  events :=
    [{ pk := 50, provider := "video:fake", providerEventId := "fakeevt_1", eventType := "video.asset.errored"
       payload := ⟨"fakeevt_1", "video.asset.errored", "fakeasset_1", .errored, none⟩, processedAt := none }]

/-- The event is executed, the instructor retries, and the task is delivered again. -/
theorem rerun_undoes_retry :
    let run : List Operation :=
      [.applyMediaWebhook 50 1, .retryProcessing ⟨7, "teacher@example.test", .instructor, false⟩ 2,
        .applyMediaWebhook 50 3]
    (final (operate "fake") transcodingAsset run).progress ≠
      (final (operate "fake") transcodingAsset (firstTimes Operation.executes [] run)).progress := by
  decide

end EPlatform.MediaAssets
