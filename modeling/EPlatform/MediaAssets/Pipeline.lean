import EPlatform.MediaAssets.Tasks
import EPlatform.Runs.Interleaving

/-!
# The media pipeline under concurrency

Uploads, completions, retries, processing tasks and webhook tasks on one lesson, with every read, external call and write
of theirs a step of its own.
-/

namespace EPlatform.MediaAssets

open Runs

structure Settings where
  maxUploadBytes : Int
  maxRetries : Int
  provider : String
  deriving DecidableEq, Repr

inductive Request
  | requestUpload (actor : User) (contentType : String)
  | completeUpload (actor : User)
  | retryProcessing (actor : User)
  | processMediaAsset (retries : Nat)
  | applyMediaWebhook (webhookEventId : Uuid)
  deriving DecidableEq, Repr

/-- What has been read or answered so far, and not yet written. -/
inductive Flight
  | uploading (actor : User) (contentType : String)
  | completing (asset : MediaAsset) (actor : User)
  | retrying (asset : MediaAsset) (actor : User)
  | calling (key : ObjectKey) (retries : Nat)
  | answered (key : ObjectKey) (retries : Nat) (answer : Except Raised ProviderAsset)
  | reporting (webhookEventId : Uuid) (plan : WebhookPlan)

/-- What the clock, the random generators, the object store and the provider contribute to a step. -/
structure Env where
  now : Instant
  token : String
  newPk : Uuid
  landed : Landed
  answer : Answer ProviderAsset
  deriving DecidableEq, Repr

/-- A lesson without media. -/
def Webhooks.start (lesson : Lesson) (events : List (WebhookEvent ProviderWebhookEvent)) : Webhooks :=
  ⟨⟨⟨lesson, none⟩, by simp [Rows.Valid]⟩, events⟩

def assetsManageableBy (rows : Rows) (actor : User) : Option MediaAsset :=
  if mayManage rows.lesson.instructor actor then rows.asset else none

def load (settings : Settings) (request : Request) (s : Webhooks) : Option Flight :=
  match request with
  | .requestUpload actor contentType => some (.uploading actor contentType)
  | .completeUpload actor => (assetsManageableBy s.db.rows actor).map fun asset => .completing asset actor
  | .retryProcessing actor => (assetsManageableBy s.db.rows actor).map fun asset => .retrying asset actor
  | .processMediaAsset retries =>
    match planProcessing s.db.rows.asset with
    | .error _ => none
    | .ok key => some (.calling key retries)
  | .applyMediaWebhook webhookEventId =>
    (s.events.find? (·.pk = webhookEventId)).map fun record =>
      .reporting record.pk (planWebhook settings.provider record.payload s.db.rows.asset)

def Webhooks.settle (s : Webhooks) (result : Except Error Rows) : Webhooks := { s with db := s.db.settle result }

def act (settings : Settings) (env : Env) (flight : Flight) (s : Webhooks) : Webhooks × Option Flight :=
  match flight with
  | .uploading actor contentType =>
    (s.settle (requestUpload actor contentType env.token env.newPk env.now s.db.rows), none)
  | .completing asset actor =>
    (s.settle (completeUpload settings.maxUploadBytes asset actor env.landed env.now s.db.rows), none)
  | .retrying asset actor => (s.settle (retryProcessing asset actor env.now s.db.rows), none)
  | .calling key retries => (s, some (.answered key retries env.answer.result))
  | .answered _ retries answer =>
    (s.settle (.ok (s.db.rows.update (writeProcessing settings.maxRetries retries answer))), none)
  | .reporting webhookEventId plan => (finishWebhook webhookEventId plan env.now s, none)

def pipeline (settings : Settings) : Protocol Webhooks Flight Request Env where
  load := load settings
  act := act settings

/-! ### The stages of a request -/

/-- What a request has read when it comes to its first step. -/
inductive Loaded (settings : Settings) (s : Webhooks) : Request → Flight → Prop
  | uploading {actor contentType} : Loaded settings s (.requestUpload actor contentType) (.uploading actor contentType)
  | completing {actor asset} (hasset : s.db.rows.asset = some asset) :
    Loaded settings s (.completeUpload actor) (.completing asset actor)
  | retrying {actor asset} (hasset : s.db.rows.asset = some asset) :
    Loaded settings s (.retryProcessing actor) (.retrying asset actor)
  | calling {retries key} (hplan : planProcessing s.db.rows.asset = .ok key) :
    Loaded settings s (.processMediaAsset retries) (.calling key retries)
  | reporting {pk record} (hfind : s.events.find? (·.pk = pk) = some record) :
    Loaded settings s (.applyMediaWebhook pk)
      (.reporting record.pk (planWebhook settings.provider record.payload s.db.rows.asset))

theorem asset_of_manageable {rows : Rows} {actor : User} {asset : MediaAsset}
    (h : assetsManageableBy rows actor = some asset) : rows.asset = some asset := by
  unfold assetsManageableBy at h
  split at h
  · exact h
  · cases h

theorem load_loaded {settings : Settings} {request : Request} {s : Webhooks} {flight : Flight}
    (h : load settings request s = some flight) : Loaded settings s request flight := by
  cases request with
  | requestUpload actor contentType =>
    cases h
    exact .uploading
  | completeUpload actor =>
    obtain ⟨asset, hasset, rfl⟩ := Option.map_eq_some_iff.mp h
    exact .completing (asset_of_manageable hasset)
  | retryProcessing actor =>
    obtain ⟨asset, hasset, rfl⟩ := Option.map_eq_some_iff.mp h
    exact .retrying (asset_of_manageable hasset)
  | processMediaAsset retries =>
    simp only [load] at h
    split at h
    · cases h
    · rename_i hplan
      cases h
      exact .calling hplan
  | applyMediaWebhook pk =>
    obtain ⟨record, hfind, rfl⟩ := Option.map_eq_some_iff.mp h
    exact .reporting hfind

/-- Only a call is followed by another step: the write of its answer. -/
theorem act_next {settings : Settings} {env : Env} {flight flight' : Flight} {s : Webhooks}
    (h : (act settings env flight s).2 = some flight') :
    ∃ key retries, flight = .calling key retries ∧ flight' = .answered key retries env.answer.result := by
  cases flight with
  | calling key retries =>
    cases h
    exact ⟨key, retries, rfl, rfl⟩
  | _ => cases h

/-- How many steps a request may take after its next one. -/
def Flight.left : Flight → Nat
  | .calling .. => 1
  | _ => 0

theorem act_left {settings : Settings} {env : Env} {flight flight' : Flight} {s : Webhooks}
    (h : (act settings env flight s).2 = some flight') : flight'.left < flight.left := by
  obtain ⟨key, retries, rfl, rfl⟩ := act_next h
  exact Nat.zero_lt_one

theorem left_lt_two (flight : Flight) : flight.left < 2 := by
  cases flight <;> simp [Flight.left]

/-! ### What a step can do to the row -/

/-- The row names a copy at the provider, or says there is one. -/
def MediaAsset.HasCopy (asset : MediaAsset) : Prop :=
  asset.providerAssetId ≠ "" ∨ asset.status ∈ [MediaAssetStatus.transcoding, .ready]

/-- A write that moves neither the key nor the id, and sets no status that needs a copy without one. -/
def Quiet (f : MediaAsset → MediaAsset) : Prop :=
  ∀ asset, (f asset).Valid → (f asset).sourceObjectKey = asset.sourceObjectKey ∧
    (f asset).providerAssetId = asset.providerAssetId ∧ ((f asset).HasCopy → asset.HasCopy)

theorem id_quiet : Quiet id := fun _ _ => ⟨rfl, rfl, id⟩

/-- A status that needs no copy may be written over anything. -/
theorem quiet_of_status {f : MediaAsset → MediaAsset} (hkey : ∀ asset, (f asset).sourceObjectKey = asset.sourceObjectKey)
    (hid : ∀ asset, (f asset).providerAssetId = asset.providerAssetId)
    (hstatus : ∀ asset, (f asset).status ∉ [MediaAssetStatus.transcoding, .ready]) : Quiet f := by
  intro asset _
  refine ⟨hkey asset, hid asset, fun hcopy => ?_⟩
  rcases hcopy with hcopy | hcopy
  · rw [hid asset] at hcopy
    exact .inl hcopy
  · exact absurd hcopy (hstatus asset)

theorem saveFailure_quiet (message : String) (now : Instant) : Quiet (saveFailure message now) :=
  quiet_of_status (fun _ => rfl) (fun _ => rfl) (by simp [saveFailure])

theorem saveUpload_quiet (stored : StoredObject) (now : Instant) : Quiet (saveUpload stored now) :=
  quiet_of_status (fun _ => rfl) (fun _ => rfl) (by simp [saveUpload])

theorem saveRetry_quiet (now : Instant) : Quiet (saveRetry now) :=
  quiet_of_status (fun _ => rfl) (fun _ => rfl) (by simp [saveRetry])

theorem recordFailure_quiet (message : String) (attempts : Int) : Quiet (recordFailure message attempts) :=
  quiet_of_status (fun _ => rfl) (fun _ => rfl) (by simp [recordFailure])

theorem performWebhook_quiet (plan : WebhookPlan) : Quiet (performWebhook plan) := by
  cases plan with
  | unknownAsset => exact id_quiet
  | ready durationSeconds =>
    intro asset hvalid
    have hid : asset.providerAssetId ≠ "" := (hvalid.readyAssetsArePlayable rfl).1
    exact ⟨rfl, rfl, fun _ => .inl hid⟩
  | errored retryCount => exact recordFailure_quiet _ retryCount
  | ignored status => exact id_quiet

/-- Whatever a processing task writes is quiet, unless it hands a copy over. -/
theorem writeProcessing_quiet {maxRetries : Int} {retries : Nat} {answer : Except Raised ProviderAsset}
    (h : ∀ created, answer = .ok created → created.status = .errored) :
    Quiet (writeProcessing maxRetries retries answer) := by
  cases answer with
  | error exc =>
    intro asset hvalid
    by_cases hbudget : (retries + 1 : Int) > maxRetries
    · simp only [writeProcessing, performProcessing, hbudget, if_true] at hvalid ⊢
      exact recordFailure_quiet _ _ asset hvalid
    · simp only [writeProcessing, performProcessing, hbudget, if_false]
      exact ⟨trivial, trivial, id⟩
  | ok created =>
    intro asset hvalid
    simp only [writeProcessing, performProcessing, h created rfl, if_true] at hvalid ⊢
    exact recordFailure_quiet _ _ asset hvalid

theorem writeProcessing_handOver {maxRetries : Int} {retries : Nat} {created : ProviderAsset}
    (h : created.status ≠ .errored) :
    writeProcessing maxRetries retries (.ok created) = handOver created := by
  funext asset
  simp only [writeProcessing, performProcessing, h, if_false]

theorem handOver_valid {asset : MediaAsset} {created : ProviderAsset} (h : asset.Valid) :
    (handOver created asset).Valid ↔ (¬ IsUrl created.assetId ∧ ¬ IsUrl created.playbackId) ∧
      created.provider.length ≤ 32 ∧ created.assetId.length ≤ 128 ∧ created.playbackId.length ≤ 128 := by
  constructor
  · intro hafter
    exact ⟨hafter.providerIdsAreNotUrls, hafter.lengths.2⟩
  · intro ⟨hurls, hlengths⟩
    exact ⟨hurls, by simp [handOver], by simp [handOver], h.sourceHasBytes, h.durationSeconds, h.retryCount,
      h.lengths.1, hlengths⟩

theorem retryProcessing_ok {asset : MediaAsset} {actor : User} {now : Instant} {rows rows' : Rows} :
    retryProcessing asset actor now rows = .ok rows' ↔
      mayManage rows.lesson.instructor actor ∧ asset.status = .failed ∧ rows' = rows.update (saveRetry now) := by
  simp only [retryProcessing, bind_eq_ok, require_eq_ok, exists_const, pure_eq_ok]

/-- An accepted upload replaces the row, or makes the first one. -/
theorem requestUpload_eq_ok {actor : User} {contentType token : String} {newPk : Uuid} {now : Instant}
    {rows rows' : Rows} (h : requestUpload actor contentType token newPk now rows = .ok rows') :
    ∃ key, buildObjectKey rows.lesson.pk contentType token = .ok key ∧
      rows'.asset = some ((rows.asset.map fun asset => asset.replace key now).getD (.new newPk key now)) := by
  simp only [requestUpload, bind_eq_ok, require_eq_ok, exists_const, pure_eq_ok] at h
  obtain ⟨-, -, key, hkey, -, -, rfl⟩ := h
  exact ⟨key, hkey, rfl⟩

/-- An accepted upload leaves a row with no trace of a copy. -/
theorem requestUpload_ok {actor : User} {contentType token : String} {newPk : Uuid} {now : Instant}
    {rows rows' : Rows} (h : requestUpload actor contentType token newPk now rows = .ok rows') :
    ∃ asset, rows'.asset = some asset ∧ asset.status = .pending ∧ asset.providerAssetId = "" := by
  obtain ⟨key, -, hasset⟩ := requestUpload_eq_ok h
  refine ⟨_, hasset, ?_⟩
  cases rows.asset with
  | none => exact ⟨rfl, rfl⟩
  | some asset => exact ⟨rfl, rfl⟩

theorem update_id (rows : Rows) : rows.update id = rows := by
  simp only [Rows.update, Option.map_id, id]

theorem settle_id (db : Database) : db.settle (.ok (db.rows.update id) : Except Error Rows) = db := by
  rw [update_id]
  exact Database.settle_ok db.valid

/-- A looked-up webhook writes its row, unless the constraints refuse it. -/
theorem finishWebhook_asset {pk : Uuid} {plan : WebhookPlan} {now : Instant} {s : Webhooks} {asset : MediaAsset}
    (hasset : s.db.rows.asset = some asset) :
    (finishWebhook pk plan now s).db.rows.asset =
      some (if (performWebhook plan asset).Valid then performWebhook plan asset else asset) := by
  have hafter : (s.db.rows.update (performWebhook plan)).asset = some (performWebhook plan asset) := by
    rw [Rows.update, hasset, Option.map_some]
  have hcommits : Database.Commits Rows.Valid (.ok (s.db.rows.update (performWebhook plan)) : Except Error Rows) ↔
      (performWebhook plan asset).Valid := by
    simp only [Database.Commits, Rows.Valid, hafter, Option.mem_some_iff, forall_eq']
  simp only [finishWebhook]
  by_cases hvalid : (performWebhook plan asset).Valid
  · have hrows : (s.db.rows.update (performWebhook plan)).Valid := hcommits.mpr hvalid
    rw [if_pos (hcommits.mpr hvalid), if_pos hvalid, Database.settle_ok hrows, hafter]
  · rw [if_neg (mt hcommits.mp hvalid), if_neg hvalid, hasset]

/-- What the step of a request in flight leaves in the table of assets. -/
inductive Wrote (flight : Flight) (db : Database) : Database → Prop
  | quiet {f} (hf : Quiet f) : Wrote flight db (db.settle (.ok (db.rows.update f) : Except Error Rows))
  | replaced {db'} {asset : MediaAsset} (hasset : db'.rows.asset = some asset) (hstatus : asset.status = .pending)
      (hid : asset.providerAssetId = "") : Wrote flight db db'
  | handedOver {key retries created} (hflight : flight = .answered key retries (.ok created))
      (hstatus : created.status ≠ .errored) :
      Wrote flight db (db.settle (.ok (db.rows.update (handOver created)) : Except Error Rows))

theorem wrote_same (flight : Flight) (db : Database) : Wrote flight db db := by
  have h : Wrote flight db (db.settle (.ok (db.rows.update id) : Except Error Rows)) := .quiet id_quiet
  rwa [settle_id] at h

theorem act_wrote (settings : Settings) (env : Env) (flight : Flight) (s : Webhooks) :
    Wrote flight s.db (act settings env flight s).1.db := by
  cases flight with
  | uploading actor contentType =>
    simp only [act, Webhooks.settle]
    rcases s.db.settle_cases (requestUpload actor contentType env.token env.newPk env.now s.db.rows) with
      hsame | ⟨rows, hok, -, hrows⟩
    · rw [hsame]
      exact wrote_same _ s.db
    · obtain ⟨asset, hasset, hstatus, hid⟩ := requestUpload_ok hok
      rw [← hrows] at hasset
      exact .replaced hasset hstatus hid
  | completing asset actor =>
    simp only [act, Webhooks.settle, completeUpload]
    cases planCompletion settings.maxUploadBytes s.db.rows.lesson asset actor env.landed with
    | refuse error => exact wrote_same _ s.db
    | fail message error => exact .quiet (saveFailure_quiet message env.now)
    | accept stored => exact .quiet (saveUpload_quiet stored env.now)
  | retrying asset actor =>
    simp only [act, Webhooks.settle]
    cases hresult : retryProcessing asset actor env.now s.db.rows with
    | error e => exact wrote_same _ s.db
    | ok rows =>
      obtain ⟨-, -, rfl⟩ := retryProcessing_ok.mp hresult
      exact .quiet (saveRetry_quiet env.now)
  | calling key retries => exact wrote_same _ s.db
  | answered key retries answer =>
    by_cases hhanded : ∃ created, answer = .ok created ∧ created.status ≠ .errored
    · obtain ⟨created, rfl, hstatus⟩ := hhanded
      simp only [act, Webhooks.settle, writeProcessing_handOver hstatus]
      exact .handedOver rfl hstatus
    · refine .quiet (writeProcessing_quiet fun created hcreated => ?_)
      by_contra hstatus
      exact hhanded ⟨created, hcreated, hstatus⟩
  | reporting pk plan =>
    simp only [act, finishWebhook]
    split
    · exact .quiet (performWebhook_quiet plan)
    · exact wrote_same _ s.db

/-! ### What a step can do to the key -/

/-- The key on record. -/
def Rows.key (rows : Rows) : Option ObjectKey := rows.asset.map (·.sourceObjectKey)

theorem update_key {f : MediaAsset → MediaAsset} (hf : ∀ asset, (f asset).sourceObjectKey = asset.sourceObjectKey)
    (db : Database) : (db.settle (.ok (db.rows.update f) : Except Error Rows)).rows.key = db.rows.key := by
  rcases db.settle_cases (.ok (db.rows.update f) : Except Error Rows) with hsame | ⟨rows, hok, -, hafter⟩
  · rw [hsame]
  · cases hok
    rw [hafter, Rows.key, Rows.update, Option.map_map]
    exact Option.map_congr fun asset _ => hf asset

theorem writeProcessing_key (maxRetries : Int) (retries : Nat) (answer : Except Raised ProviderAsset)
    (asset : MediaAsset) : (writeProcessing maxRetries retries answer asset).sourceObjectKey = asset.sourceObjectKey := by
  cases answer with
  | error exc =>
    simp only [writeProcessing, performProcessing]
    split <;> rfl
  | ok created =>
    simp only [writeProcessing, performProcessing]
    split <;> rfl

theorem performWebhook_key (plan : WebhookPlan) (asset : MediaAsset) :
    (performWebhook plan asset).sourceObjectKey = asset.sourceObjectKey := by
  cases plan <;> rfl

/-- Only an accepted upload moves the key. -/
theorem act_key {settings : Settings} {env : Env} {flight : Flight} {s : Webhooks}
    (h : ∀ actor contentType, flight = .uploading actor contentType →
      ¬ Database.Commits Rows.Valid (requestUpload actor contentType env.token env.newPk env.now s.db.rows)) :
    (act settings env flight s).1.db.rows.key = s.db.rows.key := by
  cases flight with
  | uploading actor contentType =>
    simp only [act, Webhooks.settle, Database.settle_of_not_commits (h actor contentType rfl)]
  | completing asset actor =>
    simp only [act, Webhooks.settle, completeUpload]
    cases planCompletion settings.maxUploadBytes s.db.rows.lesson asset actor env.landed with
    | refuse error => rfl
    | fail message error => exact update_key (f := saveFailure message env.now) (fun _ => rfl) s.db
    | accept stored => exact update_key (f := saveUpload stored env.now) (fun _ => rfl) s.db
  | retrying asset actor =>
    simp only [act, Webhooks.settle]
    cases hresult : retryProcessing asset actor env.now s.db.rows with
    | error e => rfl
    | ok rows =>
      obtain ⟨-, -, rfl⟩ := retryProcessing_ok.mp hresult
      exact update_key (f := saveRetry env.now) (fun _ => rfl) s.db
  | calling key retries => rfl
  | answered key retries answer => exact update_key (writeProcessing_key _ _ answer) s.db
  | reporting pk plan =>
    simp only [act, finishWebhook]
    split
    · exact update_key (performWebhook_key plan) s.db
    · rfl

end EPlatform.MediaAssets
