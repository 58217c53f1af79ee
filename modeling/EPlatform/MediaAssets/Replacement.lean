import EPlatform.Catalog.Selectors
import EPlatform.Learning.Progress
import EPlatform.MediaAssets.Provenance
import EPlatform.MediaAssets.Webhooks

/-!
# What a replaced master leaves behind

One operation on the lesson after the other, and beside the row what was verified and what was processed: the checksum a
completion accepted for a key, and the copy a provider made of it. A row describes its master if each of its columns comes
from the key it holds now.
-/

namespace EPlatform.MediaAssets

open Runs Catalog Learning

/-- A checksum accepted for the object under a key. -/
structure Verification where
  key : ObjectKey
  checksum : String
  deriving DecidableEq, Repr

/-- What `create_asset` answered when it was given a key's URL. -/
structure Creation where
  key : ObjectKey
  created : ProviderAsset
  deriving DecidableEq, Repr

structure Past where
  verified : List Verification
  created : List Creation
  deriving DecidableEq, Repr

def recordWork (settings : Settings) (env : Env) (flight : Flight) (s : Webhooks) (past : Past) : Past :=
  match flight with
  | .completing asset actor =>
    match planCompletion settings.maxUploadBytes s.db.rows.lesson asset actor env.landed with
    | .accept stored => { past with verified := past.verified ++ [⟨asset.sourceObjectKey, stored.etag⟩] }
    | _ => past
  | .calling key _ =>
    match env.answer with
    | .returned created => { past with created := past.created ++ [⟨key, created⟩] }
    | .raised .. => past
  | _ => past

def worked (settings : Settings) : Protocol (Recorded Webhooks Past) (Noted Flight Unit) Request Env :=
  (pipeline settings).withHistory (recordWork settings) fun _ _ => ()

/-- One operation, run to its end. No request takes more than two steps. -/
def perform (settings : Settings) (s : Recorded Webhooks Past) (operation : Request × Env) : Recorded Webhooks Past :=
  (worked settings).alone 2 operation.2 operation.1 s

/-- Two steps are all a request takes. -/
theorem alone_eq_perform (settings : Settings) (s : Recorded Webhooks Past) (operation : Request × Env) {steps : Nat}
    (h : 2 ≤ steps) : (worked settings).alone steps operation.2 operation.1 s = perform settings s operation := by
  simp only [perform, Protocol.alone]
  cases (worked settings).load operation.1 s with
  | none => rfl
  | some f =>
    have hless : ∀ s f f', ((worked settings).act operation.2 f s).2 = some f' → f'.flight.left < f.flight.left :=
      fun s f f' hnext => act_left (Protocol.withHistory_next hnext).1
    have hleft := left_lt_two f.flight
    exact Protocol.finish_eq hless (by omega) hleft s

/-! ### The property -/

/-- The provider reported this length of a copy it had made of this key's object. -/
def MeasuredFor (s : Recorded Webhooks Past) (key : ObjectKey) (seconds : Int) : Prop :=
  ∃ creation ∈ s.past.created, creation.key = key ∧ ∃ event ∈ s.store.events.map (·.payload),
    event.assetId = creation.created.assetId ∧ event.status = .ready ∧ event.durationSeconds = some seconds

instance (s : Recorded Webhooks Past) (key : ObjectKey) (seconds : Int) : Decidable (MeasuredFor s key seconds) :=
  inferInstanceAs (Decidable (∃ creation ∈ _, _ ∧ ∃ event ∈ _, _))

/-- Every non-empty column was produced by verifying or processing the key the row holds. -/
structure DescribesItsMaster (s : Recorded Webhooks Past) (asset : MediaAsset) : Prop where
  providerAssetId : asset.providerAssetId ≠ "" →
    ∃ creation ∈ s.past.created, creation.key = asset.sourceObjectKey ∧ creation.created.assetId = asset.providerAssetId
  providerPlaybackId : asset.providerPlaybackId ≠ "" →
    ∃ creation ∈ s.past.created, creation.key = asset.sourceObjectKey ∧
      creation.created.playbackId = asset.providerPlaybackId
  durationSeconds : ∀ seconds ∈ asset.durationSeconds, MeasuredFor s asset.sourceObjectKey seconds
  sourceChecksum : asset.sourceChecksum ≠ "" → ⟨asset.sourceObjectKey, asset.sourceChecksum⟩ ∈ s.past.verified

def Describes (s : Recorded Webhooks Past) : Prop := ∀ asset ∈ s.store.db.rows.asset, DescribesItsMaster s asset

/-- The learner's completion and the course's length, whatever the other lessons of the course are, take the length of
the master there is now. -/
structure LengthsAreCurrent (s : Recorded Webhooks Past) : Prop where
  isComplete : ∀ (settings : Learning.Settings) (watchedSeconds : Int),
    isComplete settings watchedSeconds (lessonDuration s.store.db.rows.asset) = true →
      ∃ asset ∈ s.store.db.rows.asset, ∃ seconds, MeasuredFor s asset.sourceObjectKey seconds ∧ seconds ≠ 0 ∧
        settings.completionMark seconds ≤ watchedSeconds
  totalDuration : ∀ (before after : List TimedLesson) (lessonType : LessonType) (total : Int),
    totalDuration (before ++ ⟨lessonType, s.store.db.rows.asset⟩ :: after) = some total →
      ∀ asset ∈ s.store.db.rows.asset, ∃ seconds, MeasuredFor s asset.sourceObjectKey seconds ∧
        total = seconds + sumSeconds (measuredSeconds (before ++ after))

/-- A master is replaced only while its row has neither a checksum nor a duration, unless they hold of the new key. -/
def ReplacesCleanRow (s : Recorded Webhooks Past) : Request × Env → Prop
  | (.requestUpload actor contentType, env) =>
    Database.Commits Rows.Valid (requestUpload actor contentType env.token env.newPk env.now s.store.db.rows) →
      ∀ key, buildObjectKey s.store.db.rows.lesson.pk contentType env.token = .ok key →
        ∀ asset ∈ s.store.db.rows.asset,
          (asset.sourceChecksum ≠ "" → ⟨key, asset.sourceChecksum⟩ ∈ s.past.verified) ∧
            ∀ seconds ∈ asset.durationSeconds, MeasuredFor s key seconds
  | _ => True

theorem Describes.lengthsAreCurrent {s : Recorded Webhooks Past} (h : Describes s) : LengthsAreCurrent s where
  isComplete := by
    intro settings watchedSeconds hcomplete
    obtain ⟨seconds, hduration, hne, hmark⟩ := isComplete_iff.mp hcomplete
    obtain ⟨asset, hasset, hseconds⟩ := Option.bind_eq_some_iff.mp hduration
    exact ⟨asset, hasset, seconds, (h asset hasset).durationSeconds seconds hseconds, hne, hmark⟩
  totalDuration := by
    intro before after lessonType total htotal asset hasset
    obtain ⟨seconds, hseconds, hsum⟩ := totalDuration_of_asset (Option.mem_def.mp hasset) htotal
    exact ⟨seconds, (h asset hasset).durationSeconds seconds hseconds, hsum⟩

/-! ### What an operation knows at each stage -/

def PlansWhatWasReported (s : Recorded Webhooks Past) (plan : WebhookPlan) : Prop :=
  ∀ seconds, plan = .ready (some seconds) → ∃ event ∈ s.store.events.map (·.payload),
    event.status = .ready ∧ event.durationSeconds = some seconds ∧
      ∀ asset ∈ s.store.db.rows.asset, asset.providerAssetId = event.assetId

/-- What a request on its own knows at each stage. -/
def KnowsItsMaster (env : Env) (s : Recorded Webhooks Past) (f : Noted Flight Unit) : Prop :=
  match f.flight with
  | .uploading actor contentType => ReplacesCleanRow s (.requestUpload actor contentType, env)
  | .completing asset _ => s.store.db.rows.asset = some asset
  | .retrying .. => True
  | .calling key _ => s.store.db.rows.key = some key
  | .answered key _ answer => s.store.db.rows.key = some key ∧ ∀ created, answer = .ok created →
      ⟨key, created⟩ ∈ s.past.created
  | .reporting _ plan => PlansWhatWasReported s plan

/-! ### What a write keeps -/

/-- The columns the property reads. -/
def MediaAsset.traces (asset : MediaAsset) : ObjectKey × String × String × Option Int × String :=
  (asset.sourceObjectKey, asset.providerAssetId, asset.providerPlaybackId, asset.durationSeconds, asset.sourceChecksum)

/-- More on record keeps what the row says. -/
theorem MeasuredFor.mono {s s' : Recorded Webhooks Past} {key : ObjectKey} {seconds : Int}
    (h : MeasuredFor s key seconds) (hcreated : s.past.created ⊆ s'.past.created)
    (hevents : s'.store.events.map (·.payload) = s.store.events.map (·.payload)) : MeasuredFor s' key seconds := by
  obtain ⟨creation, hcreation, hkey, event, hevent, hreport⟩ := h
  exact ⟨creation, hcreated hcreation, hkey, event, hevents ▸ hevent, hreport⟩

/-- The record grew, and no event was lost. -/
structure Later (s s' : Recorded Webhooks Past) : Prop where
  verified : s.past.verified ⊆ s'.past.verified
  created : s.past.created ⊆ s'.past.created
  events : s'.store.events.map (·.payload) = s.store.events.map (·.payload)

theorem DescribesItsMaster.later {s s' : Recorded Webhooks Past} {asset asset' : MediaAsset}
    (h : DescribesItsMaster s asset) (hlater : Later s s') (htraces : asset'.traces = asset.traces) :
    DescribesItsMaster s' asset' := by
  simp only [MediaAsset.traces, Prod.mk.injEq] at htraces
  obtain ⟨hkey, hid, hplayback, hduration, hchecksum⟩ := htraces
  constructor
  · rw [hid, hkey]
    intro hne
    obtain ⟨creation, hcreation, hfor⟩ := h.providerAssetId hne
    exact ⟨creation, hlater.created hcreation, hfor⟩
  · rw [hplayback, hkey]
    intro hne
    obtain ⟨creation, hcreation, hfor⟩ := h.providerPlaybackId hne
    exact ⟨creation, hlater.created hcreation, hfor⟩
  · rw [hduration, hkey]
    intro seconds hseconds
    exact (h.durationSeconds seconds hseconds).mono hlater.created hlater.events
  · rw [hchecksum, hkey]
    intro hne
    exact hlater.verified (h.sourceChecksum hne)

theorem later_recordWork (settings : Settings) (env : Env) (f : Noted Flight Unit) (s : Recorded Webhooks Past) :
    Later s ((worked settings).act env f s).1 := by
  obtain ⟨flight, note⟩ := f
  refine ⟨?_, ?_, ?_⟩
  · simp only [worked, Protocol.withHistory_past, recordWork]
    split
    · split
      · exact List.subset_append_left _ _
      · exact List.Subset.refl _
    · split <;> exact List.Subset.refl _
    · exact List.Subset.refl _
  · simp only [worked, Protocol.withHistory_past, recordWork]
    split
    · split <;> exact List.Subset.refl _
    · split
      · exact List.subset_append_left _ _
      · exact List.Subset.refl _
    · exact List.Subset.refl _
  · simp only [worked, Protocol.withHistory_store, pipeline]
    cases flight with
    | reporting pk plan =>
      simp only [act, finishWebhook]
      split
      · exact markProcessed_map (fun _ _ => rfl) pk env.now s.store.events
      · rfl
    | _ => rfl

/-- A write keeps the row's description if it does so for the row it finds. -/
theorem describes_update {s s' : Recorded Webhooks Past} {f : MediaAsset → MediaAsset}
    (hs : Describes s) (hlater : Later s s')
    (hdb : s'.store.db = s.store.db.settle (.ok (s.store.db.rows.update f) : Except Error Rows))
    (hf : ∀ asset ∈ s.store.db.rows.asset, (f asset).Valid → DescribesItsMaster s asset →
      DescribesItsMaster s' (f asset)) : Describes s' := by
  rw [Describes, hdb]
  rcases s.store.db.settle_cases (.ok (s.store.db.rows.update f) : Except Error Rows) with
    hsame | ⟨rows, hok, hvalid, hrows⟩
  · rw [hsame]
    intro asset hasset
    exact (hs asset hasset).later hlater rfl
  · rw [hrows]
    cases hok
    intro asset hasset
    obtain ⟨before, hbefore, rfl⟩ := Option.map_eq_some_iff.mp hasset
    exact hf before hbefore (hvalid _ hasset) (hs before hbefore)

/-- A write that touches none of the columns keeps the row's description. -/
theorem describes_of_traces {s s' : Recorded Webhooks Past} {f : MediaAsset → MediaAsset} (hs : Describes s)
    (hlater : Later s s') (hdb : s'.store.db = s.store.db.settle (.ok (s.store.db.rows.update f) : Except Error Rows))
    (hf : ∀ asset, (f asset).traces = asset.traces) : Describes s' :=
  describes_update hs hlater hdb fun asset _ _ hasset => hasset.later hlater (hf asset)

theorem describes_of_same {s s' : Recorded Webhooks Past} (hs : Describes s) (hlater : Later s s')
    (hdb : s'.store.db = s.store.db) : Describes s' := by
  apply describes_of_traces hs hlater (f := id)
  · rw [settle_id, hdb]
  · exact fun _ => rfl

/-! ### Each operation -/

/-- A replaced row describes its new master exactly when what it keeps holds of the new key. -/
theorem describes_replace_iff {s s' : Recorded Webhooks Past} {asset : MediaAsset} {key : ObjectKey} {now : Instant}
    (hpast : s'.past = s.past) (hevents : s'.store.events = s.store.events) :
    DescribesItsMaster s' (asset.replace key now) ↔
      (asset.sourceChecksum ≠ "" → ⟨key, asset.sourceChecksum⟩ ∈ s.past.verified) ∧
        ∀ seconds ∈ asset.durationSeconds, MeasuredFor s key seconds := by
  constructor
  · intro h
    refine ⟨fun hne => hpast ▸ h.sourceChecksum hne, fun seconds hseconds => ?_⟩
    have hmeasured : MeasuredFor s' key seconds := h.durationSeconds seconds hseconds
    rwa [MeasuredFor, hpast, hevents] at hmeasured
  · intro ⟨hchecksum, hduration⟩
    refine ⟨by simp [MediaAsset.replace], by simp [MediaAsset.replace], fun seconds hseconds => ?_, fun hne => ?_⟩
    · rw [MeasuredFor, hpast, hevents]
      exact hduration seconds hseconds
    · rw [hpast]
      exact hchecksum hne

theorem describes_new (s : Recorded Webhooks Past) (pk : Uuid) (key : ObjectKey) (now : Instant) :
    DescribesItsMaster s (.new pk key now) := by
  constructor <;> simp [MediaAsset.new]

/-- An upload keeps the row's description exactly when it replaces a row that is clean. -/
theorem uploading_describes_iff {settings : Settings} {env : Env} {s : Recorded Webhooks Past} {actor : User}
    {contentType : String} {note : Unit} (hs : Describes s) :
    Describes ((worked settings).act env ⟨.uploading actor contentType, note⟩ s).1 ↔
      ReplacesCleanRow s (.requestUpload actor contentType, env) := by
  set s' := ((worked settings).act env ⟨.uploading actor contentType, note⟩ s).1 with hs'
  have hpast : s'.past = s.past := rfl
  have hevents : s'.store.events = s.store.events := rfl
  have hdb : s'.store.db =
      s.store.db.settle (requestUpload actor contentType env.token env.newPk env.now s.store.db.rows) := rfl
  by_cases hcommits : Database.Commits Rows.Valid
      (requestUpload actor contentType env.token env.newPk env.now s.store.db.rows)
  · obtain ⟨rows, hok, hvalid⟩ := Database.commits_iff.mp hcommits
    obtain ⟨key, hkey, hasset⟩ := requestUpload_eq_ok hok
    have hrows : s'.store.db.rows = rows := by rw [hdb, hok, Database.settle_ok hvalid]
    simp only [ReplacesCleanRow, hcommits, forall_const, hkey, Except.ok.injEq, forall_eq', Describes, hrows, hasset,
      Option.mem_some_iff]
    cases hbefore : s.store.db.rows.asset with
    | none => simpa using describes_new s' env.newPk key env.now
    | some asset => simpa using describes_replace_iff hpast hevents
  · have hsame : s'.store.db = s.store.db := by rw [hdb, Database.settle_of_not_commits hcommits]
    have hdescribes : Describes s' := describes_of_same hs (later_recordWork settings env _ s) hsame
    exact iff_of_true hdescribes fun h => absurd h hcommits

theorem completing_describes {settings : Settings} {env : Env} {s : Recorded Webhooks Past} {asset : MediaAsset}
    {actor : User} {note : Unit} (hs : Describes s) (hasset : s.store.db.rows.asset = some asset) :
    Describes ((worked settings).act env ⟨.completing asset actor, note⟩ s).1 := by
  have hlater := later_recordWork settings env ⟨.completing asset actor, note⟩ s
  set s' := ((worked settings).act env ⟨.completing asset actor, note⟩ s).1 with hs'
  have hdb : s'.store.db = s.store.db.settle
      ((planCompletion settings.maxUploadBytes s.store.db.rows.lesson asset actor env.landed).transaction env.now
        s.store.db.rows) := rfl
  cases hplan : planCompletion settings.maxUploadBytes s.store.db.rows.lesson asset actor env.landed with
  | refuse error =>
    rw [hplan] at hdb
    exact describes_of_same hs hlater hdb
  | fail message error =>
    rw [hplan] at hdb
    exact describes_of_traces (f := saveFailure message env.now) hs hlater hdb fun _ => rfl
  | accept stored =>
    rw [hplan] at hdb
    apply describes_update (f := saveUpload stored env.now) hs hlater hdb
    intro row hrow _ hdescribes
    have hsame : row = asset := Option.some.inj (hrow.symm.trans hasset)
    have hkept : DescribesItsMaster s' row := hdescribes.later hlater rfl
    refine ⟨hkept.providerAssetId, hkept.providerPlaybackId, hkept.durationSeconds, fun _ => ?_⟩
    have hpast : s'.past = { s.past with verified := s.past.verified ++ [⟨asset.sourceObjectKey, stored.etag⟩] } := by
      simp only [hs', worked, Protocol.withHistory_past, recordWork, hplan]
    rw [hpast, hsame]
    exact List.mem_append_right _ (List.mem_singleton_self _)

/-- A copy handed over to the row whose key it was made of. -/
theorem describes_handOver {s : Recorded Webhooks Past} {asset : MediaAsset} {created : ProviderAsset}
    (h : DescribesItsMaster s asset) (hcreated : ⟨asset.sourceObjectKey, created⟩ ∈ s.past.created) :
    DescribesItsMaster s (handOver created asset) where
  providerAssetId _ := ⟨_, hcreated, rfl, rfl⟩
  providerPlaybackId _ := ⟨_, hcreated, rfl, rfl⟩
  durationSeconds := h.durationSeconds
  sourceChecksum := h.sourceChecksum

theorem answered_describes {settings : Settings} {env : Env} {s : Recorded Webhooks Past} {key : ObjectKey}
    {retries : Nat} {answer : Except Raised ProviderAsset} {note : Unit} (hs : Describes s)
    (hkey : s.store.db.rows.key = some key)
    (hanswer : ∀ created, answer = .ok created → ⟨key, created⟩ ∈ s.past.created) :
    Describes ((worked settings).act env ⟨.answered key retries answer, note⟩ s).1 := by
  have hlater := later_recordWork settings env ⟨.answered key retries answer, note⟩ s
  apply describes_update (f := writeProcessing settings.maxRetries retries answer) hs hlater rfl
  intro asset hasset _ hdescribes
  cases answer with
  | error exc =>
    apply hdescribes.later hlater
    simp only [writeProcessing, performProcessing]
    split <;> rfl
  | ok created =>
    by_cases hstatus : created.status = .errored
    · apply hdescribes.later hlater
      simp only [writeProcessing, performProcessing, hstatus, if_true]
      rfl
    · rw [writeProcessing_handOver hstatus]
      apply describes_handOver (hdescribes.later hlater rfl)
      rw [Rows.key, Option.mem_def.mp hasset, Option.map_some, Option.some.injEq] at hkey
      rw [hkey]
      exact hlater.created (hanswer created rfl)

/-- A duration is only ever written beside an id, and the id names the copy it was reported of. -/
theorem reporting_describes {settings : Settings} {env : Env} {s : Recorded Webhooks Past} {pk : Uuid}
    {plan : WebhookPlan} {note : Unit} (hs : Describes s) (hplan : PlansWhatWasReported s plan) :
    Describes ((worked settings).act env ⟨.reporting pk plan, note⟩ s).1 := by
  have hlater := later_recordWork settings env ⟨.reporting pk plan, note⟩ s
  set s' := ((worked settings).act env ⟨.reporting pk plan, note⟩ s).1 with hs'
  have hdb : s'.store.db = s.store.db.settle (.ok (s.store.db.rows.update (performWebhook plan)) : Except Error Rows) := by
    simp only [hs', worked, Protocol.withHistory_store, pipeline, act, finishWebhook]
    split
    · rfl
    · rename_i hrefused
      exact (Database.settle_of_not_commits hrefused).symm
  apply describes_update hs hlater hdb
  intro asset hasset hvalid hdescribes
  have hkept : DescribesItsMaster s' asset := hdescribes.later hlater rfl
  cases plan with
  | ready durationSeconds =>
    refine ⟨hkept.providerAssetId, hkept.providerPlaybackId, fun seconds hseconds => ?_, hkept.sourceChecksum⟩
    have hreported : durationSeconds = some seconds := hseconds
    subst hreported
    obtain ⟨event, hevent, hready, hduration, hid⟩ := hplan seconds rfl
    have hne : asset.providerAssetId ≠ "" := (hvalid.readyAssetsArePlayable rfl).1
    obtain ⟨creation, hcreation, hkey, hcreated⟩ := hkept.providerAssetId hne
    refine ⟨creation, hcreation, hkey, event, hlater.events ▸ hevent, ?_, hready, hduration⟩
    rw [hcreated, hid asset hasset]
  | _ => exact hkept.later ⟨List.Subset.refl _, List.Subset.refl _, rfl⟩ rfl

/-! ### One operation after the other -/

theorem planWebhook_reported {provider : String} {record : WebhookEvent ProviderWebhookEvent} {s : Recorded Webhooks Past}
    (hrecord : record ∈ s.store.events) :
    PlansWhatWasReported s (planWebhook provider record.payload s.store.db.rows.asset) := by
  intro seconds hplan
  cases hasset : s.store.db.rows.asset with
  | none => simp [planWebhook, hasset] at hplan
  | some asset =>
    rw [hasset] at hplan
    by_cases hfor : asset.isFor provider record.payload
    · rw [planWebhook_of_isFor hfor] at hplan
      cases hstatus : record.payload.status with
      | ready =>
        simp only [hstatus, WebhookPlan.ready.injEq] at hplan
        refine ⟨record.payload, List.mem_map_of_mem hrecord, hstatus, hplan, fun row hrow => ?_⟩
        cases hrow
        exact hfor.2
      | errored => simp [hstatus] at hplan
      | processing => simp [hstatus] at hplan
    · rw [planWebhook_of_not_isFor hfor] at hplan
      cases hplan

theorem load_knowsItsMaster {settings : Settings} {s : Recorded Webhooks Past} {request : Request} {env : Env}
    {f : Noted Flight Unit} (hguard : ReplacesCleanRow s (request, env))
    (hload : (worked settings).load request s = some f) : KnowsItsMaster env s f := by
  obtain ⟨hflight, -⟩ := Protocol.withHistory_load hload
  obtain ⟨flight, note⟩ := f
  cases load_loaded hflight with
  | uploading => exact hguard
  | completing hasset => exact hasset
  | retrying hasset => trivial
  | calling hplan =>
    obtain ⟨asset, hasset, -, -, rfl⟩ := planProcessing_ok hplan
    simp only [KnowsItsMaster, Rows.key, hasset, Option.map_some]
  | reporting hfind => exact planWebhook_reported (List.mem_of_find?_eq_some hfind)

/-- Each step of an operation on its own keeps the row's description, and the next stage knows what it has to. -/
theorem act_describes {settings : Settings} {env : Env} {s : Recorded Webhooks Past} {f : Noted Flight Unit}
    (hs : Describes s) (hf : KnowsItsMaster env s f) :
    Describes ((worked settings).act env f s).1 ∧ ∀ f', ((worked settings).act env f s).2 = some f' →
      KnowsItsMaster env ((worked settings).act env f s).1 f' := by
  have hlater := later_recordWork settings env f s
  obtain ⟨flight, note⟩ := f
  constructor
  · cases flight with
    | uploading actor contentType => exact (uploading_describes_iff hs).mpr hf
    | completing asset actor => exact completing_describes hs hf
    | retrying asset actor =>
      cases hresult : retryProcessing asset actor env.now s.store.db.rows with
      | error e =>
        apply describes_of_same hs hlater
        simp only [worked, Protocol.withHistory_store, pipeline, act, Webhooks.settle, hresult, Database.settle_error]
      | ok rows =>
        obtain ⟨-, -, hrows⟩ := retryProcessing_ok.mp hresult
        apply describes_of_traces (f := saveRetry env.now) hs hlater
        · simp only [worked, Protocol.withHistory_store, pipeline, act, Webhooks.settle, hresult, hrows]
        · exact fun _ => rfl
    | calling key retries => exact describes_of_same hs hlater rfl
    | answered key retries answer => exact answered_describes hs hf.1 hf.2
    | reporting pk plan => exact reporting_describes hs hf
  · intro f' hnext
    obtain ⟨flight', note'⟩ := f'
    obtain ⟨key, retries, rfl, rfl⟩ := act_next (Protocol.withHistory_next hnext).1
    refine ⟨hf, fun created hcreated => ?_⟩
    cases hanswer : env.answer with
    | raised exc accepted =>
      rw [hanswer] at hcreated
      cases hcreated
    | returned created' =>
      rw [hanswer] at hcreated
      cases hcreated
      simp [worked, recordWork, hanswer]

/-- An operation that starts from a row that describes its master leaves one exactly when it replaces a clean row. -/
theorem perform_describes_iff {settings : Settings} {s : Recorded Webhooks Past} (operation : Request × Env)
    (hs : Describes s) : Describes (perform settings s operation) ↔ ReplacesCleanRow s operation := by
  have hkeeps : ReplacesCleanRow s operation → Describes (perform settings s operation) := fun hguard =>
    Protocol.alone_keeps (fun _ hload => load_knowsItsMaster hguard hload) (fun _ _ hs hf => act_describes hs hf) 2 hs
  refine ⟨fun hafter => ?_, hkeeps⟩
  obtain ⟨request, env⟩ := operation
  cases request with
  | requestUpload actor contentType => exact (uploading_describes_iff hs).mp hafter
  | _ => trivial

/-- Every column comes from the master the row holds, and no length is one of a replaced file, in every state of exactly
the runs in which each replaced row is clean. -/
theorem replacement_clean_iff (settings : Settings) (lesson : Lesson) (events : List (WebhookEvent ProviderWebhookEvent))
    (run : List (Request × Env)) :
    Throughout (perform settings) (fun s => Describes s ∧ LengthsAreCurrent s) ⟨Webhooks.start lesson events, ⟨[], []⟩⟩
        run ↔
      Along (perform settings) ReplacesCleanRow ⟨Webhooks.start lesson events, ⟨[], []⟩⟩ run := by
  have hstart : Describes ⟨Webhooks.start lesson events, ⟨[], []⟩⟩ := by
    intro asset hasset
    cases hasset
  apply throughout_iff_along (I := Describes)
  · exact fun s operation hs hguard => (perform_describes_iff operation hs).mpr hguard
  · exact fun s operation hs hguard hafter => hguard ((perform_describes_iff operation hs).mp hafter.1)
  · exact fun s hs => ⟨hs, hs.lengthsAreCurrent⟩
  · exact hstart

/-- The provider reports 42 seconds and then a failure, and the master is replaced: the row keeps the 42 seconds. -/
theorem replaced_master_leaves_its_length :
    ¬ Throughout (perform ⟨5368709120, 3, "fake"⟩) (fun s => Describes s ∧ LengthsAreCurrent s)
      ⟨Webhooks.start ⟨6, 7, "es"⟩
        [(videoWebhookView "fake").record 50 ⟨"fakeevt_1", "video.asset.ready", "fakeasset_1", .ready, some 42⟩,
          (videoWebhookView "fake").record 51 ⟨"fakeevt_2", "video.asset.errored", "fakeasset_1", .errored, none⟩],
        ⟨[], []⟩⟩
      [(.requestUpload ⟨7, "teacher@example.test", .instructor, false⟩ "video/mp4", moment 1 "first"),
        (.completeUpload ⟨7, "teacher@example.test", .instructor, false⟩, moment 2 ""),
        (.processMediaAsset 0, moment 3 ""), (.applyMediaWebhook 50, moment 4 ""),
        (.applyMediaWebhook 51, moment 5 ""),
        (.requestUpload ⟨7, "teacher@example.test", .instructor, false⟩ "video/mp4", moment 6 "second")] := by
  intro hrun
  have hend := throughout_iff_earlier.mp hrun _ List.prefix_rfl
  have hlengths := fun asset hasset => (hend.1 asset hasset).durationSeconds
  revert hlengths
  decide

end EPlatform.MediaAssets
