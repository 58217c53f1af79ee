import EPlatform.MediaAssets.Pipeline
import EPlatform.Runs.History

/-!
# What a playable asset plays

The provider's answers are recorded beside the pipeline: which id it returned for which key. Nothing ties the id of a row
to its key but the order in which they were written.
-/

namespace EPlatform.MediaAssets

open Runs

/-- The answers of `create_asset`: the key whose URL it was given, and the id it returned. -/
abbrev Calls := List (ObjectKey × String)

def recordCall (env : Env) (flight : Flight) (_ : Webhooks) (calls : Calls) : Calls :=
  match flight, env.answer with
  | .calling key _, .returned created => calls ++ [(key, created.assetId)]
  | _, _ => calls

def traced (settings : Settings) : Protocol (Recorded Webhooks Calls) (Noted Flight Unit) Request Env :=
  (pipeline settings).withHistory recordCall fun _ _ => ()

/-- A playable asset, or one about to be, is a transcode of the master on record. -/
def PlaysTheMaster (s : Recorded Webhooks Calls) : Prop :=
  ∀ asset ∈ s.store.db.rows.asset, asset.status ∈ [MediaAssetStatus.transcoding, .ready] →
    (asset.sourceObjectKey, asset.providerAssetId) ∈ s.past

instance : DecidablePred PlaysTheMaster := fun _ => inferInstanceAs (Decidable (∀ asset ∈ _, _ → _))

/-- An id is handed over to a row that still has the key the provider was given, or one the provider had returned the
same id for. -/
def HandsOverToItsKey (_ : Env) (f : Noted Flight Unit) (s : Recorded Webhooks Calls) : Prop :=
  match f.flight with
  | .answered key _ (.ok created) =>
    created.status ≠ .errored → ∀ asset ∈ s.store.db.rows.asset, (handOver created asset).Valid →
      asset.sourceObjectKey = key ∨ (asset.sourceObjectKey, created.assetId) ∈ s.past
  | _ => True

/-! ### The invariant -/

def Traceable (calls : Calls) (rows : Rows) : Prop :=
  ∀ asset ∈ rows.asset, asset.HasCopy → (asset.sourceObjectKey, asset.providerAssetId) ∈ calls

/-- An answer in flight is on record. -/
def OnRecord (s : Recorded Webhooks Calls) (f : Noted Flight Unit) : Prop :=
  match f.flight with
  | .answered key _ (.ok created) => (key, created.assetId) ∈ s.past
  | _ => True

theorem update_traceable {calls : Calls} {db : Database} {f : MediaAsset → MediaAsset}
    (hrows : Traceable calls db.rows)
    (hf : ∀ asset ∈ db.rows.asset, (f asset).Valid → (f asset).HasCopy →
      ((f asset).sourceObjectKey, (f asset).providerAssetId) ∈ calls) :
    Traceable calls (db.settle (.ok (db.rows.update f) : Except Error Rows)).rows := by
  apply Database.settle_induction hrows
  intro rows hok hvalid asset hasset hcopy
  cases hok
  obtain ⟨before, hbefore, rfl⟩ := Option.map_eq_some_iff.mp hasset
  exact hf before hbefore (hvalid _ hasset) hcopy

theorem Traceable.mono {calls later : Calls} {rows : Rows} (h : Traceable calls rows) (hcalls : calls ⊆ later) :
    Traceable later rows :=
  fun asset hasset hcopy => hcalls (h asset hasset hcopy)

theorem Traceable.playsTheMaster {s : Recorded Webhooks Calls} (h : Traceable s.past s.store.db.rows) :
    PlaysTheMaster s :=
  fun asset hasset hstatus => h asset hasset (.inr hstatus)

theorem calls_subset_recordCall (env : Env) (flight : Flight) (s : Webhooks) (calls : Calls) :
    calls ⊆ recordCall env flight s calls := by
  unfold recordCall
  split
  · exact List.subset_append_left _ _
  · exact List.Subset.refl _

theorem onRecord_mono {s s' : Recorded Webhooks Calls} {f : Noted Flight Unit} (hcalls : s.past ⊆ s'.past)
    (h : OnRecord s f) : OnRecord s' f := by
  obtain ⟨flight, note⟩ := f
  cases flight with
  | answered key retries answer =>
    cases answer with
    | error exc => trivial
    | ok created => exact hcalls h
  | _ => trivial

/-- A guarded step keeps every copy traceable. -/
theorem wrote_traceable {env : Env} {f : Noted Flight Unit} {s : Recorded Webhooks Calls} {db : Database}
    (hs : Traceable s.past s.store.db.rows) (hrecord : OnRecord s f) (hguard : HandsOverToItsKey env f s)
    (hwrote : Wrote f.flight s.store.db db) : Traceable s.past db.rows := by
  cases hwrote with
  | quiet hf =>
    apply update_traceable hs
    intro asset hasset hvalid hcopy
    obtain ⟨hkey, hid, hhas⟩ := hf asset hvalid
    rw [hkey, hid]
    exact hs asset hasset (hhas hcopy)
  | replaced hasset hstatus hid =>
    intro asset hmem hcopy
    rw [hasset, Option.mem_some_iff] at hmem
    subst hmem
    rcases hcopy with hcopy | hcopy
    · exact absurd hid hcopy
    · simp [hstatus] at hcopy
  | handedOver hflight hstatus =>
    simp only [OnRecord, hflight] at hrecord
    simp only [HandsOverToItsKey, hflight] at hguard
    apply update_traceable hs
    intro asset hasset hvalid _
    rcases hguard hstatus asset hasset hvalid with hkey | hknown
    · rw [← hkey] at hrecord
      exact hrecord
    · exact hknown

/-- Handing an id over to a row with another key shows in the row at once. -/
theorem handOver_breaks {settings : Settings} {env : Env} {f : Noted Flight Unit} {s : Recorded Webhooks Calls}
    (hguard : ¬ HandsOverToItsKey env f s) : ¬ PlaysTheMaster ((traced settings).act env f s).1 := by
  obtain ⟨flight, note⟩ := f
  cases flight with
  | answered key retries answer =>
    cases answer with
    | error exc => exact absurd trivial hguard
    | ok created =>
      simp only [HandsOverToItsKey, not_forall, not_or] at hguard
      obtain ⟨hstatus, asset, hasset, hvalid, -, hunknown⟩ := hguard
      have hafter : (s.store.db.rows.update (handOver created)).asset = some (handOver created asset) := by
        rw [Rows.update, Option.mem_def.mp hasset, Option.map_some]
      have hrows : (s.store.db.rows.update (handOver created)).Valid := by
        intro after hmem
        rw [hafter, Option.mem_some_iff] at hmem
        rw [← hmem]
        exact hvalid
      intro hplays
      simp only [PlaysTheMaster, traced, Protocol.withHistory_store, pipeline, act, Webhooks.settle,
        writeProcessing_handOver hstatus, Database.settle_ok hrows] at hplays
      exact hunknown (hplays (handOver created asset) hafter (by simp [handOver]))
  | _ => exact absurd trivial hguard

theorem traced_noninterference (settings : Settings) :
    (traced settings).Noninterference HandsOverToItsKey (fun s => Traceable s.past s.store.db.rows) OnRecord where
  load := by
    intro s request f _ hload
    obtain ⟨hload, -⟩ := Protocol.withHistory_load hload
    obtain ⟨flight, note⟩ := f
    cases load_loaded hload <;> trivial
  store := by
    intro s env f hs hrecord hguard
    have hcalls := calls_subset_recordCall env f.flight s.store s.past
    exact (wrote_traceable hs hrecord hguard (act_wrote settings env f.flight s.store)).mono hcalls
  next := by
    intro s env f f' _ _ _ hnext
    obtain ⟨hnext, -⟩ := Protocol.withHistory_next hnext
    obtain ⟨flight, note⟩ := f
    obtain ⟨flight', note'⟩ := f'
    obtain ⟨key, retries, rfl, rfl⟩ := act_next hnext
    simp only [traced, OnRecord, Protocol.withHistory_past, recordCall]
    cases env.answer with
    | raised exc accepted => trivial
    | returned created => exact List.mem_append_right _ (List.mem_singleton.mpr rfl)
  others := by
    intro s env f other _ _ _ hother
    exact onRecord_mono (calls_subset_recordCall env f.flight s.store s.past) hother

/-- A playable asset is a transcode of the master on record in every reachable state of exactly the runs in which every
hand-over finds the key it was asked for. -/
theorem throughout_playsTheMaster_iff (settings : Settings) (lesson : Lesson)
    (events : List (WebhookEvent ProviderWebhookEvent)) (run : List (Move Request Env)) :
    Throughout (traced settings).step (fun w => PlaysTheMaster w.store)
        (World.idle ⟨Webhooks.start lesson events, []⟩) run ↔
      Along (traced settings).step (Protocol.Guarded HandsOverToItsKey)
        (World.idle ⟨Webhooks.start lesson events, []⟩) run := by
  have hstart : Traceable [] (⟨lesson, none⟩ : Rows) := by
    intro asset hasset
    cases hasset
  apply (traced_noninterference settings).throughout_iff Traceable.playsTheMaster
  · intro s env f _ _ hguard
    exact handOver_breaks hguard
  · exact Protocol.holds_idle hstart

/-- A moment at which an MP4 has landed and the provider accepts what it is asked. -/
def moment (now : Instant) (token : String) : Env where
  now := now
  token := token
  newPk := 5
  landed := ⟨some ⟨1024, "video/mp4", "etag"⟩, [0, 0, 0, 24] ++ ftyp⟩
  answer := .returned ⟨"fake", "fakeasset_1", "fakeplay_1", .processing⟩

/-- The master is replaced between the provider's answer and the write of its id. -/
theorem replacement_during_call_is_handed_over :
    ¬ Throughout (traced ⟨5368709120, 3, "fake"⟩).step (fun w => PlaysTheMaster w.store)
      (World.idle ⟨Webhooks.start ⟨6, 7, "es"⟩ [], []⟩)
      [.load (.requestUpload ⟨7, "teacher@example.test", .instructor, false⟩ "video/mp4"), .act 0 (moment 1 "first"),
        .load (.completeUpload ⟨7, "teacher@example.test", .instructor, false⟩), .act 0 (moment 2 ""),
        .load (.processMediaAsset 0), .act 0 (moment 3 ""),
        .load (.requestUpload ⟨7, "teacher@example.test", .instructor, false⟩ "video/mp4"), .act 1 (moment 4 "second"),
        .act 0 (moment 5 "")] := by
  decide

end EPlatform.MediaAssets
