import EPlatform.MediaAssets.Pipeline
import EPlatform.MediaAssets.Webhooks
import EPlatform.Runs.Handover

/-!
# The provider's report against our own write

A processing task whose call was accepted, and the provider's one `ready` event about the id it returned, with the task
that applies it. Nothing else touches the row.
-/

namespace EPlatform.MediaAssets

open Runs

/-- The columns accept the id, and the id makes the asset playable. -/
structure ReportFits (provider : String) (created : ProviderAsset) (durationSeconds : Option Int) : Prop where
  provider : created.provider = provider
  playable : created.assetId ≠ "" ∧ created.playbackId ≠ ""
  notUrls : ¬ IsUrl created.assetId ∧ ¬ IsUrl created.playbackId
  lengths : created.provider.length ≤ 32 ∧ created.assetId.length ≤ 128 ∧ created.playbackId.length ≤ 128
  durationSeconds : ∀ n, durationSeconds = some n → IsPositiveInteger n

/-- A task past its guards, the answer it got, and the event that will be received under `webhookEventId`. -/
structure Handing where
  settings : Settings
  env : Env
  before : Webhooks
  received : List (WebhookEvent ProviderWebhookEvent)
  key : ObjectKey
  retries : Nat
  created : ProviderAsset
  event : ProviderWebhookEvent
  webhookEventId : Uuid
  passedItsGuards : planProcessing before.db.rows.asset = .ok key
  isAccepted : created.status ≠ .errored
  isReady : event.status = .ready
  isAboutIt : event.assetId = created.assetId
  isNew : ∀ asset ∈ before.db.rows.asset, ¬ asset.isFor settings.provider event
  isReceived : create ((videoWebhookView settings.provider).record webhookEventId event) before.events = .ok received

namespace Handing

variable (m : Handing)

def record : WebhookEvent ProviderWebhookEvent := (videoWebhookView m.settings.provider).record m.webhookEventId m.event

def handover : Handover Webhooks (Option Flight) where
  save s := (act m.settings m.env (.answered m.key m.retries (.ok m.created)) s).1
  receive s := { s with events := (create m.record s.events).toOption.getD s.events }
  look s := load m.settings (.applyMediaWebhook m.webhookEventId) s
  write found s := (found.map fun flight => (act m.settings m.env flight s).1).getD s

/-- The asset as it stood when the task read it. -/
theorem exists_asset : ∃ asset, m.before.db.rows.asset = some asset ∧ asset.status = .uploaded ∧ asset.Valid := by
  obtain ⟨asset, hasset, -, hstatus, -⟩ := planProcessing_ok m.passedItsGuards
  exact ⟨asset, hasset, hstatus, m.before.db.valid asset hasset⟩

end Handing

def Playable (s : Webhooks) : Prop := s.db.rows.asset.map (·.status) = some .ready

instance (s : Webhooks) : Decidable (Playable s) := inferInstanceAs (Decidable (_ = _))

/-! ### What the writes leave -/

theorem applyReady_handOver_valid {asset : MediaAsset} {provider : String} {created : ProviderAsset}
    {durationSeconds : Option Int}
    (h : asset.Valid) (hprovider : created.provider = provider) :
    (applyReady durationSeconds (handOver created asset)).Valid ↔ ReportFits provider created durationSeconds := by
  constructor
  · intro hafter
    exact ⟨hprovider, hafter.readyAssetsArePlayable rfl, hafter.providerIdsAreNotUrls, hafter.lengths.2,
      hafter.durationSeconds⟩
  · intro hfits
    exact ⟨hfits.notUrls, fun _ => hfits.playable, by simp [applyReady], h.sourceHasBytes, hfits.durationSeconds,
      h.retryCount, h.lengths.1, hfits.lengths⟩

theorem finishWebhook_unknownAsset (pk : Uuid) (now : Instant) (s : Webhooks) :
    finishWebhook pk .unknownAsset now s = { s with events := markProcessed pk now s.events } := by
  have hid : (.ok (s.db.rows.update (performWebhook .unknownAsset)) : Except Error Rows) = .ok (s.db.rows.update id) :=
    rfl
  have hcommits : Database.Commits Rows.Valid (.ok (s.db.rows.update id) : Except Error Rows) := by
    rw [update_id]
    exact s.db.valid
  simp only [finishWebhook, hid, if_pos hcommits, settle_id]

/-- A `ready` webhook makes an asset playable exactly when the columns accept it. -/
theorem finishWebhook_ready_playable {pk : Uuid} {now : Instant} {durationSeconds : Option Int} {s : Webhooks}
    {asset : MediaAsset} (hasset : s.db.rows.asset = some asset) (hstatus : asset.status ≠ .ready) :
    Playable (finishWebhook pk (.ready durationSeconds) now s) ↔ (applyReady durationSeconds asset).Valid := by
  rw [Playable, finishWebhook_asset hasset, Option.map_some, Option.some.injEq]
  by_cases hvalid : (performWebhook (.ready durationSeconds) asset).Valid
  · rw [if_pos hvalid]
    exact iff_of_true rfl hvalid
  · rw [if_neg hvalid]
    exact iff_of_false hstatus hvalid

namespace Handing

variable (m : Handing)

theorem save_eq (s : Webhooks) :
    m.handover.save s = s.settle (.ok (s.db.rows.update (handOver m.created))) := by
  simp only [handover, act, writeProcessing_handOver m.isAccepted]

theorem save_before (events : List (WebhookEvent ProviderWebhookEvent)) :
    m.handover.save ⟨m.before.db, events⟩ = ⟨(m.handover.save m.before).db, events⟩ := rfl

theorem receive_before : m.handover.receive m.before = ⟨m.before.db, m.received⟩ := by
  have hreceived : create m.record m.before.events = .ok m.received := m.isReceived
  simp only [handover, hreceived, Except.toOption, Option.getD_some]

/-- Once the event is recorded, its task finds it and decides on the row as it stands. -/
theorem look_received (db : Database) :
    m.handover.look ⟨db, m.received⟩ =
      some (.reporting m.webhookEventId (planWebhook m.settings.provider m.event db.rows.asset)) := by
  have hfound : m.received.find? (·.pk = m.webhookEventId) = some m.record := find?_create m.isReceived
  simp only [handover, load, hfound, Option.map_some]
  rfl

/-- A row without the id is nobody's, and its webhook is only marked. -/
theorem write_look_unknown {db : Database} (hunknown : ∀ asset ∈ db.rows.asset, ¬ asset.isFor m.settings.provider m.event)
    (db' : Database) : m.handover.write (m.handover.look ⟨db, m.received⟩) ⟨db', m.received⟩ =
      ⟨db', markProcessed m.webhookEventId m.env.now m.received⟩ := by
  have hplan : planWebhook m.settings.provider m.event db.rows.asset = .unknownAsset := by
    have hnone : db.rows.asset.filter (·.isFor m.settings.provider m.event) = none := by
      rw [Option.filter_eq_none_iff]
      intro asset hasset hfor
      exact hunknown asset hasset (of_decide_eq_true hfor)
    simp only [planWebhook, hnone]
  rw [look_received, hplan]
  exact finishWebhook_unknownAsset m.webhookEventId m.env.now ⟨db', m.received⟩

theorem independent : m.handover.Independent m.before := by
  have hlate := m.write_look_unknown m.isNew
  constructor
  · rfl
  · rw [receive_before, save_before, hlate, hlate]
    rfl

/-- A save leaves the id in the row, or, when the columns refuse it, the row as it was. -/
theorem save_cases :
    (∃ asset, asset.Valid ∧ (handOver m.created asset).Valid ∧
        (m.handover.save m.before).db.rows.asset = some (handOver m.created asset)) ∨
      ((∀ asset, asset.Valid → ¬ (handOver m.created asset).Valid) ∧ (m.handover.save m.before).db = m.before.db) := by
  obtain ⟨asset, hasset, -, hvalid⟩ := m.exists_asset
  have hafter : (m.before.db.rows.update (handOver m.created)).asset = some (handOver m.created asset) := by
    rw [Rows.update, hasset, Option.map_some]
  rw [save_eq]
  by_cases hfits : (handOver m.created asset).Valid
  · have hrows : (m.before.db.rows.update (handOver m.created)).Valid := by
      intro row hrow
      rw [hafter, Option.mem_some_iff] at hrow
      exact hrow ▸ hfits
    refine .inl ⟨asset, hvalid, hfits, ?_⟩
    simp only [Webhooks.settle, Database.settle_ok hrows, hafter]
  · refine .inr ⟨fun other hother hfitsOther => ?_, ?_⟩
    · exact hfits ((handOver_valid hvalid).mpr ((handOver_valid hother).mp hfitsOther))
    · have hrows : ¬ (m.before.db.rows.update (handOver m.created)).Valid := fun hrows => hfits (hrows _ hafter)
      simp only [Webhooks.settle, Database.settle_refused hrows]

/-- A lookup that came too early leaves the asset waiting. -/
theorem not_playable_of_missed :
    ¬ Playable (m.handover.save (m.handover.write (m.handover.look (m.handover.receive m.before))
      (m.handover.receive m.before))) := by
  rw [receive_before, m.write_look_unknown m.isNew, save_before, Playable]
  rcases m.save_cases with ⟨asset, -, -, hsaved⟩ | ⟨-, hsaved⟩
  · simp [hsaved, handOver]
  · obtain ⟨asset, hasset, hstatus, -⟩ := m.exists_asset
    simp [hsaved, hasset, hstatus]

/-- A lookup after the save makes the asset playable, as far as the columns accept what the provider sent. -/
theorem playable_iff_of_met :
    Playable (m.handover.write (m.handover.look (m.handover.save (m.handover.receive m.before)))
        (m.handover.save (m.handover.receive m.before))) ↔
      ReportFits m.settings.provider m.created m.event.durationSeconds := by
  rw [receive_before, save_before]
  rcases m.save_cases with ⟨asset, hvalid, hhanded, hsaved⟩ | ⟨hrefused, hsaved⟩
  · by_cases hprovider : m.created.provider = m.settings.provider
    · have hfor : (handOver m.created asset).isFor m.settings.provider m.event := ⟨hprovider, m.isAboutIt.symm⟩
      have hplan : planWebhook m.settings.provider m.event (m.handover.save m.before).db.rows.asset =
          .ready m.event.durationSeconds := by
        simp only [planWebhook, hsaved, Option.filter_some, hfor, decide_true, if_true, m.isReady]
      rw [look_received, hplan, ← applyReady_handOver_valid hvalid hprovider]
      exact finishWebhook_ready_playable hsaved (by simp [handOver])
    · rw [write_look_unknown]
      · apply iff_of_false
        · simp [Playable, hsaved, handOver]
        · exact fun hfits => hprovider hfits.provider
      · intro row hrow hfor
        rw [hsaved, Option.mem_some_iff] at hrow
        rw [← hrow] at hfor
        exact hprovider hfor.1
  · obtain ⟨asset, hasset, hstatus, hvalid⟩ := m.exists_asset
    rw [hsaved, write_look_unknown m m.isNew]
    apply iff_of_false
    · simp [Playable, hasset, hstatus]
    · intro hfits
      exact hrefused asset hvalid ((handOver_valid hvalid).mpr ⟨hfits.notUrls, hfits.lengths⟩)

/-- Once every step was taken, the asset is playable exactly when its webhook was looked up after the id was stored, and
the columns accept what the provider sent. -/
theorem finished_playable_iff {run : List Handover.Step}
    (hfinished : (final m.handover.step (Handover.start m.before) run).Finished) :
    Playable (final m.handover.step (Handover.start m.before) run).store ↔
      Along m.handover.step Handover.LooksAfterSave (Handover.start m.before) run ∧
        ReportFits m.settings.provider m.created m.event.durationSeconds :=
  Handover.finished_iff m.independent m.playable_iff_of_met m.not_playable_of_missed hfinished

end Handing

end EPlatform.MediaAssets
