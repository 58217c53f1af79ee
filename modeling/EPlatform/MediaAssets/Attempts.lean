import EPlatform.MediaAssets.Pipeline
import EPlatform.Runs.Retries

/-!
# Attempts at processing

`process_media_asset` as one function: its guards, the call, the write that follows, and whether it schedules a retry.
-/

namespace EPlatform.MediaAssets

open Runs

/-- What the environment brings to one execution: how its call ends, and when it asks for a retry. -/
structure Answering where
  answer : Except Raised ProviderAsset
  now : Instant

/-- The task is queued again. -/
def ProcessOutcome.again (now : Instant) : ProcessOutcome → Bool
  | .retry countdown => queueTakes now countdown
  | _ => false

/-- The texts that the write after the call sends. -/
def sentTexts (maxRetries : Int) (retries : Nat) : Except Raised ProviderAsset → List String
  | .error exc => if (retries + 1 : Int) > maxRetries then [truncate exc.message] else []
  | .ok created => if created.status = .errored then [] else [created.provider, created.assetId, created.playbackId]

/-- An execution that `retries` others came before. A retry is asked for after its count is written. -/
def processMediaAsset (maxRetries : Int) (retries : Nat) (answering : Answering) (db : Database) :
    Attempted Database ObjectKey :=
  match planProcessing db.rows.asset with
  | .error _ => ⟨db, none, false⟩
  | .ok key =>
    if ∀ text ∈ sentTexts maxRetries retries answering.answer, IsSendable text then
      let result : Except Error Rows := .ok (db.rows.update (writeProcessing maxRetries retries answering.answer))
      let outcome := db.rows.asset.map fun asset => (performProcessing maxRetries retries answering.answer asset).2
      ⟨db.settle result, some key, outcome.any (·.again answering.now) ∧ Database.Commits Rows.Valid result⟩
    else ⟨db, some key, false⟩

/-- The columns take the ids. -/
structure ProviderAsset.Fits (created : ProviderAsset) : Prop where
  notUrls : ¬ IsUrl created.assetId ∧ ¬ IsUrl created.playbackId
  lengths : created.provider.length ≤ 32 ∧ created.assetId.length ≤ 128 ∧ created.playbackId.length ≤ 128
  sendable : ∀ text ∈ [created.provider, created.assetId, created.playbackId], IsSendable text

instance (created : ProviderAsset) : Decidable created.Fits :=
  decidable_of_iff
    ((¬ IsUrl created.assetId ∧ ¬ IsUrl created.playbackId) ∧
      (created.provider.length ≤ 32 ∧ created.assetId.length ≤ 128 ∧ created.playbackId.length ≤ 128) ∧
      ∀ text ∈ [created.provider, created.assetId, created.playbackId], IsSendable text)
    ⟨fun ⟨h₁, h₂, h₃⟩ => ⟨h₁, h₂, h₃⟩, fun ⟨h₁, h₂, h₃⟩ => ⟨h₁, h₂, h₃⟩⟩

/-- What a last call leaves to be stored is text that can be sent, and an accepted copy has ids that their columns take. -/
def AnswerFits : Except Raised ProviderAsset → Prop
  | .error exc => IsSendable (truncate exc.message)
  | .ok created => created.status ≠ .errored → created.Fits

/-- The copy a provider accepted is on record, and being transcoded. -/
def MediaAsset.IsHandedOver (created : ProviderAsset) (asset : MediaAsset) : Prop :=
  asset.status = .transcoding ∧ asset.provider = created.provider ∧ asset.providerAssetId = created.assetId ∧
    asset.providerPlaybackId = created.playbackId

/-- Filed as failed, with a reason and the number of retries made. -/
def MediaAsset.IsFiled (retries : Nat) (asset : MediaAsset) : Prop :=
  asset.status = .failed ∧ asset.errorMessage ≠ "" ∧ asset.retryCount = retries

/-- After `failures` failed attempts the row is what it was but for the count. -/
def MediaAsset.waiting (failures : Nat) (asset : MediaAsset) : MediaAsset :=
  if failures = 0 then asset else { asset with retryCount := failures }

/-- The next attempt is queued, and the rows are otherwise untouched. -/
def Waits (rows : Rows) (failures : Nat) (db : Database) : Prop := db.rows = rows.update (·.waiting failures)

/-- What the row is after the last call, the `retries`-th retry. -/
def Ends (retries : Nat) (answering : Answering) (db : Database) : Prop :=
  ∃ asset, db.rows.asset = some asset ∧
    match answering.answer with
    | .error _ => asset.IsFiled retries
    | .ok created =>
      if created.status = .errored then asset.IsFiled retries else asset.IsHandedOver created

/-! ### One execution -/

section Execution

variable {maxRetries : Int} {retries : Nat} {answering : Answering} {db : Database} {asset : MediaAsset}

theorem recordFailure_filed {message : String} (h : message ≠ "") (retries : Nat) (asset : MediaAsset) :
    (recordFailure message retries asset).IsFiled retries :=
  ⟨rfl, truncate_ne_empty h, rfl⟩

theorem recordFailure_valid {message : String} (h : message ≠ "") (hretries : IsPositiveSmallInteger retries)
    (hvalid : asset.Valid) : (recordFailure message retries asset).Valid :=
  ⟨hvalid.providerIdsAreNotUrls, by simp [recordFailure], fun _ => truncate_ne_empty h, hvalid.sourceHasBytes,
    hvalid.durationSeconds, hretries, hvalid.lengths⟩

theorem retryCount_valid {count : Int} (hstatus : asset.status = .uploaded) (hcount : IsPositiveSmallInteger count)
    (hvalid : asset.Valid) : ({ asset with retryCount := count } : MediaAsset).Valid :=
  ⟨hvalid.providerIdsAreNotUrls, by simp [hstatus], by simp [hstatus], hvalid.sourceHasBytes, hvalid.durationSeconds,
    hcount, hvalid.lengths⟩

theorem updated_row {rows : Rows} {f : MediaAsset → MediaAsset} (hasset : rows.asset = some asset) :
    (rows.update f).asset = some (f asset) := by
  rw [Rows.update, hasset, Option.map_some]

theorem update_valid {rows : Rows} {f : MediaAsset → MediaAsset} (hasset : rows.asset = some asset) :
    (rows.update f).Valid ↔ (f asset).Valid := by
  simp only [Rows.Valid, updated_row hasset, Option.mem_some_iff, forall_eq']

/-- Past its guards an execution makes its call. It asks for a retry when that is what it writes and may write. -/
theorem processMediaAsset_of_ok {key : ObjectKey} (hplan : planProcessing db.rows.asset = .ok key)
    (hasset : db.rows.asset = some asset)
    (hsent : ∀ text ∈ sentTexts maxRetries retries answering.answer, IsSendable text)
    (hvalid : (writeProcessing maxRetries retries answering.answer asset).Valid) :
    processMediaAsset maxRetries retries answering db =
      ⟨⟨db.rows.update (writeProcessing maxRetries retries answering.answer), (update_valid hasset).mpr hvalid⟩, some key,
        (performProcessing maxRetries retries answering.answer asset).2.again answering.now⟩ := by
  have hrows : (db.rows.update (writeProcessing maxRetries retries answering.answer)).Valid := (update_valid hasset).mpr hvalid
  simp only [processMediaAsset, hplan, if_pos hsent, Database.settle_ok hrows]
  simp [hasset, Database.Commits, hrows]

theorem processMediaAsset_refused {key : ObjectKey} (hplan : planProcessing db.rows.asset = .ok key)
    (hasset : db.rows.asset = some asset)
    (hrefused : (∀ text ∈ sentTexts maxRetries retries answering.answer, IsSendable text) →
      ¬ (writeProcessing maxRetries retries answering.answer asset).Valid) :
    processMediaAsset maxRetries retries answering db = ⟨db, some key, false⟩ := by
  by_cases hsent : ∀ text ∈ sentTexts maxRetries retries answering.answer, IsSendable text
  · have hrows : ¬ (db.rows.update (writeProcessing maxRetries retries answering.answer)).Valid :=
      mt (update_valid hasset).mp (hrefused hsent)
    simp only [processMediaAsset, hplan, if_pos hsent, Database.settle_refused hrows]
    simp [Database.Commits, hrows]
  · simp only [processMediaAsset, hplan, if_neg hsent]

end Execution

/-! ### The budget -/

section Budget

variable {maxRetries n : Nat} {answering : Answering} {db : Database} {rows : Rows} {asset : MediaAsset} {key : ObjectKey}

theorem waits_zero (db : Database) : Waits db.rows 0 db := by
  have hsame : MediaAsset.waiting 0 = id := rfl
  rw [Waits, hsame, update_id]

theorem Waits.row (h : Waits rows n db) (hasset : rows.asset = some asset) :
    db.rows.asset = some (asset.waiting n) := by
  rw [h, updated_row hasset]

theorem waiting_status (n : Nat) (asset : MediaAsset) : (asset.waiting n).status = asset.status := by
  unfold MediaAsset.waiting
  split <;> rfl

/-- While it waits for a retry, the row still passes the guards. -/
theorem Waits.passes (h : Waits rows n db) (hasset : rows.asset = some asset) (hplan : planProcessing rows.asset = .ok key) :
    planProcessing db.rows.asset = .ok key := by
  have hsame : planProcessing (some (asset.waiting n)) = planProcessing (some asset) := by
    unfold MediaAsset.waiting
    split <;> rfl
  rw [h.row hasset, hsame, ← hasset, hplan]

/-- The column has taken the count. -/
theorem Waits.counted (h : Waits rows n db) (hasset : rows.asset = some asset) : n ≤ 32767 := by
  have hvalid := (db.valid _ (h.row hasset)).retryCount.2
  unfold MediaAsset.waiting at hvalid
  split at hvalid
  · omega
  · exact Int.ofNat_le.mp hvalid

/-- Whether the retry that is asked for now is queued. -/
def RetryTaken (n : Nat) (answering : Answering) : Prop := queueTakes answering.now (retryCountdown (n + 1)) = true

theorem RetryTaken.le (h : RetryTaken n answering) : n + 1 ≤ 34 := by
  by_contra hover
  rw [RetryTaken, retryCountdown, queueTakes_eq_false (by omega)] at h
  cases h

/-- An execution whose call raises, with retries left, counts it and asks the queue. -/
theorem counts (h : Waits rows n db) (hplan : planProcessing rows.asset = .ok key) (hbudget : n < maxRetries)
    (hlimit : n < 32767) (hraises : CallRaises answering.answer) :
    (processMediaAsset maxRetries n answering db).called.isSome = true ∧
      (processMediaAsset maxRetries n answering db).again = queueTakes answering.now (retryCountdown (n + 1)) ∧
      Waits rows (n + 1) (processMediaAsset maxRetries n answering db).state := by
  obtain ⟨exc, hexc⟩ := hraises
  obtain ⟨asset, hasset, -, hstatus, -⟩ := planProcessing_ok hplan
  have hperform : ∀ asset', performProcessing maxRetries n answering.answer asset' =
      ({ asset' with retryCount := (n + 1 : Int) }, .retry (retryCountdown (n + 1))) := by
    intro asset'
    simp only [hexc, performProcessing, if_neg (show ¬ (n + 1 : Int) > maxRetries by omega)]
  have hvalid : (writeProcessing maxRetries n answering.answer (asset.waiting n)).Valid := by
    rw [writeProcessing, hperform]
    refine retryCount_valid ((waiting_status n asset).trans hstatus) ?_ (db.valid _ (h.row hasset))
    exact ⟨by omega, by omega⟩
  have hsent : sentTexts maxRetries n answering.answer = [] := by
    simp only [hexc, sentTexts, if_neg (show ¬ (n + 1 : Int) > maxRetries by omega)]
  rw [processMediaAsset_of_ok (h.passes hasset hplan) (h.row hasset) (by simp [hsent]) hvalid, hperform]
  refine ⟨rfl, rfl, ?_⟩
  show db.rows.update _ = _
  rw [show db.rows = _ from h]
  simp only [Rows.update, Option.map_map]
  congr 2
  funext asset'
  simp only [Function.comp_apply, writeProcessing, hperform, MediaAsset.waiting]
  split <;> simp

/-- The failure that the column cannot count raises in the handler, and no retry is asked for. -/
theorem raises_uncounted (h : Waits rows n db) (hplan : planProcessing rows.asset = .ok key) (hbudget : n < maxRetries)
    (hover : 32767 ≤ n) (hraises : CallRaises answering.answer) :
    processMediaAsset maxRetries n answering db = ⟨db, some key, false⟩ := by
  obtain ⟨exc, hexc⟩ := hraises
  obtain ⟨asset, hasset, -⟩ := planProcessing_ok hplan
  refine processMediaAsset_refused (h.passes hasset hplan) (h.row hasset) fun _ hvalid => ?_
  have hcount := hvalid.retryCount.2
  simp only [hexc, writeProcessing, performProcessing, if_neg (show ¬ (n + 1 : Int) > maxRetries by omega)] at hcount
  omega

/-- Past its guards an execution makes its call, whatever comes of it. -/
theorem processMediaAsset_called (maxRetries : Int) (retries : Nat) (hplan : planProcessing db.rows.asset = .ok key) :
    (processMediaAsset maxRetries retries answering db).called = some key := by
  simp only [processMediaAsset, hplan]
  split <;> rfl

/-- An execution that files its failure is the last. -/
theorem stops_filed {retries : Nat} {message : String} {outcome : ProcessOutcome} (hplan : planProcessing db.rows.asset = .ok key)
    (hperform : ∀ asset, performProcessing maxRetries retries answering.answer asset =
      (recordFailure message retries asset, outcome))
    (hsent : ∀ text ∈ sentTexts maxRetries retries answering.answer, IsSendable text) (hmessage : message ≠ "")
    (houtcome : outcome.again answering.now = false) (hlimit : retries ≤ 32767) :
    (processMediaAsset maxRetries retries answering db).called.isSome = true ∧
      (processMediaAsset maxRetries retries answering db).again = false ∧
      ∃ asset, (processMediaAsset maxRetries retries answering db).state.rows.asset = some asset ∧ asset.IsFiled retries := by
  obtain ⟨asset, hasset, -⟩ := planProcessing_ok hplan
  have hvalid : (writeProcessing maxRetries retries answering.answer asset).Valid := by
    rw [writeProcessing, hperform]
    exact recordFailure_valid hmessage ⟨by omega, by omega⟩ (db.valid _ hasset)
  rw [processMediaAsset_of_ok hplan hasset hsent hvalid, hperform]
  refine ⟨rfl, houtcome, _, updated_row hasset, ?_⟩
  rw [writeProcessing, hperform]
  exact recordFailure_filed hmessage retries asset

theorem stops_handedOver (maxRetries : Int) (retries : Nat) {created : ProviderAsset}
    (hplan : planProcessing db.rows.asset = .ok key)
    (hanswer : answering.answer = .ok created) (haccepted : created.status ≠ .errored) (hfits : created.Fits) :
    (processMediaAsset maxRetries retries answering db).again = false ∧
      ∃ asset, (processMediaAsset maxRetries retries answering db).state.rows.asset = some asset ∧
        asset.IsHandedOver created := by
  obtain ⟨asset, hasset, -⟩ := planProcessing_ok hplan
  have hwrite : writeProcessing maxRetries retries answering.answer = handOver created := by
    rw [hanswer]
    exact writeProcessing_handOver haccepted
  have houtcome : (performProcessing maxRetries retries answering.answer asset).2 = .handedToProvider := by
    simp only [hanswer, performProcessing, if_neg haccepted]
  have hvalid : (writeProcessing maxRetries retries answering.answer asset).Valid := by
    rw [hwrite]
    exact (handOver_valid (db.valid _ hasset)).mpr ⟨hfits.notUrls, hfits.lengths⟩
  have hsent : ∀ text ∈ sentTexts maxRetries retries answering.answer, IsSendable text := by
    simp only [hanswer, sentTexts, if_neg haccepted]
    exact hfits.sendable
  rw [processMediaAsset_of_ok hplan hasset hsent hvalid, houtcome]
  refine ⟨rfl, _, updated_row hasset, ?_⟩
  rw [hwrite]
  exact ⟨rfl, rfl, rfl, rfl⟩

theorem stops (h : Waits rows n db) (hplan : planProcessing rows.asset = .ok key)
    (hlast : CallRaises answering.answer → n = maxRetries) (hfits : AnswerFits answering.answer) :
    (processMediaAsset maxRetries n answering db).called.isSome = true ∧
      (processMediaAsset maxRetries n answering db).again = false ∧
      Ends n answering (processMediaAsset maxRetries n answering db).state := by
  obtain ⟨asset, hasset, -⟩ := planProcessing_ok hplan
  have hplan' := h.passes hasset hplan
  have hlimit := h.counted hasset
  unfold Ends
  cases hanswer : answering.answer with
  | error exc =>
    obtain rfl : n = maxRetries := hlast ⟨exc, hanswer⟩
    have hperform : ∀ asset, performProcessing n n answering.answer asset =
        (recordFailure exc.message n asset, .deadLettered) := by
      intro asset
      simp only [hanswer, performProcessing, if_pos (show (n + 1 : Int) > n by omega), Int.add_sub_cancel]
    have hsent : ∀ text ∈ sentTexts n n answering.answer, IsSendable text := by
      simp only [hanswer, sentTexts, if_pos (show (n + 1 : Int) > n by omega), List.mem_singleton, forall_eq]
      rwa [hanswer] at hfits
    exact stops_filed hplan' hperform hsent exc.message_ne_empty rfl hlimit
  | ok created =>
    by_cases hrefused : created.status = .errored
    · simp only [if_pos hrefused]
      have hperform : ∀ asset, performProcessing maxRetries n answering.answer asset =
          (recordFailure "The provider rejected the file." n asset, .providerRejected) := by
        intro asset
        simp only [hanswer, performProcessing, if_pos hrefused]
      have hsent : sentTexts maxRetries n answering.answer = [] := by
        simp only [hanswer, sentTexts, if_pos hrefused]
      exact stops_filed hplan' hperform (by simp [hsent]) (by decide) rfl hlimit
    · rw [hanswer] at hfits
      simp only [if_neg hrefused]
      exact ⟨Option.isSome_of_mem (processMediaAsset_called maxRetries n hplan'),
        stops_handedOver maxRetries n hplan' hanswer hrefused (hfits hrefused)⟩

/-- What does not fit is not written, and the row stays as it was. -/
theorem misses (h : Waits rows n db) (hplan : planProcessing rows.asset = .ok key)
    (hlast : CallRaises answering.answer → n = maxRetries) (hmisfit : ¬ AnswerFits answering.answer) :
    ¬ Ends n answering (processMediaAsset maxRetries n answering db).state := by
  obtain ⟨asset, hasset, -, hstatus, -⟩ := planProcessing_ok hplan
  have hrow := h.row hasset
  have hsame : processMediaAsset maxRetries n answering db = ⟨db, some key, false⟩ := by
    refine processMediaAsset_refused (h.passes hasset hplan) hrow fun hsent hvalid => hmisfit ?_
    cases hanswer : answering.answer with
    | error exc =>
      obtain rfl : n = maxRetries := hlast ⟨exc, hanswer⟩
      simp only [hanswer, sentTexts, if_pos (show (n + 1 : Int) > n by omega), List.mem_singleton, forall_eq] at hsent
      exact hsent
    | ok created =>
      intro haccepted
      rw [hanswer, writeProcessing_handOver haccepted] at hvalid
      simp only [hanswer, sentTexts, if_neg haccepted] at hsent
      have hids := (handOver_valid (db.valid _ hrow)).mp hvalid
      exact ⟨hids.1, hids.2, hsent⟩
  have huploaded : (asset.waiting n).status = .uploaded := (waiting_status n asset).trans hstatus
  rw [hsame]
  intro ⟨asset', hasset', hended⟩
  obtain rfl : asset.waiting n = asset' := Option.some.inj (hrow.symm.trans hasset')
  cases hanswer : answering.answer with
  | error exc =>
    rw [hanswer] at hended
    cases huploaded.symm.trans hended.1
  | ok created =>
    rw [hanswer] at hended hmisfit
    have haccepted : created.status ≠ .errored := fun hrefused => hmisfit fun haccepted => absurd hrefused haccepted
    simp only [if_neg haccepted] at hended
    cases huploaded.symm.trans hended.1

theorem processMediaAsset_bounded (maxRetries : Nat) (hplan : planProcessing rows.asset = .ok key) :
    Bounded (processMediaAsset maxRetries) (fun answering => CallRaises answering.answer) RetryTaken
      (fun answering => AnswerFits answering.answer) maxRetries (Waits rows) Ends where
  goesOn h hbudget hraises htaken := by
    obtain ⟨hcalled, hagain, hwaits⟩ := counts h hplan hbudget (by have := htaken.le; omega) hraises
    exact ⟨hcalled, hagain.trans htaken, hwaits⟩
  refused {n answering db} h hbudget hraises hrefused := by
    rcases Nat.lt_or_ge n 32767 with hlimit | hover
    · obtain ⟨-, hagain, -⟩ := counts h hplan hbudget hlimit hraises
      exact hagain.trans (eq_false_of_ne_true hrefused)
    · rw [raises_uncounted h hplan hbudget hover hraises]
  stops h _ hlast hfits := stops h hplan hlast hfits
  misses h _ hlast hmisfit := misses h hplan hlast hmisfit

/-- With a budget of thirty-five retries or more and calls that never return, the row goes on waiting for ever. -/
theorem waits_unqueued (answers : Nat → Answering) (hplan : planProcessing db.rows.asset = .ok key) (hover : 35 ≤ maxRetries)
    (hraises : ∀ i, CallRaises (answers i).answer) (n : Nat) :
    ∃ failures, Waits db.rows failures (executions (processMediaAsset maxRetries) answers db n).state := by
  -- the count goes up while retries are queued, and the last count is written before the queue refuses
  have hkeeps : ∀ n, (∃ failures, failures ≤ 35 ∧
      Waits db.rows failures (executions (processMediaAsset maxRetries) answers db n).state) ∧
      ∀ retries, (executions (processMediaAsset maxRetries) answers db n).queued = some retries → retries ≤ 34 ∧
        Waits db.rows retries (executions (processMediaAsset maxRetries) answers db n).state := by
    intro n
    induction n with
    | zero =>
      refine ⟨⟨0, Nat.zero_le _, waits_zero db⟩, fun retries hqueued => ?_⟩
      cases hqueued
      exact ⟨Nat.zero_le _, waits_zero db⟩
    | succ n ih =>
      rw [executions_succ, Worker.execute]
      cases hqueued : (executions (processMediaAsset maxRetries) answers db n).queued with
      | none => exact ⟨ih.1, fun retries hretries => by rw [hqueued] at hretries; cases hretries⟩
      | some retries =>
        obtain ⟨hretries, hwaits⟩ := ih.2 retries hqueued
        obtain ⟨-, hagain, hnext⟩ := counts hwaits hplan (show retries < maxRetries by omega) (by omega) (hraises retries)
        refine ⟨⟨retries + 1, by omega, hnext⟩, fun later hlater => ?_⟩
        dsimp only at hlater
        rw [hagain] at hlater
        split_ifs at hlater with htaken
        cases hlater
        exact ⟨RetryTaken.le htaken, hnext⟩
  obtain ⟨failures, -, hwaits⟩ := (hkeeps n).1
  exact ⟨failures, hwaits⟩

end Budget

end EPlatform.MediaAssets
