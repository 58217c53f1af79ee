import EPlatform.MediaAssets.Bucket

/-!
# What is handed over

Every object a task hands to the provider is recorded with the checksum the row has at that moment. A key awaits its
hand-over when a task has passed its guards with it, or would pass them now. The object under such a key has to stay what
was verified, and only two kinds of step can change that: a PUT to it, and the write of an acceptance.
-/

namespace EPlatform.MediaAssets.Bucket

open Runs

structure Handed where
  key : ObjectKey
  object : Object
  sourceChecksum : Option String
  deriving DecidableEq, Repr

def recordHandOver (_ : Env) (flight : Flight) (s : Store) (handed : List Handed) : List Handed :=
  match flight with
  | .calling key _ => handed ++ ((s.objects key).map (⟨key, ·, s.db.rows.asset.map (·.sourceChecksum)⟩)).toList
  | _ => handed

def recorded (settings : Settings) : Protocol (Recorded Store (List Handed)) (Noted Flight Unit) Request Env :=
  (protocol settings).withHistory recordHandOver fun _ _ => ()

abbrev World := Runs.World (Recorded Store (List Handed)) (Noted Flight Unit)

def World.start (lesson : Lesson) : World := Runs.World.idle ⟨Store.start lesson, []⟩

/-- An object that passes the checks, under the etag that was recorded. -/
structure Object.Matches (maxUploadBytes : Int) (object : Object) (sourceChecksum : String) : Prop where
  sizeBytes : object.stored.sizeBytes ≤ maxUploadBytes
  looksLike : looksLike object.start object.stored.contentType = true
  etag : object.stored.etag = sourceChecksum

instance (maxUploadBytes : Int) (object : Object) (sourceChecksum : String) :
    Decidable (object.Matches maxUploadBytes sourceChecksum) :=
  decidable_of_iff
    (object.stored.sizeBytes ≤ maxUploadBytes ∧ MediaAssets.looksLike object.start object.stored.contentType = true ∧
      object.stored.etag = sourceChecksum)
    ⟨fun ⟨h₁, h₂, h₃⟩ => ⟨h₁, h₂, h₃⟩, fun ⟨h₁, h₂, h₃⟩ => ⟨h₁, h₂, h₃⟩⟩

/-- What was verified is what is transcoded. -/
def HandedVerified (settings : Settings) (w : World) : Prop :=
  ∀ handed ∈ w.store.past, handed.sourceChecksum.any (handed.object.Matches settings.maxUploadBytes ·)

instance (settings : Settings) : DecidablePred (HandedVerified settings) :=
  fun _ => inferInstanceAs (Decidable (∀ handed ∈ _, _))

/-! ### The condition -/

/-- The key a task is about to hand over. -/
def calledKey (f : Noted Flight Unit) : Option ObjectKey :=
  match f.flight with
  | .calling key _ => some key
  | _ => none

def calledKeys (w : World) : List ObjectKey := Protocol.gather calledKey w

def awaited (w : World) : List ObjectKey :=
  (planProcessing w.store.store.db.rows.asset).toOption.toList ++ calledKeys w

/-- The keys that await their hand-over once an acceptance is written over this row. -/
def awaitedOnceAccepted (asset : MediaAsset) (w : World) : List ObjectKey :=
  (if asset.providerAssetId = "" then [asset.sourceObjectKey] else []) ++ calledKeys w

/-- A PUT to a key that awaits its hand-over sends what was verified, and an acceptance is written only over objects that
still are what it verified. -/
def KeepsWhatWasVerified (settings : Settings) (w : World) : Move Request Env → Prop
  | .load _ => True
  | .act index env => ∀ f, w.inflight[index]? = some f →
    match f.flight with
    | .putting upload body =>
      upload ∈ w.store.store.uploads → env.now ≤ upload.expiresAt → upload.key ∈ awaited w →
        ∃ asset ∈ w.store.store.db.rows.asset,
          (upload.object body).Matches settings.maxUploadBytes asset.sourceChecksum
    | .accepting stored =>
      Database.Commits Rows.Valid (.ok (w.store.store.db.rows.update (saveUpload stored env.now)) : Except Error Rows) →
        ∀ asset ∈ w.store.store.db.rows.asset, ∀ key ∈ awaitedOnceAccepted asset w,
          ∀ object ∈ w.store.store.objects key, object.Matches settings.maxUploadBytes stored.etag
    | _ => True

/-! ### The invariant -/

/-- Whatever lies under a key that awaits its hand-over matches the row. -/
def Matched (settings : Settings) (s : Store) (keys : List ObjectKey) : Prop :=
  ∀ key ∈ keys, ∀ object ∈ s.objects key, ∃ asset ∈ s.db.rows.asset,
    object.Matches settings.maxUploadBytes asset.sourceChecksum

def AwaitedVerified (settings : Settings) (w : World) : Prop := Matched settings w.store.store (awaited w)

/-- Fewer keys, fewer objects and the same checksums leave nothing new to verify. -/
theorem Matched.mono {settings : Settings} {s s' : Store} {keys keys' : List ObjectKey} (h : Matched settings s keys)
    (hkeys : keys' ⊆ keys) (hobjects : ∀ key ∈ keys', ∀ object ∈ s'.objects key, object ∈ s.objects key)
    (hchecksum : ∀ asset ∈ s.db.rows.asset, ∃ asset' ∈ s'.db.rows.asset, asset'.sourceChecksum = asset.sourceChecksum) :
    Matched settings s' keys' := by
  intro key hkey object hobject
  obtain ⟨asset, hasset, hmatches⟩ := h key (hkeys hkey) object (hobjects key hkey object hobject)
  obtain ⟨asset', hasset', hsame⟩ := hchecksum asset hasset
  exact ⟨asset', hasset', hsame ▸ hmatches⟩

theorem mem_awaited {w : World} {key : ObjectKey} :
    key ∈ awaited w ↔ planProcessing w.store.store.db.rows.asset = .ok key ∨ key ∈ calledKeys w := by
  rw [awaited, List.mem_append]
  apply or_congr_left
  cases planProcessing w.store.store.db.rows.asset with
  | error e => simp [Except.toOption]
  | ok key' => simp [Except.toOption, eq_comm]

/-- A write that keeps the checksum and makes no key await its hand-over. -/
structure Tame (f : MediaAsset → MediaAsset) : Prop where
  sourceChecksum : ∀ asset, (f asset).sourceChecksum = asset.sourceChecksum
  planProcessing : ∀ asset key, planProcessing (some (f asset)) = .ok key → planProcessing (some asset) = .ok key

theorem saveFailure_tame (message : String) (now : Instant) : Tame (saveFailure message now) where
  sourceChecksum _ := rfl
  planProcessing asset key h := by
    obtain ⟨row, hrow, -, hstatus, -⟩ := planProcessing_ok h
    cases hrow
    simp [saveFailure] at hstatus

theorem recordFailure_tame (message : String) (attempts : Int) : Tame (recordFailure message attempts) where
  sourceChecksum _ := rfl
  planProcessing asset key h := by
    obtain ⟨row, hrow, -, hstatus, -⟩ := planProcessing_ok h
    cases hrow
    simp [recordFailure] at hstatus

theorem writeProcessing_tame (maxRetries : Int) (retries : Nat) (answer : Except Raised ProviderAsset) :
    Tame (writeProcessing maxRetries retries answer) := by
  cases answer with
  | error exc =>
    by_cases hbudget : (retries + 1 : Int) > maxRetries
    · have hwrite :
          writeProcessing maxRetries retries (.error exc) = recordFailure exc.message ((retries + 1 : Int) - 1) := by
        funext asset
        simp only [writeProcessing, performProcessing, hbudget, if_true]
      rw [hwrite]
      exact recordFailure_tame _ _
    · have hwrite : writeProcessing maxRetries retries (.error exc) =
          fun asset => { asset with retryCount := (retries + 1 : Int) } := by
        funext asset
        simp only [writeProcessing, performProcessing, hbudget, if_false]
      rw [hwrite]
      exact ⟨fun _ => rfl, fun _ _ h => h⟩
  | ok created =>
    by_cases hstatus : created.status = .errored
    · have hwrite : writeProcessing maxRetries retries (.ok created) =
          recordFailure "The provider rejected the file." retries := by
        funext asset
        simp only [writeProcessing, performProcessing, hstatus, if_true]
      rw [hwrite]
      exact recordFailure_tame _ _
    · rw [writeProcessing_handOver hstatus]
      refine ⟨fun _ => rfl, fun asset key h => ?_⟩
      obtain ⟨row, hrow, -, htranscoding, -⟩ := planProcessing_ok h
      cases hrow
      simp [handOver] at htranscoding

/-- What a tame write leaves in the table. -/
theorem save_tame {s : Store} {f : MediaAsset → MediaAsset} (hf : Tame f) :
    (∀ key, planProcessing (s.save f).db.rows.asset = .ok key → planProcessing s.db.rows.asset = .ok key) ∧
      ∀ asset ∈ s.db.rows.asset, ∃ asset' ∈ (s.save f).db.rows.asset, asset'.sourceChecksum = asset.sourceChecksum := by
  rcases s.db.settle_cases (.ok (s.db.rows.update f) : Except Error Rows) with hsame | ⟨rows, hok, -, hrows⟩
  · rw [Store.save, hsame]
    exact ⟨fun _ h => h, fun asset hasset => ⟨asset, hasset, rfl⟩⟩
  · cases hok
    have hafter : (s.save f).db.rows = s.db.rows.update f := hrows
    rw [hafter, Rows.update]
    cases s.db.rows.asset with
    | none => exact ⟨fun _ h => h, fun asset hasset => by cases hasset⟩
    | some asset =>
      refine ⟨fun key h => hf.planProcessing asset key h, fun row hrow => ?_⟩
      cases hrow
      exact ⟨f asset, rfl, hf.sourceChecksum asset⟩

/-! ### Each step -/

/-- Only a new task comes to the call. -/
theorem next_calledKey {settings : Settings} {env : Env} {f f' : Noted Flight Unit} {s : Recorded Store (List Handed)}
    (h : ((recorded settings).act env f s).2 = some f') : calledKey f' = none := by
  obtain ⟨hnext, -⟩ := Protocol.withHistory_next h
  obtain ⟨flight, note⟩ := f
  obtain ⟨flight', note'⟩ := f'
  have hfollow : ∀ key plan, follow key plan = some flight' → calledKey ⟨flight', note'⟩ = none := by
    intro key plan hplan
    cases plan <;> cases hplan <;> rfl
  cases flight with
  | completing asset actor =>
    simp only [protocol, act] at hnext
    split at hnext
    · cases hnext
    · split at hnext
      · exact hfollow _ _ hnext
      · cases hnext
        rfl
  | reading asset stored =>
    simp only [protocol, act] at hnext
    split at hnext
    · cases hnext
    · split at hnext
      · cases hnext
      · exact hfollow _ _ hnext
  | putting upload body =>
    simp only [protocol, act] at hnext
    split at hnext <;> cases hnext
  | discarding key message =>
    simp only [protocol, act] at hnext
    split at hnext <;> cases hnext
    rfl
  | calling key retries =>
    cases hnext
    rfl
  | _ => cases hnext

/-- A new task comes with a key that was awaited already. -/
theorem load_awaited {settings : Settings} {w : World} {request : Request} {f : Noted Flight Unit}
    (h : (recorded settings).load request w.store = some f) : (calledKey f).toList ⊆ awaited w := by
  obtain ⟨hload, -⟩ := Protocol.withHistory_load h
  obtain ⟨flight, note⟩ := f
  cases request with
  | processMediaAsset retries =>
    simp only [protocol, load] at hload
    split at hload
    · cases hload
    · rename_i key hplan
      cases hload
      intro key' hkey'
      rw [List.mem_singleton.mp hkey']
      exact mem_awaited.mpr (.inl hplan)
  | completeUpload actor =>
    obtain ⟨asset, -, hflight⟩ := Option.map_eq_some_iff.mp hload
    have hflight : Flight.completing asset actor = flight := hflight
    subst hflight
    exact List.nil_subset _
  | _ =>
    cases hload
    exact List.nil_subset _

/-- A step that makes no key awaited, no object appear and no checksum change. -/
theorem awaitedVerified_of_mono {settings : Settings} {w : World} {index : Nat} {env : Env} {f : Noted Flight Unit}
    (hw : AwaitedVerified settings w) (hindex : w.inflight[index]? = some f)
    (hplan : ∀ key, planProcessing (act settings env f.flight w.store.store).1.db.rows.asset = .ok key →
      planProcessing w.store.store.db.rows.asset = .ok key)
    (hobjects : ∀ key, ∀ object ∈ (act settings env f.flight w.store.store).1.objects key,
      object ∈ w.store.store.objects key)
    (hchecksum : ∀ asset ∈ w.store.store.db.rows.asset,
      ∃ asset' ∈ (act settings env f.flight w.store.store).1.db.rows.asset, asset'.sourceChecksum = asset.sourceChecksum) :
    AwaitedVerified settings ((recorded settings).step w (.act index env)) := by
  have hstore : ((recorded settings).step w (.act index env)).store.store = (act settings env f.flight w.store.store).1 := by
    rw [Protocol.step_act_store hindex]
    rfl
  have hcalled : calledKeys ((recorded settings).step w (.act index env)) ⊆ calledKeys w :=
    Protocol.gather_act_subset hindex fun _ hnext => next_calledKey hnext
  rw [AwaitedVerified, hstore]
  apply hw.mono
  · intro key hkey
    rw [mem_awaited, hstore] at hkey
    rw [mem_awaited]
    rcases hkey with hkey | hkey
    · exact .inl (hplan key hkey)
    · exact .inr (hcalled hkey)
  · exact fun key _ => hobjects key
  · exact hchecksum

theorem kept_awaitedVerified {settings : Settings} {w : World} {index : Nat} {env : Env} {f : Noted Flight Unit}
    (hw : AwaitedVerified settings w) (hindex : w.inflight[index]? = some f)
    (hact : (act settings env f.flight w.store.store).1 = w.store.store) :
    AwaitedVerified settings ((recorded settings).step w (.act index env)) := by
  apply awaitedVerified_of_mono hw hindex
  · rw [hact]
    exact fun _ h => h
  · rw [hact]
    exact fun _ _ h => h
  · rw [hact]
    exact fun asset hasset => ⟨asset, hasset, rfl⟩

theorem save_awaitedVerified {settings : Settings} {w : World} {index : Nat} {env : Env} {f : Noted Flight Unit}
    {write : MediaAsset → MediaAsset} (hw : AwaitedVerified settings w) (hindex : w.inflight[index]? = some f)
    (hact : (act settings env f.flight w.store.store).1 = w.store.store.save write) (hwrite : Tame write) :
    AwaitedVerified settings ((recorded settings).step w (.act index env)) := by
  obtain ⟨hplan, hchecksum⟩ := save_tame (s := w.store.store) hwrite
  apply awaitedVerified_of_mono hw hindex
  · rwa [hact]
  · rw [hact]
    exact fun _ _ h => h
  · rwa [hact]

theorem uploading_awaitedVerified {settings : Settings} {w : World} {index : Nat} {env : Env} {actor : User}
    {contentType : String} {note : Unit} (hw : AwaitedVerified settings w)
    (hindex : w.inflight[index]? = some ⟨.uploading actor contentType, note⟩) :
    AwaitedVerified settings ((recorded settings).step w (.act index env)) := by
  rcases w.store.store.db.settle_cases
      (requestUpload actor contentType env.token env.newPk env.now w.store.store.db.rows) with
    hsame | ⟨rows, hok, -, hrows⟩
  · apply awaitedVerified_of_mono hw hindex
    · simp only [act, hsame]
      exact fun _ h => h
    · exact fun _ _ h => h
    · simp only [act, hsame]
      exact fun asset hasset => ⟨asset, hasset, rfl⟩
  · obtain ⟨key, -, hasset⟩ := requestUpload_eq_ok hok
    apply awaitedVerified_of_mono hw hindex
    · intro key' hplan
      simp only [act, hrows, hasset] at hplan
      obtain ⟨row, hrow, -, hstatus, -⟩ := planProcessing_ok hplan
      cases hrow
      cases hbefore : w.store.store.db.rows.asset <;> simp [hbefore, MediaAsset.new, MediaAsset.replace] at hstatus
    · exact fun _ _ h => h
    · intro asset hbefore
      refine ⟨asset.replace key env.now, ?_, rfl⟩
      simp only [act, hrows, hasset, Option.mem_def.mp hbefore, Option.map_some, Option.getD_some, Option.mem_some_iff]

theorem discarding_awaitedVerified {settings : Settings} {w : World} {index : Nat} {env : Env} {key : ObjectKey}
    {message : String} {note : Unit} (hw : AwaitedVerified settings w)
    (hindex : w.inflight[index]? = some ⟨.discarding key message, note⟩) :
    AwaitedVerified settings ((recorded settings).step w (.act index env)) := by
  by_cases hraises : env.storeRaises
  · apply kept_awaitedVerified hw hindex
    simp [act, hraises]
  · apply awaitedVerified_of_mono hw hindex
    · simp only [act, hraises]
      exact fun _ h => h
    · intro key' object hobject
      simp only [act, hraises] at hobject
      by_cases hkey : key' = key
      · subst hkey
        simp at hobject
      · simpa [Function.update_of_ne hkey] using hobject
    · simp only [act, hraises]
      exact fun asset hasset => ⟨asset, hasset, rfl⟩

/-- A PUT leaves what awaits its hand-over verified exactly when it sends what was verified, or nobody waits for it. -/
theorem putting_awaitedVerified_iff {settings : Settings} {w : World} {index : Nat} {env : Env} {upload : Upload}
    {body : Body} {note : Unit} (hw : AwaitedVerified settings w)
    (hindex : w.inflight[index]? = some ⟨.putting upload body, note⟩) :
    AwaitedVerified settings ((recorded settings).step w (.act index env)) ↔
      KeepsWhatWasVerified settings w (.act index env) := by
  have hstore : ((recorded settings).step w (.act index env)).store.store =
      (act settings env (.putting upload body) w.store.store).1 := by
    rw [Protocol.step_act_store hindex]
    rfl
  have hcalled : calledKeys ((recorded settings).step w (.act index env)) = calledKeys w :=
    Protocol.gather_act hindex rfl fun _ => next_calledKey
  simp only [KeepsWhatWasVerified, hindex, Option.some.injEq, forall_eq']
  by_cases hallowed : upload ∈ w.store.store.uploads ∧ env.now ≤ upload.expiresAt
  · simp only [act, hallowed, if_true, true_and] at hstore
    have hawaited : awaited ((recorded settings).step w (.act index env)) = awaited w := by
      rw [awaited, hstore, hcalled, awaited]
    simp only [hallowed.1, hallowed.2, forall_const]
    rw [AwaitedVerified, hawaited, hstore]
    constructor
    · intro hafter hkey
      exact hafter upload.key hkey (upload.object body) (Function.update_self ..)
    · intro hguard key hkey object hobject
      by_cases hput : key = upload.key
      · subst hput
        have hsent : some (upload.object body) = some object := by simpa using hobject
        cases hsent
        exact hguard hkey
      · have hold : object ∈ w.store.store.objects key := by simpa [Function.update_of_ne hput] using hobject
        exact hw key hkey object hold
  · simp only [act, if_neg hallowed] at hstore
    have hawaited : awaited ((recorded settings).step w (.act index env)) = awaited w := by
      rw [awaited, hstore, hcalled, awaited]
    rw [AwaitedVerified, hawaited, hstore]
    exact iff_of_true hw fun hupload hunexpired => absurd ⟨hupload, hunexpired⟩ hallowed

theorem planProcessing_saveUpload {stored : StoredObject} {now : Instant} {asset : MediaAsset} {key : ObjectKey} :
    planProcessing (some (saveUpload stored now asset)) = .ok key ↔
      asset.providerAssetId = "" ∧ asset.sourceObjectKey = key := by
  by_cases hid : asset.providerAssetId = "" <;> simp [planProcessing, saveUpload, hid]

theorem mem_awaitedOnceAccepted {asset : MediaAsset} {w : World} {key : ObjectKey} :
    key ∈ awaitedOnceAccepted asset w ↔
      (asset.providerAssetId = "" ∧ asset.sourceObjectKey = key) ∨ key ∈ calledKeys w := by
  rw [awaitedOnceAccepted, List.mem_append]
  apply or_congr_left
  by_cases hid : asset.providerAssetId = "" <;> simp [hid, eq_comm]

/-- The write of an acceptance leaves what awaits its hand-over verified exactly when it matches what it accepts. -/
theorem accepting_awaitedVerified_iff {settings : Settings} {w : World} {index : Nat} {env : Env} {stored : StoredObject}
    {note : Unit} (hw : AwaitedVerified settings w) (hindex : w.inflight[index]? = some ⟨.accepting stored, note⟩) :
    AwaitedVerified settings ((recorded settings).step w (.act index env)) ↔
      KeepsWhatWasVerified settings w (.act index env) := by
  have hstore : ((recorded settings).step w (.act index env)).store.store =
      w.store.store.save (saveUpload stored env.now) := by
    rw [Protocol.step_act_store hindex]
    rfl
  have hcalled : calledKeys ((recorded settings).step w (.act index env)) = calledKeys w :=
    Protocol.gather_act hindex rfl fun _ => next_calledKey
  simp only [KeepsWhatWasVerified, hindex, Option.some.injEq, forall_eq']
  by_cases hcommits : Database.Commits Rows.Valid
      (.ok (w.store.store.db.rows.update (saveUpload stored env.now)) : Except Error Rows)
  · have hrows : (w.store.store.save (saveUpload stored env.now)).db.rows =
        w.store.store.db.rows.update (saveUpload stored env.now) := by
      have hvalid : (w.store.store.db.rows.update (saveUpload stored env.now)).Valid := hcommits
      rw [Store.save, Database.settle_ok hvalid]
    simp only [hcommits, forall_const]
    cases hasset : w.store.store.db.rows.asset with
    | none =>
      have hsame : (w.store.store.save (saveUpload stored env.now)).db.rows.asset = w.store.store.db.rows.asset := by
        rw [hrows, Rows.update, hasset]
        rfl
      have hawaited : AwaitedVerified settings ((recorded settings).step w (.act index env)) := by
        rw [AwaitedVerified, awaited, hstore, hcalled, Matched, hsame]
        exact hw
      exact iff_of_true hawaited fun asset hnone => by cases hnone
    | some asset =>
      have hafter : (w.store.store.save (saveUpload stored env.now)).db.rows.asset =
          some (saveUpload stored env.now asset) := by
        rw [hrows, Rows.update, hasset, Option.map_some]
      have hawaited : ∀ key, key ∈ awaited ((recorded settings).step w (.act index env)) ↔
          key ∈ awaitedOnceAccepted asset w := by
        intro key
        rw [mem_awaited, hstore, hafter, planProcessing_saveUpload, hcalled, mem_awaitedOnceAccepted]
      simp only [AwaitedVerified, Matched, hawaited, hstore, hafter, Option.mem_some_iff, exists_eq_left', forall_eq']
      rfl
  · have hsame : w.store.store.save (saveUpload stored env.now) = w.store.store := by
      rw [Store.save, Database.settle_of_not_commits hcommits]
    have hawaited : AwaitedVerified settings ((recorded settings).step w (.act index env)) := by
      rw [AwaitedVerified, awaited, hstore, hcalled, hsame]
      exact hw
    exact iff_of_true hawaited fun h => absurd h hcommits

theorem act_awaitedVerified_iff {settings : Settings} {w : World} {index : Nat} {env : Env} {f : Noted Flight Unit}
    (hw : AwaitedVerified settings w) (hindex : w.inflight[index]? = some f) :
    AwaitedVerified settings ((recorded settings).step w (.act index env)) ↔
      KeepsWhatWasVerified settings w (.act index env) := by
  obtain ⟨flight, note⟩ := f
  have hkept : (act settings env flight w.store.store).1 = w.store.store →
      AwaitedVerified settings ((recorded settings).step w (.act index env)) := kept_awaitedVerified hw hindex
  have hfree : (∀ upload body, flight ≠ .putting upload body) → (∀ stored, flight ≠ .accepting stored) →
      KeepsWhatWasVerified settings w (.act index env) := by
    intro hput haccept f hf
    rw [hindex] at hf
    cases hf
    cases flight with
    | putting upload body => exact absurd rfl (hput upload body)
    | accepting stored => exact absurd rfl (haccept stored)
    | _ => trivial
  cases flight with
  | putting upload body => exact putting_awaitedVerified_iff hw hindex
  | accepting stored => exact accepting_awaitedVerified_iff hw hindex
  | uploading actor contentType =>
    exact iff_of_true (uploading_awaitedVerified hw hindex) (hfree (by simp) (by simp))
  | completing asset actor =>
    refine iff_of_true (hkept ?_) (hfree (by simp) (by simp))
    simp only [act]
    split
    · rfl
    · split <;> rfl
  | reading asset stored =>
    refine iff_of_true (hkept ?_) (hfree (by simp) (by simp))
    simp only [act]
    split
    · rfl
    · split <;> rfl
  | discarding key message =>
    exact iff_of_true (discarding_awaitedVerified hw hindex) (hfree (by simp) (by simp))
  | failing message =>
    exact iff_of_true (save_awaitedVerified hw hindex rfl (saveFailure_tame message env.now)) (hfree (by simp) (by simp))
  | calling key retries => exact iff_of_true (hkept rfl) (hfree (by simp) (by simp))
  | answered retries answer =>
    exact iff_of_true (save_awaitedVerified hw hindex rfl (writeProcessing_tame _ retries answer))
      (hfree (by simp) (by simp))

/-- A step leaves what awaits its hand-over verified exactly when the condition allows it. -/
theorem step_awaitedVerified_iff {settings : Settings} {w : World} (move : Move Request Env)
    (hw : AwaitedVerified settings w) :
    AwaitedVerified settings ((recorded settings).step w move) ↔ KeepsWhatWasVerified settings w move := by
  cases move with
  | load request =>
    refine iff_of_true ?_ trivial
    cases hload : (recorded settings).load request w.store with
    | none => rwa [Protocol.step_load_none hload]
    | some f =>
      have hsubset : awaited ((recorded settings).step w (.load request)) ⊆ awaited w := by
        rw [awaited, calledKeys, Protocol.gather_load hload, Protocol.step_load_some hload, ← List.append_assoc]
        exact List.append_subset.mpr ⟨List.Subset.refl _, load_awaited hload⟩
      rw [AwaitedVerified, Protocol.step_load_some hload] at *
      exact fun key hkey => hw key (hsubset hkey)
  | act index env =>
    cases hindex : w.inflight[index]? with
    | none =>
      rw [Protocol.step_act_none hindex]
      exact iff_of_true hw fun f hf => by simp [hindex] at hf
    | some f => exact act_awaitedVerified_iff hw hindex

/-- What is handed over was awaited. -/
theorem step_handedVerified {settings : Settings} {w : World} (move : Move Request Env)
    (hw : AwaitedVerified settings w) (hpast : HandedVerified settings w) :
    HandedVerified settings ((recorded settings).step w move) := by
  cases move with
  | load request =>
    cases hload : (recorded settings).load request w.store with
    | none => rwa [Protocol.step_load_none hload]
    | some f => rwa [Protocol.step_load_some hload]
  | act index env =>
    cases hindex : w.inflight[index]? with
    | none => rwa [Protocol.step_act_none hindex]
    | some f =>
      obtain ⟨flight, note⟩ := f
      intro handed hhanded
      rw [Protocol.step_act_store hindex] at hhanded
      cases flight with
      | calling key retries =>
        rcases List.mem_append.mp hhanded with hold | hnew
        · exact hpast handed hold
        · obtain ⟨object, hobject, rfl⟩ := Option.map_eq_some_iff.mp (Option.mem_toList.mp hnew)
          have hcalled : key ∈ calledKeys w :=
            List.mem_filterMap.mpr ⟨_, List.mem_of_getElem? hindex, rfl⟩
          obtain ⟨asset, hasset, hmatches⟩ := hw key (mem_awaited.mpr (.inr hcalled)) object hobject
          simp [Option.mem_def.mp hasset, hmatches]
      | _ => exact hpast handed hhanded

/-! ### Runs -/

/-- A task past its guards hands over what lies under its key, whatever the row says of it. -/
theorem not_handedVerified_of_call {settings : Settings} {w : World} {index retries : Nat} {env : Env} {key : ObjectKey}
    {note : Unit} {object : Object} (hindex : w.inflight[index]? = some ⟨.calling key retries, note⟩)
    (hobject : w.store.store.objects key = some object)
    (hunmatched : ∀ asset ∈ w.store.store.db.rows.asset, ¬ object.Matches settings.maxUploadBytes asset.sourceChecksum) :
    ¬ HandedVerified settings ((recorded settings).step w (.act index env)) := by
  intro hverified
  have hmem : ⟨key, object, w.store.store.db.rows.asset.map (·.sourceChecksum)⟩ ∈
      ((recorded settings).step w (.act index env)).store.past := by
    rw [Protocol.step_act_store hindex]
    simp [recorded, recordHandOver, hobject]
  have hmatches := hverified _ hmem
  cases hasset : w.store.store.db.rows.asset with
  | none => simp [hasset] at hmatches
  | some asset =>
    rw [hasset] at hmatches
    exact hunmatched asset hasset (of_decide_eq_true hmatches)

/-- From a state in which an unverified object awaits its hand-over, a task can hand it over. -/
theorem exists_handOver_of_not_awaitedVerified {settings : Settings} {w : World} (hw : ¬ AwaitedVerified settings w) :
    ∃ later, Along (recorded settings).step (KeepsWhatWasVerified settings) w later ∧
      ¬ HandedVerified settings (final (recorded settings).step w later) := by
  simp only [AwaitedVerified, Matched, not_forall] at hw
  obtain ⟨key, hkey, object, hobject, hunmatched⟩ := hw
  have hunmatched : ∀ asset ∈ w.store.store.db.rows.asset,
      ¬ object.Matches settings.maxUploadBytes asset.sourceChecksum :=
    fun asset hasset hmatches => hunmatched ⟨asset, hasset, hmatches⟩
  let env : Env := ⟨0, "", 0, false, .raised ⟨"", ""⟩ none⟩
  have hcall : ∀ (w' : World) (index retries : Nat), w'.inflight[index]? = some ⟨.calling key retries, ()⟩ →
      KeepsWhatWasVerified settings w' (.act index env) := by
    intro w' index retries hindex f hf
    rw [hindex] at hf
    cases hf
    trivial
  rcases mem_awaited.mp hkey with hplan | hcalled
  · let f : Noted Flight Unit := ⟨.calling key 0, ()⟩
    have hload : (recorded settings).load (.processMediaAsset 0) w.store = some f := by
      simp only [recorded, Protocol.withHistory, protocol, load, hplan, Option.map_some]
      rfl
    have hstep : (recorded settings).step w (.load (.processMediaAsset 0)) = { w with inflight := w.inflight ++ [f] } :=
      Protocol.step_load_some hload
    have hindex : ({ w with inflight := w.inflight ++ [f] } : World).inflight[w.inflight.length]? = some f :=
      List.getElem?_concat_length
    refine ⟨[.load (.processMediaAsset 0), .act w.inflight.length env], ⟨trivial, ?_, trivial⟩, ?_⟩
    · rw [hstep]
      exact hcall _ _ 0 hindex
    · rw [final_cons, hstep]
      exact not_handedVerified_of_call hindex hobject hunmatched
  · obtain ⟨⟨flight, note⟩, hmem, hflight⟩ := List.mem_filterMap.mp hcalled
    obtain ⟨index, hindex⟩ := List.mem_iff_getElem?.mp hmem
    cases flight with
    | calling key' retries =>
      cases hflight
      exact ⟨[.act index env], ⟨hcall w index retries hindex, trivial⟩,
        not_handedVerified_of_call hindex hobject hunmatched⟩
    | _ => cases hflight

/-- What was verified is what is transcoded in every run that meets the condition, and a run that breaks it can be carried
on, from the step that does and without breaking it again, to the hand-over of an object that was not verified. -/
theorem verified_is_handed_over (settings : Settings) (lesson : Lesson) (run : List (Move Request Env)) :
    (Along (recorded settings).step (KeepsWhatWasVerified settings) (World.start lesson) run →
        Throughout (recorded settings).step (HandedVerified settings) (World.start lesson) run) ∧
      (¬ Along (recorded settings).step (KeepsWhatWasVerified settings) (World.start lesson) run →
        ∃ earlier later, earlier <+: run ∧
          Along (recorded settings).step (KeepsWhatWasVerified settings)
            (final (recorded settings).step (World.start lesson) earlier) later ∧
          ¬ HandedVerified settings (final (recorded settings).step (World.start lesson) (earlier ++ later))) := by
  have hstart : AwaitedVerified settings (World.start lesson) ∧ HandedVerified settings (World.start lesson) := by
    constructor
    · intro key _ object hobject
      cases hobject
    · intro handed hhanded
      cases hhanded
  have hkeep : ∀ w move, AwaitedVerified settings w ∧ HandedVerified settings w → KeepsWhatWasVerified settings w move →
      AwaitedVerified settings ((recorded settings).step w move) ∧
        HandedVerified settings ((recorded settings).step w move) :=
    fun w move hw hguard => ⟨(step_awaitedVerified_iff move hw.1).mpr hguard, step_handedVerified move hw.1 hw.2⟩
  constructor
  · intro hrun
    exact (throughout_of_along hkeep hstart hrun).mono fun _ hw => hw.2
  · intro hrun
    obtain ⟨earlier, move, hprefix, halong, hbreaks⟩ := exists_first_of_not_along hrun
    have hbefore := throughout_iff_earlier.mp (throughout_of_along hkeep hstart halong) earlier List.prefix_rfl
    have hafter := mt (step_awaitedVerified_iff move hbefore.1).mp hbreaks
    obtain ⟨later, hlater, hhanded⟩ := exists_handOver_of_not_awaitedVerified hafter
    refine ⟨earlier ++ [move], later, hprefix, ?_, ?_⟩
    · rwa [final_append]
    · rwa [final_append, final_append]

/-- The master is replaced through the same URL after it was verified, by ten times the limit of something else. -/
theorem put_after_verification_is_handed_over :
    let teacher : User := ⟨7, "teacher@example.test", .instructor, false⟩
    let moment (now : Instant) : Env :=
      ⟨now, "token", 5, false, .returned ⟨"fake", "fakeasset_1", "fakeplay_1", .processing⟩⟩
    let upload : Upload := ⟨⟨6, "token", "mp4"⟩, "video/mp4", 3600000001⟩
    ¬ Throughout (recorded ⟨5368709120, 3600000000, 3⟩).step (HandedVerified ⟨5368709120, 3600000000, 3⟩)
      (World.start ⟨6, 7, "es"⟩)
      [.load (.requestUpload teacher "video/mp4"), .act 0 (moment 1),
        .load (.put upload ⟨1024, "etag", [0, 0, 0, 24] ++ ftyp⟩), .act 0 (moment 2),
        .load (.completeUpload teacher), .act 0 (moment 3), .act 0 (moment 4), .act 0 (moment 5),
        .load (.put upload ⟨53687091200, "other", [60, 63, 112, 104, 112]⟩), .act 0 (moment 6),
        .load (.processMediaAsset 0), .act 0 (moment 7)] := by
  decide

end EPlatform.MediaAssets.Bucket
