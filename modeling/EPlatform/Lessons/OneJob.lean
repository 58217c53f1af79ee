import EPlatform.Lessons.ProviderJobs

/-!
# Executions that keep apart create one job

The guards of the two tasks look at an id that is stored after the call. Executions that keep out of each other's way, with
calls that say so when they take effect, always find it: every job that was taken is on the row, or its answer is in flight
and nobody else is past the guards.
-/

namespace EPlatform.Lessons

open Runs MediaAssets Transcripts

/-! ### What a step does to the jobs -/

theorem recordMedia_oncePerWork (env : MediaAssets.Env) {flight : MediaAssets.Flight} (s : Webhooks)
    {jobs : List (Job ObjectKey String)} (h : Job.OncePerWork jobs) (hcall : ∀ key retries, flight ≠ .calling key retries) :
    Job.OncePerWork (recordMedia env flight s jobs) := by
  cases flight with
  | calling key retries => exact absurd rfl (hcall key retries)
  | retrying asset actor =>
    simp only [recordMedia]
    split
    · exact h
    · split
      · exact Job.oncePerWork_retry _ h
      · exact h
  | reporting pk plan =>
    simp only [recordMedia]
    split
    · exact h
    · split
      · exact Job.oncePerWork_report_iff.mpr h
      · exact h
  | uploading actor contentType => exact h
  | completing asset actor => exact h
  | answered key retries answer => exact h

/-- A call that takes effect keeps one job a key exactly when every earlier job of its key was retried. -/
theorem recordCreate_oncePerWork_iff {key : ObjectKey} {answer : Answer ProviderAsset}
    {jobs : List (Job ObjectKey String)} (h : Job.OncePerWork jobs) :
    Job.OncePerWork (recordCreate key answer jobs) ↔
      ((createdId answer).isSome → ∀ job ∈ jobs, job.work = key → job.retried) := by
  cases answer with
  | returned created =>
    simp only [createdId, Option.isSome_some, forall_const, recordCreate]
    rw [← Job.oncePerWork_accept_iff h key created.assetId]
    split
    · exact Job.oncePerWork_report_iff
    · rfl
  | raised exc accepted =>
    cases accepted with
    | none => simp [recordCreate, createdId, h]
    | some id =>
      simp only [createdId, Option.isSome_some, forall_const, recordCreate]
      exact Job.oncePerWork_accept_iff h key id

/-! ### What stays on record -/

/-- Whatever is left to be retried was left before, and was reported failed if it had been. -/
def Carries (jobs jobs' : List (Job ObjectKey String)) : Prop :=
  ∀ job' ∈ jobs', ¬ job'.retried → ∃ job ∈ jobs, ¬ job.retried ∧ job.work = job'.work ∧ (job.errored → job'.errored)

theorem carries_refl (jobs : List (Job ObjectKey String)) : Carries jobs jobs :=
  fun job hjob hretried => ⟨job, hjob, hretried, rfl, id⟩

theorem carries_report (id : String) (jobs : List (Job ObjectKey String)) : Carries jobs (Job.report id jobs) := by
  intro job' hjob' hretried
  obtain ⟨job, hjob, rfl⟩ := List.mem_map.mp hjob'
  exact ⟨job, hjob, hretried, rfl, fun herrored => by simp [herrored]⟩

theorem carries_retry (key : ObjectKey) (jobs : List (Job ObjectKey String)) : Carries jobs (Job.retry key jobs) := by
  intro job' hjob' hretried
  obtain ⟨job, hjob, rfl⟩ := List.mem_map.mp hjob'
  exact ⟨job, hjob, fun h => hretried (by simp [h]), rfl, id⟩

/-- What a retry leaves to be retried was not reported failed. -/
theorem errored_retry {key : ObjectKey} {jobs : List (Job ObjectKey String)} {job : Job ObjectKey String}
    (hjob : job ∈ Job.retry key jobs) (hretried : ¬ job.retried) (hwork : job.work = key) : job.errored = false := by
  obtain ⟨before, -, rfl⟩ := List.mem_map.mp hjob
  by_contra herrored
  have h : before.errored = true := eq_true_of_ne_false herrored
  exact hretried (by simp [h, show before.work = key from hwork])

theorem recordMedia_carries (env : MediaAssets.Env) {flight : MediaAssets.Flight} (s : Webhooks)
    (jobs : List (Job ObjectKey String)) (hcall : ∀ key retries, flight ≠ .calling key retries) :
    Carries jobs (recordMedia env flight s jobs) := by
  cases flight with
  | calling key retries => exact absurd rfl (hcall key retries)
  | retrying asset actor =>
    simp only [recordMedia]
    split
    · exact carries_refl jobs
    · split
      · exact carries_retry _ jobs
      · exact carries_refl jobs
  | reporting pk plan =>
    simp only [recordMedia]
    split
    · exact carries_refl jobs
    · split
      · exact carries_report _ jobs
      · exact carries_refl jobs
  | _ => exact carries_refl jobs

/-- The guards of the task stop at the row: it names the job, or was filed when the provider refused the file. -/
def Shown (asset : MediaAsset) (job : Job ObjectKey String) : Prop :=
  asset.providerAssetId ≠ "" ∨ asset.status ≠ .uploaded ∧ job.errored

theorem asset_settle {db : MediaAssets.Database} {f : MediaAsset → MediaAsset} {asset' : MediaAsset}
    (h : (db.settle (.ok (db.rows.update f) : Except MediaAssets.Error MediaAssets.Rows)).rows.asset = some asset') :
    ∃ asset, db.rows.asset = some asset ∧ (asset' = asset ∨ asset' = f asset) := by
  rcases db.settle_cases (.ok (db.rows.update f) : Except MediaAssets.Error MediaAssets.Rows) with hsame | ⟨rows, hok, -, hrows⟩
  · rw [hsame] at h
    exact ⟨asset', h, .inl rfl⟩
  · cases hok
    rw [hrows] at h
    obtain ⟨asset, hasset, rfl⟩ := Option.map_eq_some_iff.mp h
    exact ⟨asset, hasset, .inr rfl⟩

theorem asset_settle_of_valid {db : MediaAssets.Database} {f : MediaAsset → MediaAsset} {asset : MediaAsset}
    (hasset : db.rows.asset = some asset) (hvalid : (f asset).Valid) :
    (db.settle (.ok (db.rows.update f) : Except MediaAssets.Error MediaAssets.Rows)).rows.asset = some (f asset) := by
  have hafter : (db.rows.update f).asset = some (f asset) := by
    rw [MediaAssets.Rows.update, hasset, Option.map_some]
  have hrows : (db.rows.update f).Valid := by
    intro a ha
    rw [hafter] at ha
    cases ha
    exact hvalid
  rw [Database.settle_ok hrows, hafter]

/-- The write leaves the key and the id, and does not take a filed row back. -/
def Files (f : MediaAsset → MediaAsset) : Prop :=
  ∀ asset, (f asset).sourceObjectKey = asset.sourceObjectKey ∧ (f asset).providerAssetId = asset.providerAssetId ∧
    ((f asset).status = .uploaded → asset.status = .uploaded)

theorem Files.shown {f : MediaAsset → MediaAsset} (hf : Files f) {asset : MediaAsset} {job job' : Job ObjectKey String}
    (h : Shown asset job) (herrored : job.errored → job'.errored) : Shown (f asset) job' := by
  obtain ⟨-, hid, hstatus⟩ := hf asset
  obtain hshown | ⟨hfiled, hjob⟩ := h
  · exact .inl (by rwa [hid])
  · exact .inr ⟨mt hstatus hfiled, herrored hjob⟩

theorem recordFailure_files (message : String) (attempts : Int) : Files (MediaAssets.recordFailure message attempts) :=
  fun _ => ⟨rfl, rfl, fun h => by cases h⟩

theorem saveFailure_files (message : String) (now : Instant) : Files (saveFailure message now) :=
  fun _ => ⟨rfl, rfl, fun h => by cases h⟩

theorem performWebhook_files (plan : WebhookPlan) : Files (performWebhook plan) := by
  cases plan with
  | ready durationSeconds => exact fun _ => ⟨rfl, rfl, fun h => by cases h⟩
  | errored retryCount => exact recordFailure_files _ retryCount
  | _ => exact fun _ => ⟨rfl, rfl, id⟩

theorem writeProcessing_files (maxRetries : Int) (retries : Nat) (answer : Except Raised ProviderAsset)
    (h : ∀ created, answer = .ok created → created.status = .errored) : Files (writeProcessing maxRetries retries answer) := by
  intro asset
  cases answer with
  | error exc =>
    simp only [writeProcessing, performProcessing]
    split_ifs
    · exact recordFailure_files _ _ asset
    · exact ⟨rfl, rfl, id⟩
  | ok created =>
    simp only [writeProcessing, performProcessing, h created rfl, if_true]
    exact recordFailure_files _ _ asset

/-! ### What every step keeps -/

theorem jobs_media (env : Env) (flight : MediaAssets.Flight) (s : Rows) (accepted : Accepted) :
    (recordAccepted env (.media flight) s accepted).jobs = recordMedia env.media flight s.media accepted.jobs := rfl

/-- The jobs, and who still has to hear of them. -/
structure KeepsJobs (w : Executions) : Prop where
  once : Job.OncePerWork w.store.past.jobs
  calls : ∀ job ∈ w.store.past.jobs, ¬ job.retried → Nobody (Flight.calls job.work) w
  shown : ∀ job ∈ w.store.past.jobs, ¬ job.retried → ∀ asset, w.store.store.media.db.rows.asset = some asset →
    asset.sourceObjectKey = job.work → Shown asset job ∨ ∃ f ∈ w.inflight, f.flight.owes job.work
  apart : ∀ key, (∃ f ∈ w.inflight, f.flight.owes key) → Nobody (Flight.calls key) w
  refused : ∀ f ∈ w.inflight, ∀ key retries created, f.flight = .media (.answered key retries (.ok created)) →
    created.status = .errored → ∀ job ∈ w.store.past.jobs, ¬ job.retried → job.work = key → job.errored

/-- An execution that has its transcript. -/
def Flight.hasTranscript : Flight → Bool
  | .submitting .. | .submitted .. => true
  | _ => false

structure KeepsSubmission (w : Executions) : Prop where
  found : ∀ f ∈ w.inflight, f.flight.hasTranscript → w.store.store.transcript.isSome
  once : w.store.past.submissions.length ≤ 1
  submits : w.store.past.submissions ≠ [] → Nobody Flight.submits w
  shown : w.store.past.submissions ≠ [] → (∃ db, w.store.store.transcript = some db ∧ db.rows.transcript.isSubmitted) ∨
    ∃ f ∈ w.inflight, f.flight.owesJob

variable {settings : Settings} {w : Executions} {index : Nat} {env : Env} {f : Noted Flight Unit}

theorem step_store (hindex : w.inflight[index]? = some f) :
    ((accounted settings).step w (.act index env)).store =
      ⟨(act settings env f.flight w.store.store).1, recordAccepted env f.flight w.store.store w.store.past⟩ :=
  Protocol.step_act_store hindex

/-- A step that is no answer to the key leaves those in flight who owe one. -/
theorem exists_step {P : Flight → Bool} (hindex : w.inflight[index]? = some f) (hP : P f.flight = false)
    (h : ∃ g ∈ w.inflight, P g.flight = true) :
    ∃ g ∈ ((accounted settings).step w (.act index env)).inflight, P g.flight = true := by
  obtain ⟨g, hg, hPg⟩ := h
  refine ⟨g, Protocol.mem_step_of_ne hindex hg ?_, hPg⟩
  rintro rfl
  rw [hP] at hPg
  cases hPg

theorem nobody_step {P : Flight → Bool} (hindex : w.inflight[index]? = some f) (h : Nobody P w)
    (hnext : ∀ f', (act settings env f.flight w.store.store).2 = some f' → P f' = false) :
    Nobody P ((accounted settings).step w (.act index env)) := by
  intro g hg
  obtain hold | hnew := Protocol.mem_inflight_step_act hindex hg
  · exact h g hold
  · exact hnext g.flight (Protocol.withHistory_next hnew).1

/-- The step of a request leaves nobody who calls, or owes a row an answer. -/
def Quits (settings : Settings) (env : Env) (flight : Flight) (s : Rows) : Prop :=
  ∀ f', (act settings env flight s).2 = some f' → ∀ key, f'.calls key = false ∧ f'.owes key = false

/-- Such a step keeps the jobs on record, if the row it leaves still shows them. -/
theorem KeepsJobs.step_of_row (h : KeepsJobs w) (hindex : w.inflight[index]? = some f)
    (hquits : Quits settings env f.flight w.store.store)
    {jobs : List (Job ObjectKey String)} (hjobs : (recordAccepted env f.flight w.store.store w.store.past).jobs = jobs)
    (honce : Job.OncePerWork jobs) (hcarries : Carries w.store.past.jobs jobs)
    (hrow : ∀ job ∈ w.store.past.jobs, ∀ job' ∈ jobs, ¬ job.retried → ¬ job'.retried → job.work = job'.work →
      (job.errored → job'.errored) → ∀ asset', (act settings env f.flight w.store.store).1.media.db.rows.asset = some asset' →
        asset'.sourceObjectKey = job'.work → (Shown asset' job' ∨ f.flight.owes job'.work = false ∧
          ∃ asset, w.store.store.media.db.rows.asset = some asset ∧ asset.sourceObjectKey = job.work ∧
            (Shown asset job → Shown asset' job'))) :
    KeepsJobs ((accounted settings).step w (.act index env)) := by
  refine ⟨?_, ?_, ?_, ?_, ?_⟩
  · rw [step_store hindex, hjobs]
    exact honce
  · rw [step_store hindex, hjobs]
    intro job' hjob' hretried'
    obtain ⟨job, hjob, hretried, hwork, -⟩ := hcarries job' hjob' hretried'
    exact nobody_step hindex (hwork ▸ h.calls job hjob hretried) fun f' hf' => (hquits f' hf' _).1
  · rw [step_store hindex, hjobs]
    intro job' hjob' hretried' asset' hasset' hkey
    obtain ⟨job, hjob, hretried, hwork, herrored⟩ := hcarries job' hjob' hretried'
    obtain hshown | ⟨howes, asset, hasset, hbefore, hshows⟩ :=
      hrow job hjob job' hjob' hretried hretried' hwork herrored asset' hasset' hkey
    · exact .inl hshown
    · obtain hshown | howing := h.shown job hjob hretried asset hasset hbefore
      · exact .inl (hshows hshown)
      · exact .inr (exists_step hindex howes (hwork ▸ howing))
  · intro key howing
    apply nobody_step hindex (h.apart key ?_) fun f' hf' => (hquits f' hf' key).1
    obtain ⟨g, hg, howes⟩ := howing
    obtain hold | hnew := Protocol.mem_inflight_step_act hindex hg
    · exact ⟨g, hold, howes⟩
    · rw [(hquits g.flight (Protocol.withHistory_next hnew).1 key).2] at howes
      cases howes
  · rw [step_store hindex, hjobs]
    intro g hg key retries created hflight hstatus job' hjob' hretried' hwork'
    obtain ⟨job, hjob, hretried, hwork, herrored⟩ := hcarries job' hjob' hretried'
    obtain hold | hnew := Protocol.mem_inflight_step_act hindex hg
    · exact herrored (h.refused g hold key retries created hflight hstatus job hjob hretried (hwork.trans hwork'))
    · have howes := (hquits g.flight (Protocol.withHistory_next hnew).1 key).2
      rw [hflight, Flight.owes, decide_eq_false_iff_not] at howes
      exact absurd rfl howes

theorem quits_of_none {flight : Flight} {s : Rows} (h : (act settings env flight s).2 = none) : Quits settings env flight s := by
  intro f' hf'
  rw [h] at hf'
  cases hf'

/-- A write by primary key that files, or leaves an id, keeps what the row shows. -/
theorem KeepsJobs.step_of_update (h : KeepsJobs w) (hindex : w.inflight[index]? = some f) (write : MediaAsset → MediaAsset)
    (hquits : Quits settings env f.flight w.store.store)
    (hdb : (act settings env f.flight w.store.store).1.media.db =
      w.store.store.media.db.settle (.ok (w.store.store.media.db.rows.update write) : Except MediaAssets.Error MediaAssets.Rows))
    {jobs : List (Job ObjectKey String)} (hjobs : (recordAccepted env f.flight w.store.store w.store.past).jobs = jobs)
    (honce : Job.OncePerWork jobs) (hcarries : Carries w.store.past.jobs jobs)
    (howes : ∀ key, f.flight.owes key = false) (hkey : ∀ asset, (write asset).sourceObjectKey = asset.sourceObjectKey)
    (hshows : ∀ asset, w.store.store.media.db.rows.asset = some asset → ∀ job ∈ w.store.past.jobs, ¬ job.retried →
      asset.sourceObjectKey = job.work → ∀ job' : Job ObjectKey String, (job.errored → job'.errored) → Shown asset job →
        Shown (write asset) job') :
    KeepsJobs ((accounted settings).step w (.act index env)) := by
  refine h.step_of_row hindex hquits hjobs honce hcarries ?_
  intro job hjob job' _ hretried _ hwork herrored asset' hasset' hkey'
  rw [hdb] at hasset'
  obtain ⟨asset, hasset, rfl | rfl⟩ := asset_settle hasset'
  · refine .inr ⟨howes _, asset', hasset, hkey'.trans hwork.symm, fun hshown => ?_⟩
    exact hshown.imp id fun hfiled => ⟨hfiled.1, herrored hfiled.2⟩
  · rw [hkey] at hkey'
    have hbefore := hkey'.trans hwork.symm
    exact .inr ⟨howes _, asset, hasset, hbefore, hshows asset hasset job hjob hretried hbefore job' herrored⟩

theorem KeepsJobs.step_of_same (h : KeepsJobs w) (hindex : w.inflight[index]? = some f)
    (hquits : Quits settings env f.flight w.store.store)
    (hmedia : (act settings env f.flight w.store.store).1.media.db = w.store.store.media.db)
    (hjobs : (recordAccepted env f.flight w.store.store w.store.past).jobs = w.store.past.jobs)
    (howes : ∀ key, f.flight.owes key = false) : KeepsJobs ((accounted settings).step w (.act index env)) := by
  refine h.step_of_update hindex id hquits (by rw [hmedia, settle_id]) hjobs h.once (carries_refl _) howes
    (fun _ => rfl) fun asset _ job _ _ _ job' herrored hshown => ?_
  exact hshown.imp id fun hfiled => ⟨hfiled.1, herrored hfiled.2⟩

/-- Once every earlier job of a key was retried, a job of it that was not is the one that is taken now. -/
theorem mem_recordCreate {key : ObjectKey} {created : ProviderAsset} {jobs : List (Job ObjectKey String)}
    (hretried : ∀ job ∈ jobs, job.work = key → job.retried) {job' : Job ObjectKey String}
    (hjob' : job' ∈ recordCreate key (.returned created) jobs) (hnot : ¬ job'.retried) :
    (∃ job ∈ jobs, ¬ job.retried ∧ job.work = job'.work ∧ job.work ≠ key ∧ (job.errored → job'.errored)) ∨
      job'.work = key ∧ (created.status = .errored → job'.errored) := by
  have haccept : ∀ job ∈ Job.accept key created.assetId jobs, ¬ job.retried →
      job ∈ jobs ∧ job.work ≠ key ∨ job.work = key ∧ job.id = created.assetId := by
    intro job hjob hnot
    obtain hold | hnew := List.mem_append.mp hjob
    · exact .inl ⟨hold, fun hwork => hnot (hretried job hold hwork)⟩
    · rw [List.mem_singleton.mp hnew]
      exact .inr ⟨rfl, rfl⟩
  rw [recordCreate] at hjob'
  split_ifs at hjob' with hstatus
  · obtain ⟨job, hjob, rfl⟩ := List.mem_map.mp hjob'
    obtain ⟨hold, hwork⟩ | ⟨hwork, hid⟩ := haccept job hjob hnot
    · exact .inl ⟨job, hold, hnot, rfl, hwork, fun herrored => by simp [herrored]⟩
    · exact .inr ⟨hwork, fun _ => by simp [hid]⟩
  · obtain ⟨hold, hwork⟩ | ⟨hwork, -⟩ := haccept job' hjob' hnot
    · exact .inl ⟨job', hold, hnot, rfl, hwork, id⟩
    · exact .inr ⟨hwork, fun herrored => absurd herrored hstatus⟩

/-- Whoever is about to hand a file over finds its jobs retried, and is owed no answer. -/
theorem KeepsJobs.of_calls (h : KeepsJobs w) {key : ObjectKey} (hmem : f ∈ w.inflight) (hcalls : f.flight.calls key = true) :
    (∀ job ∈ w.store.past.jobs, job.work = key → job.retried) ∧ Nobody (Flight.owes key) w := by
  constructor
  · intro job hjob hwork
    by_contra hnot
    have hnobody := h.calls job hjob hnot f hmem
    rw [hwork, hcalls] at hnobody
    cases hnobody
  · intro g hg
    by_contra howes
    have hnobody := h.apart key ⟨g, hg, eq_true_of_ne_false howes⟩ f hmem
    rw [hcalls] at hnobody
    cases hnobody

/-- The provider takes a file, and nobody else is about to hand it over. -/
theorem KeepsJobs.step_accept (h : KeepsJobs w) {key : ObjectKey} {retries : Nat} {created : ProviderAsset}
    (hindex : w.inflight[index]? = some f) (hflight : f.flight = .media (.calling key retries))
    (hanswer : env.media.answer = .returned created) (helse : NobodyElse (Flight.calls key) index w) :
    KeepsJobs ((accounted settings).step w (.act index env)) := by
  obtain ⟨flight, note⟩ := f
  obtain rfl : flight = .media (.calling key retries) := hflight
  obtain ⟨hretried, hnobody⟩ := h.of_calls (List.mem_of_getElem? hindex) (decide_eq_true rfl)
  have hnext : ((accounted settings).act env ⟨.media (.calling key retries), note⟩ w.store).2 =
      some ⟨.media (.answered key retries (.ok created)), ()⟩ := by
    show some (Noted.mk (Flight.media (.answered key retries env.media.answer.result)) ()) = _
    rw [hanswer]
    rfl
  have hpast : ((accounted settings).step w (.act index env)).store.past.jobs =
      recordCreate key (.returned created) w.store.past.jobs := by
    rw [step_store hindex, ← hanswer]
    rfl
  have hrows : ((accounted settings).step w (.act index env)).store.store.media.db = w.store.store.media.db := by
    rw [step_store hindex]
    rfl
  have hmoved : ∀ g ∈ ((accounted settings).step w (.act index env)).inflight,
      g ∈ w.inflight.eraseIdx index ∨ g = ⟨.media (.answered key retries (.ok created)), ()⟩ := by
    intro g hg
    exact (Protocol.mem_eraseIdx_of_mem_step hindex hg).imp_right fun hnew => Option.some.inj (hnew.symm.trans hnext)
  refine ⟨?_, ?_, ?_, ?_, ?_⟩
  · rw [hpast]
    exact (recordCreate_oncePerWork_iff h.once).mpr fun _ => hretried
  · rw [hpast]
    intro job' hjob' hnot g hg
    obtain hold | rfl := hmoved g hg
    · obtain ⟨job, hjob, hjobnot, hwork, -, -⟩ | ⟨hwork, -⟩ := mem_recordCreate hretried hjob' hnot
      · exact hwork ▸ h.calls job hjob hjobnot g (List.mem_of_mem_eraseIdx hold)
      · exact hwork ▸ helse g hold
    · rfl
  · rw [hpast, hrows]
    intro job' hjob' hnot asset hasset hkey
    obtain ⟨job, hjob, hjobnot, hwork, -, herrored⟩ | ⟨hwork, -⟩ := mem_recordCreate hretried hjob' hnot
    · obtain hshown | howing := h.shown job hjob hjobnot asset hasset (hkey.trans hwork.symm)
      · exact .inl (hshown.imp id fun hfiled => ⟨hfiled.1, herrored hfiled.2⟩)
      · exact .inr (exists_step hindex rfl (hwork ▸ howing))
    · exact .inr ⟨_, Protocol.next_mem_step hindex hnext, decide_eq_true hwork.symm⟩
  · intro k ⟨g', hg', howes⟩ g hg
    obtain hold | rfl := hmoved g hg
    · obtain hbefore | rfl := hmoved g' hg'
      · exact h.apart k ⟨g', List.mem_of_mem_eraseIdx hbefore, howes⟩ g (List.mem_of_mem_eraseIdx hold)
      · exact of_decide_eq_true howes ▸ helse g hold
    · rfl
  · rw [hpast]
    intro g hg k retries' created' hflight hstatus job' hjob' hnot hwork'
    obtain hold | rfl := hmoved g hg
    · have hbefore := List.mem_of_mem_eraseIdx hold
      obtain ⟨job, hjob, hjobnot, hwork, -, herrored⟩ | ⟨hwork, -⟩ := mem_recordCreate hretried hjob' hnot
      · exact herrored (h.refused g hbefore k retries' created' hflight hstatus job hjob hjobnot (hwork.trans hwork'))
      · have howes := hnobody g hbefore
        rw [hflight] at howes
        exact absurd (hwork'.symm.trans hwork) (of_decide_eq_false howes)
    · cases hflight
      obtain ⟨job, -, -, hwork, hne, -⟩ | ⟨-, hrefused⟩ := mem_recordCreate hretried hjob' hnot
      · exact absurd (hwork.trans hwork') hne
      · exact hrefused hstatus

theorem shown_of_id {asset : MediaAsset} {job : Job ObjectKey String} (h : asset.providerAssetId ≠ "") : Shown asset job := .inl h

theorem KeepsJobs.step_answered (h : KeepsJobs w) {key : ObjectKey} {retries : Nat} {answer : Except Raised ProviderAsset}
    (hindex : w.inflight[index]? = some f) (hflight : f.flight = .media (.answered key retries answer))
    (hapart : ActsApart settings w index env f.flight) : KeepsJobs ((accounted settings).step w (.act index env)) := by
  obtain ⟨flight, note⟩ := f
  obtain rfl : flight = .media (.answered key retries answer) := hflight
  have hquits : Quits settings env (.media (.answered key retries answer)) w.store.store := quits_of_none rfl
  cases answer with
  | error exc =>
    refine h.step_of_update hindex (writeProcessing settings.media.maxRetries retries (.error exc)) hquits rfl rfl h.once
      (carries_refl _) (fun _ => rfl) (writeProcessing_key _ _ _) ?_
    intro asset _ job _ _ _ job' herrored hshown
    exact (writeProcessing_files _ _ _ fun created hcreated => by cases hcreated).shown hshown herrored
  | ok created =>
    obtain ⟨hid, hvalid⟩ := hapart
    refine h.step_of_row hindex hquits rfl h.once (carries_refl _) ?_
    intro job hjob job' hjob' hretried _ hwork herrored asset' hasset' hkey'
    have hwrote : (w.store.store.media.db.settle (.ok (w.store.store.media.db.rows.update
        (writeProcessing settings.media.maxRetries retries (.ok created))) :
        Except MediaAssets.Error MediaAssets.Rows)).rows.asset = some asset' := hasset'
    obtain ⟨asset, hasset, hwritten⟩ := asset_settle hwrote
    have hkey : asset.sourceObjectKey = job.work := by
      rw [hwork, ← hkey']
      obtain rfl | rfl := hwritten
      · rfl
      · exact (writeProcessing_key _ _ _ asset).symm
    by_cases hstatus : created.status = .errored
    · by_cases howed : key = job'.work
      · -- the write is committed, and files the row
        have hrow : asset' = writeProcessing settings.media.maxRetries retries (.ok created) asset :=
          Option.some.inj (hwrote.symm.trans (asset_settle_of_valid hasset
            (hvalid asset hasset (hkey.trans (hwork.trans howed.symm)))))
        refine .inl (.inr ⟨?_, ?_⟩)
        · rw [hrow]
          simp only [writeProcessing, performProcessing, hstatus, if_true]
          exact MediaAssetStatus.noConfusion
        · refine herrored (h.refused _ (List.mem_of_getElem? hindex) key retries created rfl hstatus job hjob hretried ?_)
          exact hwork.trans howed.symm
      · refine .inr ⟨decide_eq_false howed, asset, hasset, hkey, fun hshown => ?_⟩
        have hfiles := writeProcessing_files settings.media.maxRetries retries (.ok created) fun c hc => by
          cases hc
          exact hstatus
        obtain rfl | rfl := hwritten
        · exact hshown.imp id fun hfiled => ⟨hfiled.1, herrored hfiled.2⟩
        · exact hfiles.shown hshown herrored
    · have hhandOver : writeProcessing settings.media.maxRetries retries (.ok created) asset = handOver created asset := by
        simp only [writeProcessing, performProcessing, hstatus, if_false]
      by_cases howed : key = job'.work
      · have hrow : asset' = handOver created asset :=
          (Option.some.inj (hwrote.symm.trans (asset_settle_of_valid hasset
            (hvalid asset hasset (hkey.trans (hwork.trans howed.symm)))))).trans hhandOver
        rw [hrow]
        exact .inl (shown_of_id (hid hstatus))
      · refine .inr ⟨decide_eq_false howed, asset, hasset, hkey, fun hshown => ?_⟩
        obtain rfl | rfl := hwritten
        · exact hshown.imp id fun hfiled => ⟨hfiled.1, herrored hfiled.2⟩
        · rw [hhandOver]
          exact shown_of_id (hid hstatus)

theorem KeepsJobs.step_retrying (h : KeepsJobs w) {asset : MediaAsset} {actor : User} (hindex : w.inflight[index]? = some f)
    (hflight : f.flight = .media (.retrying asset actor)) : KeepsJobs ((accounted settings).step w (.act index env)) := by
  obtain ⟨flight, note⟩ := f
  obtain rfl : flight = .media (.retrying asset actor) := hflight
  have hquits : Quits settings env (.media (.retrying asset actor)) w.store.store := quits_of_none rfl
  by_cases hcommits : Database.Commits MediaAssets.Rows.Valid
      (retryProcessing asset actor env.media.now w.store.store.media.db.rows)
  · obtain ⟨rows, hok, hvalid⟩ := Database.commits_iff.mp hcommits
    obtain ⟨-, -, rfl⟩ := retryProcessing_ok.mp hok
    cases hasset : w.store.store.media.db.rows.asset with
    | none =>
      refine h.step_of_same hindex hquits ?_ ?_ fun _ => rfl
      · have hnothing : w.store.store.media.db.rows.update (saveRetry env.media.now) = w.store.store.media.db.rows.update id := by
          simp only [MediaAssets.Rows.update, hasset, Option.map_none]
        show w.store.store.media.db.settle (retryProcessing asset actor env.media.now w.store.store.media.db.rows) = _
        rw [hok, hnothing, settle_id]
      · simp only [jobs_media, recordMedia, hasset]
    | some row =>
      have hjobs : (recordAccepted env (.media (.retrying asset actor)) w.store.store w.store.past).jobs =
          Job.retry row.sourceObjectKey w.store.past.jobs := by
        simp only [jobs_media, recordMedia, hasset, if_pos hcommits]
      refine h.step_of_row hindex hquits hjobs (Job.oncePerWork_retry _ h.once) (carries_retry _ _) ?_
      intro job hjob job' hjob' hretried hretried' hwork herrored asset' hasset' hkey'
      have hwrote : (w.store.store.media.db.settle
          (retryProcessing asset actor env.media.now w.store.store.media.db.rows)).rows.asset = some asset' := hasset'
      rw [hok, asset_settle_of_valid hasset (hvalid _ (by rw [MediaAssets.Rows.update, hasset]; rfl))] at hwrote
      obtain rfl := Option.some.inj hwrote
      have hkey : row.sourceObjectKey = job'.work := hkey'
      refine .inr ⟨rfl, row, hasset, hkey.trans hwork.symm, fun hshown => ?_⟩
      obtain hid | ⟨-, hreported⟩ := hshown
      · exact shown_of_id hid
      · have hnot := errored_retry hjob' hretried' hkey.symm
        rw [herrored hreported] at hnot
        cases hnot
  · refine h.step_of_same hindex hquits ?_ ?_ fun _ => rfl
    · exact Database.settle_of_not_commits hcommits
    · simp only [jobs_media, recordMedia, if_neg hcommits]
      split
      · rfl
      · rfl

theorem KeepsJobs.step_completing (h : KeepsJobs w) {asset : MediaAsset} {actor : User} (hindex : w.inflight[index]? = some f)
    (hflight : f.flight = .media (.completing asset actor)) (hapart : ActsApart settings w index env f.flight) :
    KeepsJobs ((accounted settings).step w (.act index env)) := by
  obtain ⟨flight, note⟩ := f
  obtain rfl : flight = .media (.completing asset actor) := hflight
  have hquits : Quits settings env (.media (.completing asset actor)) w.store.store := quits_of_none rfl
  have hdb : (act settings env (.media (.completing asset actor)) w.store.store).1.media.db =
      w.store.store.media.db.settle (completeUpload settings.media.maxUploadBytes asset actor env.media.landed env.media.now
        w.store.store.media.db.rows) := rfl
  rw [completeUpload] at hdb
  cases hplan : planCompletion settings.media.maxUploadBytes w.store.store.media.db.rows.lesson asset actor env.media.landed with
  | refuse error =>
    rw [hplan] at hdb
    exact h.step_of_same hindex hquits hdb rfl fun _ => rfl
  | fail message error =>
    rw [hplan] at hdb
    refine h.step_of_update hindex _ hquits hdb rfl h.once (carries_refl _) (fun _ => rfl) (fun _ => rfl) ?_
    exact fun asset _ job _ _ _ job' herrored hshown => (saveFailure_files message env.media.now).shown hshown herrored
  | accept stored =>
    rw [hplan] at hdb
    rw [ActsApart, hplan] at hapart
    refine h.step_of_update hindex _ hquits hdb rfl h.once (carries_refl _) (fun _ => rfl) (fun _ => rfl) ?_
    intro row hrow job hjob hretried hkey job' herrored hshown
    by_cases hid : row.providerAssetId = ""
    · obtain hshown | ⟨-, hreported⟩ := hshown
      · exact absurd hid hshown
      · exact absurd ⟨row, hrow, job, hjob, hkey.symm, hreported, hretried, hid⟩ hapart
    · exact shown_of_id hid

theorem KeepsJobs.step_uploading (h : KeepsJobs w) {actor : User} {contentType : String} (hindex : w.inflight[index]? = some f)
    (hflight : f.flight = .media (.uploading actor contentType)) (hapart : ActsApart settings w index env f.flight) :
    KeepsJobs ((accounted settings).step w (.act index env)) := by
  obtain ⟨flight, note⟩ := f
  obtain rfl : flight = .media (.uploading actor contentType) := hflight
  have hquits : Quits settings env (.media (.uploading actor contentType)) w.store.store := quits_of_none rfl
  have hdb : (act settings env (.media (.uploading actor contentType)) w.store.store).1.media.db =
      w.store.store.media.db.settle (requestUpload actor contentType env.media.token env.media.newPk env.media.now
        w.store.store.media.db.rows) := rfl
  obtain hsame | ⟨rows, hok, -, hrows⟩ := w.store.store.media.db.settle_cases
    (requestUpload actor contentType env.media.token env.media.newPk env.media.now w.store.store.media.db.rows)
  · exact h.step_of_same hindex hquits (hdb.trans hsame) rfl fun _ => rfl
  · obtain ⟨key, hkey, hasset⟩ := requestUpload_eq_ok hok
    rw [ActsApart, hkey] at hapart
    refine h.step_of_row hindex hquits rfl h.once (carries_refl _) ?_
    intro job hjob job' _ _ _ hwork _ asset' hasset' hkey'
    rw [hdb, hrows, hasset] at hasset'
    have hnew : asset'.sourceObjectKey = key := by
      rw [← Option.some.inj hasset']
      cases w.store.store.media.db.rows.asset with
      | none => rfl
      | some row => rfl
    exact absurd (hwork.trans (hkey'.symm.trans hnew)) (hapart.1 job hjob)

theorem KeepsJobs.step_reporting (h : KeepsJobs w) {pk : Uuid} {plan : WebhookPlan} (hindex : w.inflight[index]? = some f)
    (hflight : f.flight = .media (.reporting pk plan)) : KeepsJobs ((accounted settings).step w (.act index env)) := by
  obtain ⟨flight, note⟩ := f
  obtain rfl : flight = .media (.reporting pk plan) := hflight
  have hquits : Quits settings env (.media (.reporting pk plan)) w.store.store := quits_of_none rfl
  have hcall : ∀ key retries, MediaAssets.Flight.reporting pk plan ≠ .calling key retries := by
    intro key retries heq
    cases heq
  have honce := recordMedia_oncePerWork env.media w.store.store.media h.once hcall
  have hcarries := recordMedia_carries env.media w.store.store.media w.store.past.jobs hcall
  have hdb : (act settings env (.media (.reporting pk plan)) w.store.store).1.media.db =
      (finishWebhook pk plan env.media.now w.store.store.media).db := rfl
  rw [finishWebhook] at hdb
  split at hdb
  · refine h.step_of_update hindex _ hquits hdb rfl honce hcarries (fun _ => rfl) (performWebhook_key plan) ?_
    exact fun asset _ job _ _ _ job' herrored hshown => (performWebhook_files plan).shown hshown herrored
  · refine h.step_of_update hindex id hquits (hdb.trans (settle_id _).symm) rfl honce hcarries (fun _ => rfl)
      (fun _ => rfl) ?_
    exact fun asset _ job _ _ _ job' herrored hshown => hshown.imp id fun hfiled => ⟨hfiled.1, herrored hfiled.2⟩

/-- What an execution does that keeps apart from the others. -/
theorem KeepsJobs.act (h : KeepsJobs w) (hindex : w.inflight[index]? = some f)
    (hapart : ActsApart settings w index env f.flight) : KeepsJobs ((accounted settings).step w (.act index env)) := by
  cases hflight : f.flight with
  | media flight =>
    cases flight with
    | uploading actor contentType => exact h.step_uploading hindex hflight hapart
    | completing asset actor => exact h.step_completing hindex hflight hapart
    | retrying asset actor => exact h.step_retrying hindex hflight
    | calling key retries =>
      cases hanswer : env.media.answer with
      | returned created =>
        rw [hflight, ActsApart, hanswer] at hapart
        exact h.step_accept hindex hflight hanswer hapart
      | raised exc accepted =>
        cases accepted with
        | some id =>
          rw [hflight, ActsApart, hanswer] at hapart
          cases hapart
        | none =>
          obtain ⟨flight, note⟩ := f
          obtain rfl : flight = .media (.calling key retries) := hflight
          have hquits : Quits settings env (.media (.calling key retries)) w.store.store := by
            intro f' hf' k
            have hnext : some (Flight.media (.answered key retries env.media.answer.result)) = some f' := hf'
            rw [hanswer] at hnext
            cases hnext
            exact ⟨rfl, rfl⟩
          refine h.step_of_same hindex hquits rfl ?_ fun k => rfl
          simp only [jobs_media, recordMedia, hanswer, recordCreate]
    | answered key retries answer => exact h.step_answered hindex hflight hapart
    | reporting pk plan => exact h.step_reporting hindex hflight
  | requesting asset retries =>
    obtain ⟨flight, note⟩ := f
    obtain rfl : flight = .requesting asset retries := hflight
    refine h.step_of_same hindex ?_ ?_ rfl fun _ => rfl
    · intro f' hf' key
      cases act_next hf' with
      | requesting => exact ⟨rfl, rfl⟩
    · simp only [Lessons.act]
      split
      · rfl
      · rfl
  | submitting key retries =>
    obtain ⟨flight, note⟩ := f
    obtain rfl : flight = .submitting key retries := hflight
    refine h.step_of_same hindex ?_ rfl rfl fun _ => rfl
    intro f' hf' key
    cases act_next hf' with
    | submitting => exact ⟨rfl, rfl⟩
  | submitted retries answer =>
    obtain ⟨flight, note⟩ := f
    obtain rfl : flight = .submitted retries answer := hflight
    exact h.step_of_same hindex (quits_of_none rfl) rfl rfl fun _ => rfl

theorem submissions_of_calls {flight : Flight} (h : flight.submits = false) (env : Env) (s : Rows) (accepted : Accepted) :
    (recordAccepted env flight s accepted).submissions = accepted.submissions := by
  cases flight with
  | submitting key retries => cases h
  | _ => rfl

theorem writeSubmission_keeps {maxRetries : Int} {retries : Nat} {takenJobs : List (String × String)}
    {answer : Except Raised TranscriptionJob} {rows rows' : Transcripts.Rows}
    (h : writeSubmission maxRetries retries takenJobs answer rows = .ok rows')
    (hrefused : ∀ job, answer = .ok job → job.status = .failed) :
    rows'.transcript.providerJobId = rows.transcript.providerJobId := by
  obtain ⟨⟨written, outcome⟩, hok, rfl⟩ := map_eq_ok.mp h
  cases answer with
  | error exc =>
    simp only [performSubmission] at hok
    split_ifs at hok
    · cases hok
      rfl
    · cases hok
      rfl
  | ok job =>
    simp only [performSubmission, hrefused job rfl, if_true] at hok
    cases hok
    rfl

/-- A step that submits nothing keeps the submission on record, if the row it leaves still shows it. -/
theorem KeepsSubmission.step_of_row (h : KeepsSubmission w) (hindex : w.inflight[index]? = some f)
    (hsubmits : f.flight.submits = false) (howes : f.flight.owesJob = false)
    (hnext : ∀ f', (act settings env f.flight w.store.store).2 = some f' → f'.submits = false ∧
      (f'.hasTranscript → w.store.store.transcript.isSome))
    (hrow : ∀ db, w.store.store.transcript = some db → ∃ db', (act settings env f.flight w.store.store).1.transcript = some db' ∧
      (db.rows.transcript.isSubmitted → db'.rows.transcript.isSubmitted)) :
    KeepsSubmission ((accounted settings).step w (.act index env)) := by
  have hpast : ((accounted settings).step w (.act index env)).store.past.submissions = w.store.past.submissions := by
    rw [step_store hindex]
    exact submissions_of_calls hsubmits env _ _
  have hrows : ((accounted settings).step w (.act index env)).store.store.transcript =
      (act settings env f.flight w.store.store).1.transcript := by
    rw [step_store hindex]
  refine ⟨?_, ?_, ?_, ?_⟩
  · intro g hg hhas
    have hsome : w.store.store.transcript.isSome := by
      obtain hold | hnew := Protocol.mem_inflight_step_act hindex hg
      · exact h.found g hold hhas
      · exact (hnext g.flight (Protocol.withHistory_next hnew).1).2 hhas
    obtain ⟨db, hdb⟩ := Option.isSome_iff_exists.mp hsome
    obtain ⟨db', hdb', -⟩ := hrow db hdb
    rw [hrows, hdb']
    rfl
  · rw [hpast]
    exact h.once
  · rw [hpast]
    exact fun hsubmissions => nobody_step hindex (h.submits hsubmissions) fun f' hf' => (hnext f' hf').1
  · rw [hpast]
    intro hsubmissions
    obtain ⟨db, hdb, hsubmitted⟩ | howing := h.shown hsubmissions
    · obtain ⟨db', hdb', hkeeps⟩ := hrow db hdb
      exact .inl ⟨db', hrows.trans hdb', hkeeps hsubmitted⟩
    · exact .inr (exists_step hindex howes howing)

theorem KeepsSubmission.step_requesting (h : KeepsSubmission w) {asset : MediaAsset} {retries : Nat}
    (hindex : w.inflight[index]? = some f) (hflight : f.flight = .requesting asset retries)
    (hapart : ActsApart settings w index env f.flight) : KeepsSubmission ((accounted settings).step w (.act index env)) := by
  obtain ⟨flight, note⟩ := f
  obtain rfl : flight = .requesting asset retries := hflight
  have htranscript : (act settings env (.requesting asset retries) w.store.store).1.transcript =
      some (transcriptFor env asset w.store.store) := by
    simp only [Lessons.act]
    split
    · rfl
    · rfl
  have hrow : ∀ db, w.store.store.transcript = some db →
      ∃ db', (act settings env (.requesting asset retries) w.store.store).1.transcript = some db' ∧
        (db.rows.transcript.isSubmitted → db'.rows.transcript.isSubmitted) := by
    intro db hdb
    refine ⟨_, htranscript, ?_⟩
    rw [transcriptFor, getOrCreate, hdb]
    exact id
  cases hplan : planSubmission (transcriptFor env asset w.store.store).rows.transcript with
  | error outcome =>
    refine h.step_of_row hindex rfl rfl ?_ hrow
    intro f' hf'
    cases act_next hf' with
    | requesting hok =>
      rw [hplan] at hok
      cases hok
  | ok transcript =>
    -- nobody can have submitted before: the row would say so, or would be owed the answer
    have hnone : w.store.past.submissions = [] := by
      by_contra hsubmissions
      obtain ⟨db, hdb, hsubmitted⟩ | ⟨g, hg, howes⟩ := h.shown hsubmissions
      · rw [transcriptFor, getOrCreate, hdb, Option.getD_some] at hplan
        simp only [planSubmission, hsubmitted, if_true] at hplan
        cases hplan
      · rw [ActsApart, hplan] at hapart
        have hnobody := hapart g hg
        rw [howes] at hnobody
        cases hnobody
    have hpast : ((accounted settings).step w (.act index env)).store.past.submissions = [] := by
      rw [step_store hindex]
      exact hnone
    refine ⟨?_, ?_, ?_, ?_⟩
    · intro g _ _
      rw [step_store hindex, htranscript]
      rfl
    · rw [hpast]
      exact Nat.zero_le 1
    · exact fun hsubmissions => absurd hpast hsubmissions
    · exact fun hsubmissions => absurd hpast hsubmissions

theorem KeepsSubmission.step_submitting (h : KeepsSubmission w) {key : ObjectKey} {retries : Nat}
    (hindex : w.inflight[index]? = some f) (hflight : f.flight = .submitting key retries)
    (hapart : ActsApart settings w index env f.flight) : KeepsSubmission ((accounted settings).step w (.act index env)) := by
  have hmem := List.mem_of_getElem? hindex
  obtain ⟨flight, note⟩ := f
  obtain rfl : flight = .submitting key retries := hflight
  have hnone : w.store.past.submissions = [] := by
    by_contra hsubmissions
    cases h.submits hsubmissions _ hmem
  have hpast : ((accounted settings).step w (.act index env)).store.past.submissions = (submittedId env.answer).toList := by
    rw [step_store hindex]
    show w.store.past.submissions ++ _ = _
    rw [hnone, List.nil_append]
  have hrows : ((accounted settings).step w (.act index env)).store.store.transcript = w.store.store.transcript := by
    rw [step_store hindex]
    rfl
  have hnext : ((accounted settings).act env ⟨.submitting key retries, note⟩ w.store).2 =
      some ⟨.submitted retries env.answer.result, ()⟩ := rfl
  have hreturned : ((accounted settings).step w (.act index env)).store.past.submissions ≠ [] →
      ∃ job, env.answer = .returned job ∧ job.status ≠ .failed := by
    intro hsubmissions
    rw [hpast] at hsubmissions
    cases hanswer : env.answer with
    | returned job =>
      refine ⟨job, rfl, fun hfailed => hsubmissions ?_⟩
      rw [hanswer, submittedId, if_pos hfailed]
      rfl
    | raised exc accepted =>
      rw [ActsApart, hanswer] at hapart
      obtain rfl : accepted = none := hapart
      rw [hanswer] at hsubmissions
      exact absurd rfl hsubmissions
  refine ⟨?_, ?_, ?_, ?_⟩
  · intro g hg hhas
    rw [hrows]
    obtain hold | hnew := Protocol.mem_inflight_step_act hindex hg
    · exact h.found g hold hhas
    · exact h.found _ hmem rfl
  · rw [hpast]
    cases submittedId env.answer with
    | none => exact Nat.zero_le 1
    | some id => exact Nat.le_refl 1
  · intro hsubmissions g hg
    obtain ⟨job, hanswer, hstatus⟩ := hreturned hsubmissions
    rw [ActsApart, hanswer] at hapart
    obtain hold | hnew := Protocol.mem_eraseIdx_of_mem_step hindex hg
    · exact hapart hstatus g hold
    · rw [← Option.some.inj (hnext.symm.trans hnew)]
      rfl
  · intro hsubmissions
    obtain ⟨job, hanswer, hstatus⟩ := hreturned hsubmissions
    refine .inr ⟨_, Protocol.next_mem_step hindex hnext, ?_⟩
    rw [hanswer]
    exact decide_eq_true hstatus

theorem KeepsSubmission.step_submitted (h : KeepsSubmission w) {retries : Nat} {answer : Except Raised TranscriptionJob}
    (hindex : w.inflight[index]? = some f) (hflight : f.flight = .submitted retries answer)
    (hapart : ActsApart settings w index env f.flight) : KeepsSubmission ((accounted settings).step w (.act index env)) := by
  have hmem := List.mem_of_getElem? hindex
  obtain ⟨flight, note⟩ := f
  obtain rfl : flight = .submitted retries answer := hflight
  have htranscript : ∀ db, w.store.store.transcript = some db →
      (act settings env (.submitted retries answer) w.store.store).1.transcript =
        some (db.settle (writeSubmission settings.transcriptionMaxRetries retries env.takenJobs answer db.rows)) := by
    intro db hdb
    show w.store.store.transcript.map _ = _
    rw [hdb]
    rfl
  by_cases hrefused : ∀ job, answer = .ok job → job.status = .failed
  · have howes : (Flight.submitted retries answer).owesJob = false := by
      cases answer with
      | error exc => rfl
      | ok job => exact decide_eq_false (not_not_intro (hrefused job rfl))
    refine h.step_of_row hindex rfl howes (fun f' hf' => by cases hf') fun db hdb => ⟨_, htranscript db hdb, ?_⟩
    intro hsubmitted
    obtain hsame | ⟨rows, hok, -, hrows⟩ := db.settle_cases
      (writeSubmission settings.transcriptionMaxRetries retries env.takenJobs answer db.rows)
    · rw [hsame]
      exact hsubmitted
    · rw [hrows, Transcript.isSubmitted, writeSubmission_keeps hok hrefused]
      exact hsubmitted
  · simp only [not_forall] at hrefused
    obtain ⟨job, rfl, hstatus⟩ := hrefused
    obtain ⟨hid, hcommits⟩ := hapart hstatus
    obtain ⟨db, hdb⟩ := Option.isSome_iff_exists.mp (h.found _ hmem rfl)
    have hpast : ((accounted settings).step w (.act index env)).store.past.submissions = w.store.past.submissions := by
      rw [step_store hindex]
      rfl
    have hrows : ((accounted settings).step w (.act index env)).store.store.transcript = some (db.settle
        (writeSubmission settings.transcriptionMaxRetries retries env.takenJobs (.ok job) db.rows)) := by
      rw [step_store hindex]
      exact htranscript db hdb
    refine ⟨?_, ?_, ?_, ?_⟩
    · intro g _ _
      rw [hrows]
      rfl
    · rw [hpast]
      exact h.once
    · rw [hpast]
      exact fun hsubmissions => nobody_step hindex (h.submits hsubmissions) fun f' hf' => by cases hf'
    · intro _
      refine .inl ⟨_, hrows, ?_⟩
      obtain ⟨rows, hok, hvalid⟩ := Database.commits_iff.mp (hcommits db hdb)
      rw [hok, Database.settle_ok hvalid]
      obtain ⟨⟨written, outcome⟩, hperform, rfl⟩ := map_eq_ok.mp hok
      simp only [performSubmission, hstatus, if_false] at hperform
      split_ifs at hperform
      cases hperform
      exact decide_eq_true hid

theorem KeepsSubmission.act (h : KeepsSubmission w) (hindex : w.inflight[index]? = some f)
    (hapart : ActsApart settings w index env f.flight) : KeepsSubmission ((accounted settings).step w (.act index env)) := by
  cases hflight : f.flight with
  | media flight =>
    obtain ⟨flight', note⟩ := f
    obtain rfl : flight' = .media flight := hflight
    refine h.step_of_row hindex rfl rfl ?_ fun db hdb => ⟨db, hdb, id⟩
    intro f' hf'
    obtain ⟨next, -, rfl⟩ := Option.map_eq_some_iff.mp hf'
    exact ⟨rfl, fun hhas => by cases hhas⟩
  | requesting asset retries => exact h.step_requesting hindex hflight hapart
  | submitting key retries => exact h.step_submitting hindex hflight hapart
  | submitted retries answer => exact h.step_submitted hindex hflight hapart

/-- What a request reads has not called, and owes nobody an answer. -/
structure Reads (w : Executions) (flight : Flight) : Prop where
  submits : flight.submits = false
  hasTranscript : flight.hasTranscript = false
  owes : ∀ key, flight.owes key = false
  calls : ∀ key, flight.calls key → planProcessing w.store.store.media.db.rows.asset = .ok key ∧ Nobody (Flight.owes key) w

/-- It passes the guards of a task only while nobody owes the row an answer. -/
theorem reads_of_load {request : Request} (hload : (accounted settings).load request w.store = some f)
    (hapart : LoadsApart w request) : Reads w f.flight := by
  have hloaded := load_loaded (Protocol.withHistory_load hload).1
  obtain ⟨flight, note⟩ := f
  cases hloaded with
  | media hmedia =>
    cases hmedia with
    | calling hplan =>
      refine ⟨rfl, rfl, fun key => rfl, fun key hkey => ?_⟩
      obtain rfl := of_decide_eq_true hkey
      rw [LoadsApart, hplan] at hapart
      exact ⟨hplan, hapart⟩
    | _ => exact ⟨rfl, rfl, fun key => rfl, fun key hkey => by cases hkey⟩
  | requesting => exact ⟨rfl, rfl, fun key => rfl, fun key hkey => by cases hkey⟩

theorem nobody_append {P : Flight → Bool} (h : Nobody P w) (hf : P f.flight = false) :
    Nobody P { w with inflight := w.inflight ++ [f] } := by
  intro g hg
  obtain hold | hlast := List.mem_append.mp hg
  · exact h g hold
  · rw [List.mem_singleton.mp hlast]
    exact hf

theorem KeepsJobs.append (h : KeepsJobs w) (hreads : Reads w f.flight) :
    KeepsJobs { w with inflight := w.inflight ++ [f] } := by
  refine ⟨h.once, ?_, ?_, ?_, ?_⟩
  · intro job hjob hretried
    refine nobody_append (h.calls job hjob hretried) (eq_false_of_ne_true fun hcall => ?_)
    obtain ⟨hplan, hnobody⟩ := hreads.calls _ hcall
    obtain ⟨asset, hasset, hid, hstatus, hkey⟩ := planProcessing_ok hplan
    obtain (hshown | ⟨hfiled, -⟩) | ⟨g, hg, howing⟩ := h.shown job hjob hretried asset hasset hkey
    · exact hshown hid
    · exact hfiled hstatus
    · cases (hnobody g hg).symm.trans howing
  · intro job hjob hretried asset hasset hkey
    obtain hshown | ⟨g, hg, howing⟩ := h.shown job hjob hretried asset hasset hkey
    · exact .inl hshown
    · exact .inr ⟨g, List.mem_append_left _ hg, howing⟩
  · intro key ⟨g, hg, howing⟩
    obtain hold | hlast := List.mem_append.mp hg
    · refine nobody_append (h.apart key ⟨g, hold, howing⟩) (eq_false_of_ne_true fun hcall => ?_)
      cases ((hreads.calls key hcall).2 g hold).symm.trans howing
    · rw [List.mem_singleton.mp hlast, hreads.owes] at howing
      cases howing
  · intro g hg key retries created hflight
    obtain hold | hlast := List.mem_append.mp hg
    · exact h.refused g hold key retries created hflight
    · have hnot := hreads.owes key
      rw [← List.mem_singleton.mp hlast, hflight] at hnot
      exact absurd rfl (of_decide_eq_false hnot)

theorem KeepsSubmission.append (h : KeepsSubmission w) (hreads : Reads w f.flight) :
    KeepsSubmission { w with inflight := w.inflight ++ [f] } := by
  refine ⟨?_, h.once, fun hsubmissions => nobody_append (h.submits hsubmissions) hreads.submits, ?_⟩
  · intro g hg hhas
    obtain hold | hlast := List.mem_append.mp hg
    · exact h.found g hold hhas
    · rw [List.mem_singleton.mp hlast, hreads.hasTranscript] at hhas
      cases hhas
  · intro hsubmissions
    obtain hshown | ⟨g, hg, howing⟩ := h.shown hsubmissions
    · exact .inl hshown
    · exact .inr ⟨g, List.mem_append_left _ hg, howing⟩

theorem keeps_step {move : Move Request Env} (h : KeepsJobs w ∧ KeepsSubmission w) (hapart : Apart settings w move) :
    KeepsJobs ((accounted settings).step w move) ∧ KeepsSubmission ((accounted settings).step w move) := by
  cases move with
  | load request =>
    cases hload : (accounted settings).load request w.store with
    | none =>
      rw [Protocol.step_load_none hload]
      exact h
    | some f =>
      rw [Protocol.step_load_some hload]
      have hreads := reads_of_load hload hapart
      exact ⟨h.1.append hreads, h.2.append hreads⟩
  | act index env =>
    cases hindex : w.inflight[index]? with
    | none =>
      rw [Protocol.step_act_none hindex]
      exact h
    | some f => exact ⟨h.1.act hindex (hapart f hindex), h.2.act hindex (hapart f hindex)⟩

theorem keeps_idle (rows : Rows) : KeepsJobs (World.idle ⟨rows, ⟨[], []⟩⟩) ∧ KeepsSubmission (World.idle ⟨rows, ⟨[], []⟩⟩) := by
  constructor
  · refine ⟨List.Pairwise.nil, ?_, ?_, ?_, ?_⟩
    · intro job hjob
      cases hjob
    · intro job hjob
      cases hjob
    · intro key _ g hg
      cases hg
    · intro g hg
      cases hg
  · refine ⟨?_, Nat.zero_le 1, fun hsubmissions => absurd rfl hsubmissions, fun hsubmissions => absurd rfl hsubmissions⟩
    intro g hg
    cases hg

/-- Whatever arrives, is redelivered or raises: while the executions keep out of each other's way, and every call that takes
effect says so and is written down, there is one provider job for each piece of work. -/
theorem throughout_oneJobEach (settings : Settings) (rows : Rows) (run : List (Move Request Env))
    (hapart : Along (accounted settings).step (Apart settings) (World.idle ⟨rows, ⟨[], []⟩⟩) run) :
    Throughout (accounted settings).step (fun w => OneJobEach w.store) (World.idle ⟨rows, ⟨[], []⟩⟩) run := by
  have hkeeps := throughout_of_along (I := fun w => KeepsJobs w ∧ KeepsSubmission w) (fun _ _ h hmove => keeps_step h hmove)
    (keeps_idle rows) hapart
  exact hkeeps.mono fun w h => ⟨h.1.once, h.2.once⟩

/-- A call that raises before it takes effect, one that is accepted, and the same task delivered again. -/
theorem retried_call_creates_once :
    Throughout (accounted ⟨⟨5368709120, 3, "fake"⟩, 3⟩).step (fun w => OneJobEach w.store)
      (World.idle ⟨uploadedLesson, ⟨[], []⟩⟩)
      [.load (.media (.processMediaAsset 0)),
        .act 0 (answering (.raised ⟨"TimeoutError", "timed out"⟩ none)),
        .act 0 (answering (.raised ⟨"TimeoutError", "timed out"⟩ none)),
        .load (.media (.processMediaAsset 1)),
        .act 0 (answering (.returned ⟨"fake", "fakeasset_1", "fakeplay_1", .processing⟩)),
        .act 0 (answering (.raised ⟨"TimeoutError", "timed out"⟩ none)),
        .load (.media (.processMediaAsset 1))] :=
  throughout_oneJobEach _ uploadedLesson _ (by decide)

/-- The call times out after the provider accepted it, the task is retried, and the provider accepts a second asset. -/
theorem timeout_after_acceptance_creates_twice :
    ¬ Throughout (accounted ⟨⟨5368709120, 3, "fake"⟩, 3⟩).step (fun w => OneJobEach w.store)
      (World.idle ⟨uploadedLesson, ⟨[], []⟩⟩)
      [.load (.media (.processMediaAsset 0)),
        .act 0 (answering (.raised ⟨"TimeoutError", "timed out"⟩ (some "fakeasset_1"))),
        .act 0 (answering (.raised ⟨"TimeoutError", "timed out"⟩ none)),
        .load (.media (.processMediaAsset 1)),
        .act 0 (answering (.returned ⟨"fake", "fakeasset_2", "fakeplay_2", .processing⟩))] := by
  decide

end EPlatform.Lessons
