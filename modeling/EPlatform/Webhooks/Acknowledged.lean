import EPlatform.Webhooks.Receivers

/-!
# Acknowledged events and their tasks

A provider that received a 200 never sends the event again, so whatever was not enqueued by then is enqueued by nobody.
The first delivery answers after it enqueued; a redelivery answers without looking.
-/

namespace EPlatform.Webhooks

open Runs

/-- A task for the event's record was enqueued at least once. -/
def Enqueued (providers : Providers) (s : Tables) (event : Payload) : Prop :=
  ∃ record ∈ s.events, (record.provider, record.providerEventId) = event.key providers ∧
    (event.task, record.pk) ∈ s.queue

instance (providers : Providers) (s : Tables) (event : Payload) : Decidable (Enqueued providers s event) :=
  inferInstanceAs (Decidable (∃ record ∈ _, _ ∧ _))

/-- No event has two records. -/
def OneRecordEach {π : Type} (events : List (WebhookEvent π)) : Prop :=
  events.Pairwise fun earlier later =>
    (earlier.provider, earlier.providerEventId) ≠ (later.provider, later.providerEventId)

instance {π : Type} (events : List (WebhookEvent π)) : Decidable (OneRecordEach events) :=
  inferInstanceAs (Decidable (events.Pairwise _))

structure NeverLost (providers : Providers) (s : Tables) : Prop where
  enqueued : ∀ event ∈ s.acknowledged, Enqueued providers s event
  records : OneRecordEach s.events

instance (providers : Providers) : DecidablePred (NeverLost providers) := fun s =>
  decidable_of_iff ((∀ event ∈ s.acknowledged, Enqueued providers s event) ∧ OneRecordEach s.events)
    ⟨fun ⟨henqueued, hrecords⟩ => ⟨henqueued, hrecords⟩, fun ⟨henqueued, hrecords⟩ => ⟨henqueued, hrecords⟩⟩

/-- The duplicate branch answers only for an event whose task was enqueued. -/
def WasEnqueued (providers : Providers) (env : Env) (flight : Flight) (s : Tables) : Prop :=
  match flight with
  | .duplicate event => env.outcome.TookEffect → Enqueued providers s event
  | _ => True

/-! ### The invariant -/

/-- What a request has done for its event by the time it comes to a stage. -/
def HasDone (providers : Providers) (s : Tables) (flight : Flight) : Prop :=
  match flight with
  | .enqueueing event pk =>
    ∃ record ∈ s.events, (record.provider, record.providerEventId) = event.key providers ∧ record.pk = pk
  | .acknowledging event => Enqueued providers s event
  | _ => True

theorem Enqueued.mono {providers : Providers} {s s' : Tables} {event : Payload} (h : Enqueued providers s event)
    (hevents : s.events ⊆ s'.events) (hqueue : s.queue ⊆ s'.queue) : Enqueued providers s' event := by
  obtain ⟨record, hrecord, hkey, htask⟩ := h
  exact ⟨record, hevents hrecord, hkey, hqueue htask⟩

theorem HasDone.mono {providers : Providers} {s s' : Tables} {flight : Flight} (h : HasDone providers s flight)
    (hevents : s.events ⊆ s'.events) (hqueue : s.queue ⊆ s'.queue) : HasDone providers s' flight := by
  cases flight with
  | enqueueing event pk =>
    obtain ⟨record, hrecord, hkey, hpk⟩ := h
    exact ⟨record, hevents hrecord, hkey, hpk⟩
  | acknowledging event => exact Enqueued.mono h hevents hqueue
  | _ => trivial

/-- Nothing is ever deleted. -/
theorem perform_grows (providers : Providers) (newPk : Uuid) (s : Tables) (flight : Flight) :
    s.events ⊆ (perform providers newPk s flight).1.events ∧ s.queue ⊆ (perform providers newPk s flight).1.queue := by
  cases flight with
  | recording event =>
    simp only [perform]
    split
    · rename_i events hcreate
      obtain ⟨-, -, rfl⟩ := create_ok.mp hcreate
      exact ⟨List.subset_append_left _ _, List.Subset.refl _⟩
    · exact ⟨List.Subset.refl _, List.Subset.refl _⟩
    · exact ⟨List.Subset.refl _, List.Subset.refl _⟩
  | enqueueing event record => exact ⟨List.Subset.refl _, List.subset_append_left _ _⟩
  | acknowledging event => exact ⟨List.Subset.refl _, List.Subset.refl _⟩
  | duplicate event => exact ⟨List.Subset.refl _, List.Subset.refl _⟩

/-- A request that goes on has done what its next stage relies on. -/
theorem perform_hasDone {providers : Providers} {newPk : Uuid} {s : Tables} {flight flight' : Flight}
    (hflight : HasDone providers s flight) (h : (perform providers newPk s flight).2 = some flight') :
    HasDone providers (perform providers newPk s flight).1 flight' := by
  cases flight with
  | recording event =>
    simp only [perform] at h ⊢
    split at h
    · rename_i events hcreate
      obtain ⟨-, -, rfl⟩ := create_ok.mp hcreate
      cases h
      have hrecord : event.record providers newPk ∈ s.events ++ [event.record providers newPk] :=
        List.mem_append_right _ (List.mem_singleton.mpr rfl)
      exact ⟨_, hrecord, record_key providers newPk event, record_pk providers newPk event⟩
    · cases h
      trivial
    · cases h
  | enqueueing event pk =>
    cases h
    obtain ⟨record, hrecord, hkey, rfl⟩ := hflight
    exact ⟨record, hrecord, hkey, List.mem_append_right _ (List.mem_singleton.mpr rfl)⟩
  | acknowledging event => cases h
  | duplicate event => cases h

theorem act_cases (providers : Providers) (env : Env) (flight : Flight) (s : Tables) :
    (env.outcome.TookEffect ∧ (act providers env flight s).1 = (perform providers env.newPk s flight).1) ∨
      (¬ env.outcome.TookEffect ∧ (act providers env flight s).1 = s) := by
  simp only [act]
  cases env.outcome with
  | goesOn => exact .inl ⟨trivial, rfl⟩
  | breaksOff tookEffect =>
    cases tookEffect with
    | true => exact .inl ⟨rfl, rfl⟩
    | false => exact .inr ⟨Bool.false_ne_true, rfl⟩

theorem act_grows (providers : Providers) (env : Env) (flight : Flight) (s : Tables) :
    s.events ⊆ (act providers env flight s).1.events ∧ s.queue ⊆ (act providers env flight s).1.queue := by
  rcases act_cases providers env flight s with ⟨-, hact⟩ | ⟨-, hact⟩
  · rw [hact]
    exact perform_grows providers env.newPk s flight
  · rw [hact]
    exact ⟨List.Subset.refl _, List.Subset.refl _⟩

theorem oneRecordEach_create {π : Type} {event : WebhookEvent π} {events events' : List (WebhookEvent π)}
    (h : OneRecordEach events) (hcreate : create event events = .ok events') : OneRecordEach events' := by
  obtain ⟨-, hfree, rfl⟩ := create_ok.mp hcreate
  unfold OneRecordEach
  rw [List.pairwise_append]
  refine ⟨h, List.pairwise_singleton _ _, ?_⟩
  intro other hother event' hevent' hkey
  rw [List.mem_singleton.mp hevent', Prod.mk.injEq] at hkey
  exact hfree other hother (.inr hkey)

/-- One more acknowledgement is fine exactly when its event was enqueued. -/
theorem neverLost_acknowledge_iff {providers : Providers} {s : Tables} (hs : NeverLost providers s) (event : Payload) :
    NeverLost providers { s with acknowledged := s.acknowledged ++ [event] } ↔ Enqueued providers s event := by
  constructor
  · intro h
    exact h.enqueued event (List.mem_append_right _ (List.mem_singleton.mpr rfl))
  · intro henqueued
    refine ⟨?_, hs.records⟩
    intro other hother
    rcases List.mem_append.mp hother with hother | hother
    · exact hs.enqueued other hother
    · rw [List.mem_singleton.mp hother]
      exact henqueued

theorem act_neverLost {providers : Providers} {env : Env} {flight : Flight} {s : Tables}
    (hflight : HasDone providers s flight) (hs : NeverLost providers s) :
    NeverLost providers (act providers env flight s).1 ↔ WasEnqueued providers env flight s := by
  obtain ⟨hevents, hqueue⟩ := perform_grows providers env.newPk s flight
  rcases act_cases providers env flight s with ⟨heffect, hact⟩ | ⟨hnone, hact⟩
  · rw [hact]
    cases flight with
    | recording event =>
      refine iff_of_true ⟨?_, ?_⟩ trivial
      · intro other hother
        have hbefore : other ∈ s.acknowledged := by
          simp only [perform] at hother
          split at hother <;> exact hother
        exact (hs.enqueued other hbefore).mono hevents hqueue
      · simp only [perform]
        split
        · rename_i hcreate
          exact oneRecordEach_create hs.records hcreate
        · exact hs.records
        · exact hs.records
    | enqueueing event record =>
      refine iff_of_true ⟨?_, hs.records⟩ trivial
      intro other hother
      exact (hs.enqueued other hother).mono hevents hqueue
    | acknowledging event => exact iff_of_true ((neverLost_acknowledge_iff hs event).mpr hflight) trivial
    | duplicate event =>
      have hiff := neverLost_acknowledge_iff hs event
      simp only [perform, WasEnqueued, heffect, forall_const]
      exact hiff
  · rw [hact]
    apply iff_of_true hs
    cases flight with
    | duplicate event => exact fun heffect => absurd heffect hnone
    | _ => trivial

/-- No acknowledged event is lost, and none has two records, in every state of exactly the runs that start so and in which
the duplicate branch answers only for events whose task was enqueued. -/
theorem throughout_neverLost_iff (providers : Providers) (s : Tables) (run : List (Move Request Env)) :
    Throughout (receivers providers).step (fun w => NeverLost providers w.store) (World.idle s) run ↔
      NeverLost providers s ∧
        Along (receivers providers).step (Protocol.Guarded (WasEnqueued providers)) (World.idle s) run := by
  have hdone : (receivers providers).Noninterference (fun _ _ _ => True) (fun _ => True) (HasDone providers) :=
    { load := by
        intro s request flight _ hload
        cases request with
        | video payload signature => obtain ⟨event, -, rfl⟩ := Option.map_eq_some_iff.mp hload; trivial
        | transcription payload signature => obtain ⟨result, -, rfl⟩ := Option.map_eq_some_iff.mp hload; trivial
      store := fun _ _ _ => trivial
      next := by
        intro s env flight flight' _ hflight _ hnext
        simp only [receivers, act] at hnext ⊢
        cases houtcome : env.outcome with
        | goesOn =>
          simp only [houtcome] at hnext
          exact perform_hasDone hflight hnext
        | breaksOff tookEffect =>
          simp only [houtcome] at hnext
          cases hnext
      others := by
        intro s env flight other _ _ _ hother
        obtain ⟨hevents, hqueue⟩ := act_grows providers env flight s
        exact HasDone.mono hother hevents hqueue }
  exact Protocol.throughout_iff_guarded hdone (fun _ hflight hs => act_neverLost hflight hs)
    (Protocol.holds_idle trivial)

/-- Two fakes whose one event each is already read. -/
def fakes : Providers where
  video := ⟨"fake", fun _ _ => true, fun _ => .ok ⟨"fakeevt_1", "video.asset.ready", "fakeasset_1", .ready, some 42⟩⟩
  transcription := ⟨"fake", fun _ _ => true, fun _ => .ok ⟨"job-1", .completed, some 940, []⟩⟩

/-- The event is inserted, its enqueue raises, the provider sends it again and receives 200. -/
theorem redelivery_after_failed_enqueue_is_lost :
    ¬ Throughout (receivers fakes).step (fun w => NeverLost fakes w.store) (World.idle ⟨[], [], []⟩)
      [.load (.video [] ""), .act 0 ⟨50, .goesOn⟩, .act 0 ⟨0, .breaksOff false⟩,
        .load (.video [] ""), .act 0 ⟨51, .goesOn⟩, .act 0 ⟨0, .goesOn⟩] := by
  decide

end EPlatform.Webhooks
