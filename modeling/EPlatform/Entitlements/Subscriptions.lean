import EPlatform.Entitlements.Cancellation
import EPlatform.Entitlements.StateMachine
import EPlatform.Runs.Table

/-!
# Everybody's subscriptions

The table of subscriptions and the log all of them share, with the fake provider: users subscribe, and anything may be
done to any subscription there is, one operation after the other. Beside the table stands the status each row was
created with.
-/

namespace EPlatform.Entitlements

open Runs

structure LoggedEvent where
  subscription : Uuid
  event : SubscriptionEvent
  deriving DecidableEq, Repr

structure Subscriptions where
  rows : List Subscription
  events : List LoggedEvent
  deriving DecidableEq, Repr

def Subscription.IsLive (row : Subscription) : Prop := row.status ∈ LIVE_STATUSES

instance : DecidablePred Subscription.IsLive := fun row => inferInstanceAs (Decidable (row.status ∈ LIVE_STATUSES))

/-- Nulls do not collide. -/
def Subscription.providerKey (row : Subscription) : Option (String × String) :=
  row.providerSubscriptionId.map fun id => (row.provider, id)

structure Subscriptions.Valid (s : Subscriptions) : Prop where
  primaryKeys : Table.Unique (·.pk) s.rows
  oneLiveSubscriptionPerUser : Table.Unique (·.user) (s.rows.filter fun row => row.IsLive)
  trialingRequiresATrialEnd : ∀ row ∈ s.rows, row.status = .trialing → row.trialEnd.isSome
  subscriptionUniquePerProviderId : (s.rows.filterMap (·.providerKey)).Nodup
  subscriptionExists : ∀ entry ∈ s.events, ∃ row ∈ s.rows, row.pk = entry.subscription

instance (s : Subscriptions) : Decidable s.Valid :=
  decidable_of_iff
    (Table.Unique (·.pk) s.rows ∧ Table.Unique (·.user) (s.rows.filter fun row => row.IsLive) ∧
      (∀ row ∈ s.rows, row.status = .trialing → row.trialEnd.isSome) ∧ (s.rows.filterMap (·.providerKey)).Nodup ∧
      ∀ entry ∈ s.events, ∃ row ∈ s.rows, row.pk = entry.subscription)
    ⟨fun ⟨h₁, h₂, h₃, h₄, h₅⟩ => ⟨h₁, h₂, h₃, h₄, h₅⟩, fun ⟨h₁, h₂, h₃, h₄, h₅⟩ => ⟨h₁, h₂, h₃, h₄, h₅⟩⟩

abbrev Subscriptions.Database := Runs.Database Subscriptions.Valid

/-- Somebody subscribes, with the key and the provider's id drawn for the new row, or an operation is made. -/
inductive BillingCall
  | start (user pk : Uuid) (id : String) (trialDays : Option Int) (now : Instant)
  | operate (pk : Uuid) (operation : Operation) (now : Instant)
  deriving DecidableEq, Repr

inductive BillingError
  | noSuchSubscription
  | refused (e : Error)
  deriving DecidableEq, Repr

/-- Another of the user's subscriptions is live. -/
def Subscriptions.otherLive (s : Subscriptions) (pk user : Uuid) : Bool :=
  s.rows.any fun row => row.pk ≠ pk ∧ row.user = user ∧ row.IsLive

def Subscriptions.log (s : Subscriptions) (pk : Uuid) (events : List SubscriptionEvent) : List LoggedEvent :=
  s.events ++ events.map fun event => ⟨pk, event⟩

/-- `start_subscription` looks for a live row of the user, and inserts. -/
def Subscriptions.insert (s : Subscriptions) (created : Rows) : Subscriptions :=
  ⟨s.rows ++ [created.subscription], s.log created.subscription.pk created.events⟩

def Subscriptions.put (s : Subscriptions) (after : Rows) : Subscriptions :=
  ⟨Table.save (·.pk) after.subscription s.rows, s.log after.subscription.pk after.events⟩

/-- An operation acts on the row as it is stored, and appends to the log. -/
def BillingCall.transaction (s : Subscriptions) : BillingCall → Except BillingError Subscriptions
  | .start user pk id trialDays now =>
    let otherLive := s.rows.any fun row => row.user = user ∧ row.IsLive
    ((startSubscription user pk (fakeStartSubscription now id) trialDays otherLive now).mapError .refused).map s.insert
  | .operate pk operation now =>
    match Table.find (·.pk) pk s.rows with
    | none => .error .noSuchSubscription
    | some row =>
      let env : Env := ⟨now, fakeBillingProvider, s.otherLive pk row.user⟩
      (((⟨operation, row⟩ : Flight).transaction env ⟨row, []⟩).mapError .refused).map s.put

/-- The tables, and the status each row was created with. -/
structure Billing where
  db : Subscriptions.Database
  created : List (Uuid × SubscriptionStatus)

def Billing.raises (s : Billing) (call : BillingCall) : Prop :=
  ¬ Runs.Database.Commits Subscriptions.Valid (call.transaction s.db.rows)

def BillingCall.creates (call : BillingCall) (after : Subscriptions) : List (Uuid × SubscriptionStatus) :=
  match call with
  | .start _ pk _ _ _ => ((Table.find (·.pk) pk after.rows).map fun row => (pk, row.status)).toList
  | .operate .. => []

instance (s : Billing) (call : BillingCall) : Decidable (s.raises call) := inferInstanceAs (Decidable (¬ _))

def serve (s : Billing) (call : BillingCall) : Billing :=
  let db := s.db.settle (call.transaction s.db.rows)
  ⟨db, if s.raises call then s.created else s.created ++ call.creates db.rows⟩

/-! ### What holds of every row -/

def Subscriptions.eventsOf (s : Subscriptions) (pk : Uuid) : List SubscriptionEvent :=
  (about (·.subscription) pk s.events).map (·.event)

/-- The events of a row are one story, from the status it was created with to the one it has. -/
structure TellsFrom (created : SubscriptionStatus) (events : List SubscriptionEvent) (status : SubscriptionStatus) :
    Prop where
  beginning : ∃ first ∈ events.head?, first.fromStatus = none ∧ first.toStatus = created
  story : Tells SubscriptionEvent.fromStatus SubscriptionEvent.toStatus events status

structure Balanced (s : Billing) : Prop where
  oneLive : ∀ row ∈ s.db.rows.rows, ∀ other ∈ s.db.rows.rows, row.IsLive → other.IsLive → row.user = other.user →
    row = other
  trialing : ∀ row ∈ s.db.rows.rows, row.status = .trialing → row.trialEnd = some row.currentPeriodEnd
  events : ∀ row ∈ s.db.rows.rows, ∃ created, (row.pk, created) ∈ s.created ∧
    TellsFrom created (s.db.rows.eventsOf row.pk) row.status
  created : s.created.map Prod.fst = s.db.rows.rows.map (·.pk)

/-- What one call does to the rows that are there. -/
structure KeepsTerms (before : Billing) (call : BillingCall) (after : Billing) : Prop where
  trialEnd : ∀ row ∈ before.db.rows.rows, ∃ row' ∈ after.db.rows.rows, row'.pk = row.pk ∧
    ∀ trialEnd, row.trialEnd = some trialEnd → row'.trialEnd = some trialEnd
  failPayment : ∀ pk now, call = .operate pk .failPayment now → ∀ row ∈ before.db.rows.rows,
    ∃ row' ∈ after.db.rows.rows, row'.pk = row.pk ∧ row'.currentPeriodEnd = row.currentPeriodEnd
  raises : before.raises call → after = before

/-! ### What an operation writes -/

theorem applySnapshot_ok {subscription : Subscription} {snapshot : ProviderSubscription} {eventType : Option EventType}
    {otherLive : Bool} {now : Instant} {rows rows' : Rows}
    (h : applySnapshot subscription snapshot eventType otherLive now rows = .ok rows') :
    (subscription.status, snapshot.status) ∈ ALLOWED_TRANSITIONS ∧ ∃ event,
      rows' = (rows.saveSnapshot subscription snapshot now).addEvent event ∧
        event.fromStatus = some subscription.status ∧ event.toStatus = snapshot.status := by
  simp only [applySnapshot, bind_eq_ok, require_eq_ok, exists_const] at h
  obtain ⟨hallowed, -, h⟩ := h
  split at h
  · cases h
  · cases pure_eq_ok.mp h
    exact ⟨hallowed, _, rfl, rfl, rfl⟩

/-- The row an operation leaves is the one it found, on its way, with one event to show for it. -/
structure Advances (operation : Operation) (row : Subscription) (after : Rows) : Prop where
  pk : after.subscription.pk = row.pk
  status : after.subscription.status ≠ .trialing
  trialEnd : after.subscription.trialEnd = row.trialEnd
  failPayment : operation = .failPayment → after.subscription.currentPeriodEnd = row.currentPeriodEnd
  event : ∃ event, after.events = [event] ∧ event.fromStatus = some row.status ∧
    event.toStatus = after.subscription.status

/-- The fake provider never speaks of a trial's end again. -/
theorem applySnapshot_advances {operation : Operation} {row : Subscription} {snapshot : ProviderSubscription}
    {eventType : Option EventType} {otherLive : Bool} {now : Instant} {after : Rows} (htrial : snapshot.trialEnd = none)
    (hperiod : operation = .failPayment → snapshot.currentPeriodEnd = row.currentPeriodEnd)
    (h : applySnapshot row snapshot eventType otherLive now ⟨row, []⟩ = .ok after) : Advances operation row after := by
  obtain ⟨hallowed, event, rfl, hfrom, hto⟩ := applySnapshot_ok h
  refine ⟨rfl, (target_of_mem_allowed hallowed).1, ?_, hperiod, event, rfl, hfrom, hto⟩
  simp [Rows.addEvent, Rows.saveSnapshot, htrial]

theorem transaction_advances {operation : Operation} {row : Subscription} {now : Instant} {otherLive : Bool}
    {after : Rows}
    (h : (⟨operation, row⟩ : Flight).transaction ⟨now, fakeBillingProvider, otherLive⟩ ⟨row, []⟩ = .ok after) :
    Advances operation row after := by
  cases operation with
  | renew =>
    obtain ⟨snapshot, hsnapshot, hsave⟩ := bind_eq_ok.mp h
    cases hsnapshot
    exact applySnapshot_advances rfl (by simp) hsave
  | failPayment =>
    obtain ⟨snapshot, hsnapshot, hsave⟩ := bind_eq_ok.mp h
    cases hsnapshot
    exact applySnapshot_advances rfl (fun _ => rfl) hsave
  | cancel immediately =>
    obtain ⟨snapshot, hsnapshot, hsave⟩ := bind_eq_ok.mp h
    cases immediately with
    | false =>
      cases hsnapshot
      exact applySnapshot_advances rfl (by simp) hsave
    | true =>
      cases hsnapshot
      exact applySnapshot_advances rfl (by simp) hsave
  | expire =>
    simp only [Flight.transaction, expire, bind_eq_ok, require_eq_ok, exists_const, pure_eq_ok] at h
    obtain ⟨-, rfl⟩ := h
    exact ⟨rfl, by simp [Rows.addEvent], rfl, by simp, _, rfl, rfl, rfl⟩

/-- A new row has a trial's end exactly when it is a trial, and its first event says what it was created as. -/
structure Begins (pk : Uuid) (created : Rows) : Prop where
  pk : created.subscription.pk = pk
  trialing : created.subscription.status = .trialing →
    created.subscription.trialEnd = some created.subscription.currentPeriodEnd
  event : ∃ event, created.events = [event] ∧ event.fromStatus = none ∧ event.toStatus = created.subscription.status

theorem startSubscription_begins {user pk : Uuid} {id : String} {trialDays : Option Int} {otherLive : Bool}
    {now : Instant} {created : Rows}
    (h : startSubscription user pk (fakeStartSubscription now id) trialDays otherLive now = .ok created) :
    Begins pk created := by
  simp only [startSubscription, bind_eq_ok, require_eq_ok, exists_const, pure_eq_ok] at h
  obtain ⟨-, snapshot, hsnapshot, rfl⟩ := h
  cases trialDays with
  | none =>
    cases hsnapshot
    exact ⟨rfl, by simp, _, rfl, rfl, rfl⟩
  | some days =>
    simp only [fakeStartSubscription, bind_eq_ok, require_eq_ok, exists_const, pure_eq_ok] at hsnapshot
    obtain ⟨-, rfl⟩ := hsnapshot
    exact ⟨rfl, fun _ => rfl, _, rfl, rfl, rfl⟩

/-! ### What a call does to the tables -/

theorem eventsOf_self {s : Subscriptions} {rows : List Subscription} {pk : Uuid} {events : List SubscriptionEvent} :
    (⟨rows, s.log pk events⟩ : Subscriptions).eventsOf pk = s.eventsOf pk ++ events := by
  have hown : ∀ entry ∈ events.map (fun event => (⟨pk, event⟩ : LoggedEvent)), entry.subscription = pk := by simp
  simp only [Subscriptions.eventsOf, Subscriptions.log, about_append_self hown, List.map_append, List.map_map]
  simp [Function.comp_def]

theorem eventsOf_other {s : Subscriptions} {rows : List Subscription} {pk other : Uuid} {events : List SubscriptionEvent}
    (hother : other ≠ pk) : (⟨rows, s.log pk events⟩ : Subscriptions).eventsOf other = s.eventsOf other := by
  have hown : ∀ entry ∈ events.map (fun event => (⟨pk, event⟩ : LoggedEvent)), entry.subscription = pk := by simp
  simp only [Subscriptions.eventsOf, Subscriptions.log, about_append_other hown hother]

/-- What a call that goes through did. -/
inductive Served (s : Subscriptions) (call : BillingCall) : Subscriptions → Prop
  | started {user pk id trialDays now created} (hcall : call = .start user pk id trialDays now)
    (hbegins : Begins pk created) : Served s call (s.insert created)
  | operated {pk operation now row after} (hcall : call = .operate pk operation now) (hrow : row ∈ s.rows)
    (hpk : row.pk = pk) (hadvances : Advances operation row after) : Served s call (s.put after)

theorem transaction_served {s after : Subscriptions} {call : BillingCall} (h : call.transaction s = .ok after) :
    Served s call after := by
  cases call with
  | start user pk id trialDays now =>
    obtain ⟨created, hstart, rfl⟩ := map_eq_ok.mp h
    exact .started rfl (startSubscription_begins (mapError_eq_ok.mp hstart))
  | operate pk operation now =>
    simp only [BillingCall.transaction] at h
    cases hfind : Table.find (·.pk) pk s.rows with
    | none => simp [hfind] at h
    | some row =>
      simp only [hfind] at h
      obtain ⟨rows, hoperate, rfl⟩ := map_eq_ok.mp h
      obtain ⟨hrow, hpk⟩ := Table.find_eq_some hfind
      exact .operated rfl hrow hpk (transaction_advances (mapError_eq_ok.mp hoperate))

theorem Subscriptions.Valid.oneLive {s : Subscriptions} (h : s.Valid) {row other : Subscription} (hrow : row ∈ s.rows)
    (hother : other ∈ s.rows) (hlive : row.IsLive) (hlive' : other.IsLive) (huser : row.user = other.user) :
    row = other := by
  have hmem : row ∈ s.rows.filter fun row => row.IsLive := List.mem_filter.mpr ⟨hrow, by simpa using hlive⟩
  have hmem' : other ∈ s.rows.filter fun row => row.IsLive := List.mem_filter.mpr ⟨hother, by simpa using hlive'⟩
  exact h.oneLiveSubscriptionPerUser.eq hmem hmem' huser

/-- An entry continues the story of a row that goes on to the status it names. -/
theorem TellsFrom.concat {created status next : SubscriptionStatus} {events : List SubscriptionEvent}
    {event : SubscriptionEvent} (h : TellsFrom created events status) (hfrom : event.fromStatus = some status)
    (hto : event.toStatus = next) : TellsFrom created (events ++ [event]) next := by
  obtain ⟨first, hfirst, hbegin⟩ := h.beginning
  have hne : events ≠ [] := by
    rintro rfl
    cases hfirst
  refine ⟨⟨first, ?_, hbegin⟩, (h.story.concat_iff event next).mpr ⟨hfrom, hto⟩⟩
  rwa [List.head?_append_of_ne_nil _ hne]

/-- A call that raises, or whose rows the tables refuse, changes nothing. -/
theorem serve_of_raises {s : Billing} {call : BillingCall} (h : s.raises call) : serve s call = s := by
  have hdb : s.db.settle (call.transaction s.db.rows) = s.db := Runs.Database.settle_of_not_commits h
  simp only [serve, hdb, h, if_true]

theorem serve_cases (s : Billing) (call : BillingCall) :
    (s.raises call ∧ serve s call = s) ∨ ¬ s.raises call ∧ ∃ after, ∃ hvalid : after.Valid,
      Served s.db.rows call after ∧ serve s call = ⟨⟨after, hvalid⟩, s.created ++ call.creates after⟩ := by
  by_cases hraises : s.raises call
  · exact .inl ⟨hraises, serve_of_raises hraises⟩
  · obtain ⟨after, hok, hvalid⟩ := Runs.Database.commits_iff.mp (not_not.mp hraises)
    refine .inr ⟨hraises, after, hvalid, transaction_served hok, ?_⟩
    simp only [serve, hraises, if_false, hok, Runs.Database.settle_ok hvalid]

theorem started_balanced {s : Billing} (hs : Balanced s) {created : Rows} {pk : Uuid} (hbegins : Begins pk created)
    (hvalid : (s.db.rows.insert created).Valid) :
    Balanced ⟨⟨s.db.rows.insert created, hvalid⟩, s.created ++ [(pk, created.subscription.status)]⟩ := by
  obtain ⟨hpk, htrialing, event, hevents, hfrom, hto⟩ := hbegins
  have hfresh : ∀ row ∈ s.db.rows.rows, row.pk ≠ pk := by
    have hkeys := hvalid.primaryKeys
    simp only [Table.Unique, Subscriptions.insert, List.map_append, List.map_cons, List.map_nil] at hkeys
    intro row hrow
    exact hpk ▸ (List.nodup_append.mp hkeys).2.2 row.pk (List.mem_map_of_mem hrow) created.subscription.pk (by simp)
  refine ⟨fun row hrow other hother => hvalid.oneLive hrow hother, ?_, ?_, ?_⟩
  · exact Table.forall_mem_insert hs.trialing htrialing
  · intro row hrow
    rcases List.mem_append.mp hrow with hold | hnew
    · obtain ⟨status, hcreated, htells⟩ := hs.events row hold
      refine ⟨status, List.mem_append_left _ hcreated, ?_⟩
      have hother : row.pk ≠ created.subscription.pk := hpk ▸ hfresh row hold
      have hsame : (s.db.rows.insert created).eventsOf row.pk = s.db.rows.eventsOf row.pk := eventsOf_other hother
      rw [hsame]
      exact htells
    · obtain rfl := List.mem_singleton.mp hnew
      refine ⟨created.subscription.status, List.mem_append_right _ (by simp [hpk]), ?_⟩
      have hnone : s.db.rows.eventsOf created.subscription.pk = [] := by
        rw [Subscriptions.eventsOf, about_eq_nil, List.map_nil]
        intro entry hentry hsame
        obtain ⟨row, hrow, hrowPk⟩ := s.db.valid.subscriptionExists entry hentry
        exact hfresh row hrow (hrowPk.trans (hsame.trans hpk))
      have hself : (s.db.rows.insert created).eventsOf created.subscription.pk = [event] := by
        rw [Subscriptions.insert, eventsOf_self, hnone, hevents, List.nil_append]
      rw [hself, ← hto]
      exact ⟨⟨event, rfl, hfrom, rfl⟩, tells_singleton⟩
  · rw [List.map_append, hs.created]
    simp [Subscriptions.insert, hpk]

theorem operated_balanced {s : Billing} (hs : Balanced s) {operation : Operation} {row : Subscription} {after : Rows}
    (hrow : row ∈ s.db.rows.rows) (hadvances : Advances operation row after) (hvalid : (s.db.rows.put after).Valid) :
    Balanced ⟨⟨s.db.rows.put after, hvalid⟩, s.created⟩ := by
  obtain ⟨hpk, hstatus, -, -, event, hevents, hfrom, hto⟩ := hadvances
  refine ⟨fun row hrow other hother => hvalid.oneLive hrow hother, ?_, ?_, ?_⟩
  · intro saved hsaved htrialing
    rcases Table.mem_save.mp hsaved with ⟨hold, -⟩ | ⟨rfl, -⟩
    · exact hs.trialing saved hold htrialing
    · exact absurd htrialing hstatus
  · intro saved hsaved
    rcases Table.mem_save.mp hsaved with ⟨hold, hother⟩ | ⟨rfl, -⟩
    · obtain ⟨status, hcreated, htells⟩ := hs.events saved hold
      have hsame : (s.db.rows.put after).eventsOf saved.pk = s.db.rows.eventsOf saved.pk := eventsOf_other hother
      exact ⟨status, hcreated, by rwa [hsame]⟩
    · obtain ⟨status, hcreated, htells⟩ := hs.events row hrow
      have hself : (s.db.rows.put after).eventsOf after.subscription.pk = s.db.rows.eventsOf row.pk ++ [event] := by
        rw [Subscriptions.put, eventsOf_self, hevents, hpk]
      refine ⟨status, hpk ▸ hcreated, ?_⟩
      rw [hself]
      exact htells.concat hfrom hto
  · rw [hs.created]
    exact Table.map_key_save.symm

theorem creates_start {s : Subscriptions} {user pk : Uuid} {id : String} {trialDays : Option Int} {now : Instant}
    {created : Rows} (hpk : created.subscription.pk = pk) (hvalid : (s.insert created).Valid) :
    (BillingCall.start user pk id trialDays now).creates (s.insert created) = [(pk, created.subscription.status)] := by
  have hmem : created.subscription ∈ (s.insert created).rows := List.mem_append_right _ (List.mem_singleton.mpr rfl)
  have hfind : Table.find (·.pk) pk (s.insert created).rows = some created.subscription := by
    cases hfind : Table.find (·.pk) pk (s.insert created).rows with
    | none => exact absurd hpk (Table.find_eq_none hfind _ hmem)
    | some row =>
      obtain ⟨hrow, hrowPk⟩ := Table.find_eq_some hfind
      exact congrArg some (hvalid.primaryKeys.eq hrow hmem (hrowPk.trans hpk.symm))
  simp only [BillingCall.creates, hfind, Option.map_some, Option.toList_some]

theorem serve_balanced {s : Billing} (call : BillingCall) (hs : Balanced s) : Balanced (serve s call) := by
  rcases serve_cases s call with ⟨-, hsame⟩ | ⟨-, after, hvalid, hserved, hafter⟩
  · rw [hsame]
    exact hs
  · rw [hafter]
    cases hserved with
    | started hcall hbegins =>
      subst hcall
      rw [creates_start hbegins.pk hvalid]
      exact started_balanced hs hbegins hvalid
    | operated hcall hrow _ hadvances =>
      subst hcall
      rw [BillingCall.creates, List.append_nil]
      exact operated_balanced hs hrow hadvances hvalid

/-- A row an operation did not act on is still there, and the one it acted on is the row it left. -/
theorem exists_mem_put {s : Subscriptions} (hs : s.Valid) {row other : Subscription} {after : Rows} (hrow : row ∈ s.rows)
    (hpk : after.subscription.pk = row.pk) (hother : other ∈ s.rows) :
    ∃ row' ∈ (s.put after).rows, row'.pk = other.pk ∧ (row' = other ∨ other = row ∧ row' = after.subscription) := by
  by_cases hsame : other.pk = row.pk
  · have hmem : after.subscription ∈ (s.put after).rows := Table.mem_save.mpr (.inr ⟨rfl, row, hrow, hpk.symm⟩)
    exact ⟨after.subscription, hmem, hpk.trans hsame.symm, .inr ⟨hs.primaryKeys.eq hother hrow hsame, rfl⟩⟩
  · have hne : other.pk ≠ after.subscription.pk := by rwa [hpk]
    exact ⟨other, Table.mem_save.mpr (.inl ⟨hother, hne⟩), rfl, .inl rfl⟩

theorem serve_keepsTerms (s : Billing) (call : BillingCall) : KeepsTerms s call (serve s call) := by
  rcases serve_cases s call with ⟨-, hsame⟩ | ⟨hnot, after, hvalid, hserved, hafter⟩
  · rw [hsame]
    exact ⟨fun row hrow => ⟨row, hrow, rfl, fun _ h => h⟩, fun _ _ _ row hrow => ⟨row, hrow, rfl, rfl⟩, fun _ => rfl⟩
  · rw [hafter]
    refine ⟨?_, ?_, fun hraises => absurd hraises hnot⟩
    · cases hserved with
      | started _ _ => exact fun row hrow => ⟨row, List.mem_append_left _ hrow, rfl, fun _ h => h⟩
      | operated _ hrow _ hadvances =>
        intro other hother
        obtain ⟨row', hrow', hpk', hcases⟩ := exists_mem_put s.db.valid hrow hadvances.pk hother
        refine ⟨row', hrow', hpk', fun trialEnd htrial => ?_⟩
        rcases hcases with rfl | ⟨rfl, rfl⟩
        · exact htrial
        · exact hadvances.trialEnd.trans htrial
    · intro pk now hcall
      cases hserved with
      | started hstart _ => exact absurd (hstart.symm.trans hcall) (by simp)
      | operated hoperate hrow _ hadvances =>
        intro other hother
        obtain ⟨row', hrow', hpk', hcases⟩ := exists_mem_put s.db.valid hrow hadvances.pk hother
        refine ⟨row', hrow', hpk', ?_⟩
        rcases hcases with rfl | ⟨rfl, rfl⟩
        · rfl
        · have hfail := hoperate.symm.trans hcall
          exact hadvances.failPayment (by injection hfail)

/-! ### Runs -/

/-- The books are balanced in every state of every run that starts so, as it does with no subscriptions, and every call
keeps the terms. -/
theorem throughout_balanced_iff (s : Billing) (run : List BillingCall) :
    Throughout serve Balanced s run ∧ Along serve (fun s call => KeepsTerms s call (serve s call)) s run ↔ Balanced s :=
  throughout_and_along_iff (fun _ call h => serve_balanced call h) fun s call _ => serve_keepsTerms s call

/-- With no subscriptions the books are balanced. -/
example : Balanced ⟨⟨⟨[], []⟩, by decide⟩, []⟩ :=
  ⟨by simp, by simp, by simp, rfl⟩

end EPlatform.Entitlements
