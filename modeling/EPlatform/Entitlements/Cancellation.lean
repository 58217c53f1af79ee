import EPlatform.Entitlements.Resolver
import EPlatform.Entitlements.Services
import EPlatform.Runs.Run

/-!
# What a cancellation keeps

A subscription's life with the fake provider, from its start through any renewals and failed payments, and what the
resolver grants after it was cancelled. The provider answers an ordinary cancellation with a fresh period from the
clock, so what was paid for is kept only where that period happens to end with the old one.
-/

namespace EPlatform.Entitlements

open Runs

/-- `FakeBillingProvider.start_subscription`, with the id it drew. A trial that would end before the first instant there
is overflows. -/
def fakeStartSubscription (now : Instant) (providerSubscriptionId : String) (trialDays : Option Int) :
    Except Error ProviderSubscription :=
  match trialDays with
  | some days => do
    let trialEnd : Int := now + days * DAY
    require (0 ≤ trialEnd) (.provider "date value out of range")
    return { provider := "fake", providerSubscriptionId := some providerSubscriptionId, status := .trialing
             currentPeriodEnd := trialEnd.toNat, trialEnd := some trialEnd.toNat, cancelAtPeriodEnd := false
             raw := ⟨"subscription.started.trial", now⟩ }
  | none => return { provider := "fake", providerSubscriptionId := some providerSubscriptionId, status := .active
                     currentPeriodEnd := now + PERIOD, trialEnd := none, cancelAtPeriodEnd := false
                     raw := ⟨"subscription.started", now⟩ }

/-- `start_subscription` for a user whose new row gets the key `pk`. -/
def startSubscription (user pk : Uuid) (startWith : Option Int → Except Error ProviderSubscription)
    (trialDays : Option Int) (otherLive : Bool) (now : Instant) : Except Error Rows := do
  require (otherLive = false) .anotherLiveSubscription
  let snapshot ← startWith trialDays
  return { subscription :=
             { pk, user, status := snapshot.status, currentPeriodEnd := snapshot.currentPeriodEnd
               trialEnd := snapshot.trialEnd, cancelAtPeriodEnd := snapshot.cancelAtPeriodEnd
               provider := snapshot.provider, providerSubscriptionId := snapshot.providerSubscriptionId
               updatedAt := now }
           events :=
             [{ eventType := if trialDays.isSome then .trialStarted else .activated, fromStatus := none
                toStatus := snapshot.status, providerPayload := some snapshot.raw }] }

/-! ### Lives of a subscription -/

inductive Charge
  | renew
  | failPayment
  deriving DecidableEq, Repr

/-- One charge, some time after the one before it. -/
structure Billed where
  charge : Charge
  elapsed : Nat
  otherLive : Bool
  deriving DecidableEq, Repr

structure Life where
  db : Database
  clock : Instant

def Billed.transaction (billed : Billed) (now : Instant) (rows : Rows) : Except Error Rows :=
  match billed.charge with
  | .renew => renew rows.subscription fakeBillingProvider billed.otherLive now rows
  | .failPayment => failPayment rows.subscription fakeBillingProvider billed.otherLive now rows

def bill (s : Life) (billed : Billed) : Life :=
  let now := s.clock + billed.elapsed
  ⟨s.db.settle (billed.transaction now s.db.rows), now⟩

/-- The row is the user's current one. -/
def Life.Live (s : Life) : Prop := s.db.rows.subscription.status ∈ LIVE_STATUSES

theorem startSubscription_live {user pk : Uuid} {id : String} {trialDays : Option Int} {otherLive : Bool}
    {now : Instant} {rows : Rows}
    (h : startSubscription user pk (fakeStartSubscription now id) trialDays otherLive now = .ok rows) :
    rows.Valid ∧ rows.subscription.status ∈ LIVE_STATUSES := by
  simp only [startSubscription, bind_eq_ok, require_eq_ok, exists_const, pure_eq_ok] at h
  obtain ⟨-, snapshot, hsnapshot, rfl⟩ := h
  cases trialDays with
  | none =>
    cases hsnapshot
    refine ⟨?_, by simp [LIVE_STATUSES]⟩
    intro hstatus
    cases hstatus
  | some days =>
    simp only [fakeStartSubscription, bind_eq_ok, require_eq_ok, exists_const, pure_eq_ok] at hsnapshot
    obtain ⟨-, rfl⟩ := hsnapshot
    exact ⟨fun _ => rfl, List.mem_cons_self⟩

theorem startSubscription_paid (user pk : Uuid) (id : String) (now : Instant) :
    startSubscription user pk (fakeStartSubscription now id) none false now = .ok
      { subscription :=
          { pk, user, status := .active, currentPeriodEnd := now + PERIOD, trialEnd := none, cancelAtPeriodEnd := false
            provider := "fake", providerSubscriptionId := some id, updatedAt := now }
        events := [⟨.activated, none, .active, some ⟨"subscription.started", now⟩⟩] } := rfl

/-- The life that a start which went through begins. -/
def Life.startedAs {user pk : Uuid} {id : String} {trialDays : Option Int} {otherLive : Bool} {now : Instant}
    {rows : Rows} (h : startSubscription user pk (fakeStartSubscription now id) trialDays otherLive now = .ok rows) :
    Life :=
  ⟨⟨rows, (startSubscription_live h).1⟩, now⟩

theorem transaction_live {billed : Billed} {now : Instant} {rows rows' : Rows}
    (h : billed.transaction now rows = .ok rows') : rows'.subscription.status ∈ LIVE_STATUSES := by
  unfold Billed.transaction at h
  cases hcharge : billed.charge with
  | renew =>
    rw [hcharge] at h
    obtain ⟨snapshot, hsnapshot, hsave⟩ := bind_eq_ok.mp h
    cases hsnapshot
    rw [(applySnapshot_moved hsave).status]
    simp [LIVE_STATUSES]
  | failPayment =>
    rw [hcharge] at h
    obtain ⟨snapshot, hsnapshot, hsave⟩ := bind_eq_ok.mp h
    cases hsnapshot
    rw [(applySnapshot_moved hsave).status]
    simp [LIVE_STATUSES]

theorem bill_live (s : Life) (billed : Billed) (hs : s.Live) : (bill s billed).Live := by
  refine Database.settle_induction (P := fun rows : Rows => rows.subscription.status ∈ LIVE_STATUSES) hs ?_
  intro rows hrows _
  exact transaction_live hrows

/-! ### The end of a life -/

def afterCancel (db : Database) (immediately otherLive : Bool) (now : Instant) : Subscription :=
  (db.settle (cancel db.rows.subscription fakeBillingProvider immediately otherLive now db.rows)).rows.subscription

def afterExpire (db : Database) (now : Instant) : Subscription :=
  (db.settle (expire db.rows.subscription now db.rows)).rows.subscription

def Grants (gracePeriodDays : Int) (subscription : Subscription) (lesson : Option Lesson) (now : Instant) : Prop :=
  (decideFor gracePeriodDays subscription lesson now).allowed = true

/-- Ending the subscription at `now` keeps exactly what was paid for. -/
structure KeepsWhatWasPaidFor (gracePeriodDays : Int) (lesson : Option Lesson) (otherLive : Bool) (db : Database)
    (now : Instant) : Prop where
  paid : db.rows.subscription.status = .trialing ∨ db.rows.subscription.status = .active →
    ∀ t, now ≤ t → (Grants gracePeriodDays (afterCancel db false otherLive now) lesson t ↔
      t < db.rows.subscription.currentPeriodEnd)
  unpaid : db.rows.subscription.status = .pastDue →
    ∀ t, now ≤ t → ¬ Grants gracePeriodDays db.rows.subscription lesson t →
      ¬ Grants gracePeriodDays (afterCancel db false otherLive now) lesson t
  immediately : ∀ t, now ≤ t → ¬ Grants gracePeriodDays (afterCancel db true otherLive now) lesson t
  expired : ∀ t, now ≤ t → ¬ Grants gracePeriodDays (afterExpire db now) lesson t

/-- The fresh period ends with the one that was paid for, or within the grace of the one that was not. -/
def FreshPeriodFits (gracePeriodDays : Int) (subscription : Subscription) (now : Instant) : Prop :=
  if subscription.status = .pastDue then (now : Int) + PERIOD ≤ subscription.currentPeriodEnd + grace gracePeriodDays
  else subscription.currentPeriodEnd = now + PERIOD

variable {gracePeriodDays : Int} {lesson : Option Lesson} {otherLive : Bool} {db : Database} {now t : Instant}

theorem applySnapshot_currentPeriodEnd {subscription : Subscription} {snapshot : ProviderSubscription}
    {eventType : Option EventType} {rows rows' : Rows}
    (h : applySnapshot subscription snapshot eventType otherLive now rows = .ok rows') :
    rows'.subscription.currentPeriodEnd = snapshot.currentPeriodEnd := by
  simp only [applySnapshot, bind_eq_ok, require_eq_ok, exists_const] at h
  obtain ⟨-, -, h⟩ := h
  split at h
  · cases h
  · cases pure_eq_ok.mp h
    rfl

theorem canceled_allowed {status : SubscriptionStatus} (h : status ∈ LIVE_STATUSES) :
    (status, .canceled) ∈ ALLOWED_TRANSITIONS ∧ (status, .expired) ∈ ALLOWED_TRANSITIONS := by
  cases status <;> simp_all [LIVE_STATUSES, ALLOWED_TRANSITIONS]

theorem cancel_fake (subscription : Subscription) (immediately otherLive : Bool) (now : Instant) (rows : Rows) :
    ∃ snapshot eventType, snapshot.status = (if immediately then .expired else .canceled) ∧
      snapshot.currentPeriodEnd = (if immediately then now else now + PERIOD) ∧
      cancel subscription fakeBillingProvider immediately otherLive now rows =
        applySnapshot subscription snapshot eventType otherLive now rows := by
  cases immediately with
  | false => exact ⟨_, some .cancellationRequested, rfl, rfl, rfl⟩
  | true => exact ⟨_, some .expired, rfl, rfl, rfl⟩

/-- A live subscription can always be cancelled, and the fake provider gives it a fresh period. -/
theorem afterCancel_spec (immediately otherLive : Bool) (now : Instant)
    (hlive : db.rows.subscription.status ∈ LIVE_STATUSES) :
    (afterCancel db immediately otherLive now).status = (if immediately then .expired else .canceled) ∧
      (afterCancel db immediately otherLive now).currentPeriodEnd = (if immediately then now else now + PERIOD) := by
  obtain ⟨snapshot, eventType, hstatus, hperiod, hcancel⟩ :=
    cancel_fake db.rows.subscription immediately otherLive now db.rows
  have haccepted : MoveAccepted db.rows.subscription.status otherLive snapshot.status := by
    rw [hstatus]
    cases immediately with
    | false => exact ⟨(canceled_allowed hlive).1, by simp [LIVE_STATUSES]⟩
    | true => exact ⟨(canceled_allowed hlive).2, by simp [LIVE_STATUSES]⟩
  have hcommits : Database.Commits Rows.Valid
      (applySnapshot db.rows.subscription snapshot eventType otherLive now db.rows) :=
    applySnapshot_commits.mpr haccepted
  have hsave := Database.settle_of_commits db hcommits
  simp only [afterCancel, hcancel]
  exact ⟨(applySnapshot_moved hsave).status.trans hstatus, (applySnapshot_currentPeriodEnd hsave).trans hperiod⟩

theorem afterExpire_status (hlive : db.rows.subscription.status ∈ LIVE_STATUSES) :
    (afterExpire db now).status = .expired :=
  (expire_moved (Database.settle_of_commits db (expire_commits.mpr (canceled_allowed hlive).2))).status

theorem grants_canceled_iff {subscription : Subscription} (hstatus : subscription.status = .canceled) :
    Grants gracePeriodDays subscription lesson t ↔ t < subscription.currentPeriodEnd := by
  simp only [Grants, decideFor, hstatus]
  split
  · rename_i hpaid
    exact iff_of_true rfl hpaid
  · rename_i hpaid
    exact iff_of_false (by simp [DENY_EXPIRED]) hpaid

theorem grants_pastDue_iff {subscription : Subscription} (hstatus : subscription.status = .pastDue) :
    Grants gracePeriodDays subscription lesson t ↔ (t : Int) < subscription.currentPeriodEnd + grace gracePeriodDays := by
  simp only [Grants, decideFor, hstatus]
  split
  · rename_i hgrace
    exact iff_of_true rfl hgrace
  · rename_i hgrace
    exact iff_of_false (by simp [DENY_GRACE_OVER]) hgrace

theorem not_grants_expired {subscription : Subscription} (hstatus : subscription.status = .expired) :
    ¬ Grants gracePeriodDays subscription lesson t := by
  simp [Grants, decideFor, hstatus, DENY_EXPIRED]

/-- A period that has not ended at its own start is told from every other by the instants from there on. -/
theorem fresh_period_iff {periodEnd : Instant} :
    (∀ t : Instant, now ≤ t → (t < now + PERIOD ↔ t < periodEnd)) ↔ periodEnd = now + PERIOD := by
  have hpos : now < now + PERIOD := Nat.lt_add_of_pos_right (by decide)
  constructor
  · intro h
    have hstart : now < periodEnd := (h now (Nat.le_refl now)).mp hpos
    apply Nat.le_antisymm
    · exact Nat.not_lt.mp fun hlt => Nat.lt_irrefl _ ((h (now + PERIOD) (Nat.le_of_lt hpos)).mpr hlt)
    · exact Nat.not_lt.mp fun hlt => Nat.lt_irrefl _ ((h periodEnd (Nat.le_of_lt hstart)).mp hlt)
  · intro h t _
    rw [h]

/-- Nothing is granted afresh from the end of the grace on when the fresh period ends by then. -/
theorem fresh_grace_iff {graceEnd : Int} :
    (∀ t : Instant, now ≤ t → ¬ (t : Int) < graceEnd → ¬ t < now + PERIOD) ↔ (now : Int) + PERIOD ≤ graceEnd := by
  have hpos : now < now + PERIOD := Nat.lt_add_of_pos_right (by decide)
  constructor
  · intro h
    by_contra hlt
    -- the first instant from `now` on at which the grace is over
    have hlate : ¬ ((max now graceEnd.toNat : Nat) : Int) < graceEnd := by omega
    apply h (max now graceEnd.toNat) (Nat.le_max_left _ _) hlate
    have hperiod : (0 : Int) < PERIOD := by decide
    exact Nat.max_lt.mpr ⟨hpos, by omega⟩
  · intro h t _ hover hfresh
    apply hover
    have hfresh' : (t : Int) < now + PERIOD := by exact_mod_cast hfresh
    exact Int.lt_of_lt_of_le hfresh' h

theorem keeps_iff (hlive : db.rows.subscription.status ∈ LIVE_STATUSES) :
    KeepsWhatWasPaidFor gracePeriodDays lesson otherLive db now ↔
      FreshPeriodFits gracePeriodDays db.rows.subscription now := by
  obtain ⟨hcanceled, hperiod⟩ := afterCancel_spec false otherLive now hlive
  simp only [Bool.false_eq_true, if_false] at hcanceled hperiod
  have himmediately : ∀ t, now ≤ t → ¬ Grants gracePeriodDays (afterCancel db true otherLive now) lesson t :=
    fun t _ => not_grants_expired (afterCancel_spec true otherLive now hlive).1
  have hexpired : ∀ t, now ≤ t → ¬ Grants gracePeriodDays (afterExpire db now) lesson t :=
    fun t _ => not_grants_expired (afterExpire_status hlive)
  unfold FreshPeriodFits
  split
  · rename_i hpastDue
    rw [← fresh_grace_iff]
    constructor
    · intro h t ht hover
      have hdenied := h.unpaid hpastDue t ht (mt (grants_pastDue_iff hpastDue).mp hover)
      rwa [grants_canceled_iff hcanceled, hperiod] at hdenied
    · intro h
      refine ⟨?_, ?_, himmediately, hexpired⟩
      · rintro (htrialing | hactive)
        · simp [hpastDue] at htrialing
        · simp [hpastDue] at hactive
      · intro _ t ht hdenied
        rw [grants_canceled_iff hcanceled, hperiod]
        exact h t ht (mt (grants_pastDue_iff hpastDue).mpr hdenied)
  · rename_i hpaid
    rw [← fresh_period_iff]
    constructor
    · intro h t ht
      rw [← h.paid ?_ t ht, grants_canceled_iff hcanceled, hperiod]
      simp only [LIVE_STATUSES, List.mem_cons, List.not_mem_nil, or_false] at hlive
      rcases hlive with htrialing | hactive | hpastDue
      · exact .inl htrialing
      · exact .inr hactive
      · exact absurd hpastDue hpaid
    · intro h
      refine ⟨?_, ?_, himmediately, hexpired⟩
      · intro _ t ht
        rw [grants_canceled_iff hcanceled, hperiod]
        exact h t ht
      · intro hpastDue
        exact absurd hpastDue hpaid

/-- Over the whole life of a subscription, ending it keeps exactly what was paid for if and only if the fresh period
fits. -/
theorem cancellation_keeps_iff {user pk : Uuid} {id : String} {trialDays : Option Int} {alreadyLive : Bool}
    {start : Instant} {rows : Rows}
    (hstart : startSubscription user pk (fakeStartSubscription start id) trialDays alreadyLive start = .ok rows)
    (run : List Billed) (gracePeriodDays : Int) (lesson : Option Lesson) (otherLive : Bool) (now : Instant) :
    KeepsWhatWasPaidFor gracePeriodDays lesson otherLive (final bill (Life.startedAs hstart) run).db now ↔
      FreshPeriodFits gracePeriodDays (final bill (Life.startedAs hstart) run).db.rows.subscription now := by
  apply keeps_iff
  have hlive : (Life.startedAs hstart).Live := (startSubscription_live hstart).2
  exact final_of_step bill_live hlive run

/-- A month that was cancelled in the instant it was started. -/
theorem cancelled_as_it_started :
    KeepsWhatWasPaidFor 7 none false
      (final bill (Life.startedAs (startSubscription_paid 9 4 "fake_1" 1000)) []).db 1000 :=
  (cancellation_keeps_iff (startSubscription_paid 9 4 "fake_1" 1000) [] 7 none false 1000).mpr
    (by unfold FreshPeriodFits; decide)

/-- A month that was started at 1000 and cancelled at 2000 is granted until 2000 and a month. -/
theorem cancelled_later_runs_on :
    ¬ KeepsWhatWasPaidFor 7 none false
      (final bill (Life.startedAs (startSubscription_paid 9 4 "fake_1" 1000)) []).db 2000 := by
  have hlive : (Life.startedAs (startSubscription_paid 9 4 "fake_1" 1000)).Live := by
    simp [Life.Live, Life.startedAs, LIVE_STATUSES]
  rw [final_nil, keeps_iff hlive]
  unfold FreshPeriodFits
  decide

end EPlatform.Entitlements
