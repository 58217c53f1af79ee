import EPlatform.Entitlements.Resolver
import Mathlib.Data.Int.Order.Basic
import Mathlib.Data.List.Dedup
import Mathlib.Data.Nat.Basic

/-!
# Reconciliation

The drift report repeats the resolver's time rules as query conditions. The resolver refuses from the boundary on and the
report counts from just after it, so the two agree at `now` exactly when no row sits on its boundary.
-/

namespace EPlatform.Entitlements

inductive FindingCode
  | activePastPeriod
  | trialingPastEnd
  | pastDueBeyondGrace
  | canceledPastPeriod
  | multipleLiveSubscriptions
  deriving DecidableEq, Repr

/-- `examples` are ids, of subscriptions or of users. -/
structure Finding where
  code : FindingCode
  description : String
  grantsAccess : Bool
  count : Nat
  examples : List Uuid
  deriving DecidableEq, Repr

def FINDING_EXAMPLES : Nat := 5

structure Category where
  code : FindingCode
  description : String
  grantsAccess : Bool
  condition : Subscription → Bool

/-- The four conditions at `now`. A comparison with a null `trial_end` selects nothing. -/
def categories (gracePeriodDays : Int) (now : Instant) : List Category :=
  [{ code := .activePastPeriod
     description := "ACTIVE past its paid period — still granting access, with no renewal"
     grantsAccess := true
     condition := fun s => s.status = .active && s.currentPeriodEnd < now },
   { code := .trialingPastEnd
     description := "TRIALING past trial_end — access already refused, row stale"
     grantsAccess := false
     condition := fun s => s.status = .trialing && s.trialEnd.any (· < now) },
   { code := .pastDueBeyondGrace
     description := "PAST_DUE beyond the grace period — access already refused, row stale"
     grantsAccess := false
     condition := fun s => s.status = .pastDue && s.currentPeriodEnd < now - grace gracePeriodDays },
   { code := .canceledPastPeriod
     description := "CANCELED past its paid period — access already refused, row stale"
     grantsAccess := false
     condition := fun s => s.status = .canceled && s.currentPeriodEnd < now }]

/-- `Subscription.objects.filter(condition)`. -/
def Category.matching (category : Category) (subscriptions : List Subscription) : List Subscription :=
  subscriptions.filter category.condition

def Category.finding (category : Category) (subscriptions : List Subscription) : Option Finding :=
  let count := (category.matching subscriptions).length
  if count = 0 then none
  else some
    { code := category.code
      description := category.description
      grantsAccess := category.grantsAccess
      count
      examples := (((category.matching subscriptions).map (·.pk)).mergeSort (· ≤ ·)).take FINDING_EXAMPLES }

/-- The users with more than one live subscription. The query gives them in no particular order. -/
def duplicated (subscriptions : List Subscription) : List Uuid :=
  let live := (subscriptions.filter fun s => s.status ∈ LIVE_STATUSES).map (·.user)
  live.dedup.filter fun user => 1 < live.count user

def reconciliationFindings (gracePeriodDays : Int) (subscriptions : List Subscription) (now : Instant) :
    List Finding :=
  let findings := (categories gracePeriodDays now).filterMap fun category => category.finding subscriptions
  if duplicated subscriptions = [] then findings
  else findings ++
    [{ code := .multipleLiveSubscriptions
       description := "More than one live subscription for one user — the unique constraint is not holding"
       grantsAccess := true
       count := (duplicated subscriptions).length
       examples := (duplicated subscriptions).take FINDING_EXAMPLES }]

/-! ### Agreement with the resolver -/

/-- The finding is in the report, and the row is one of those it counts. -/
structure CountedIn (gracePeriodDays : Int) (subscriptions : List Subscription) (now : Instant) (finding : Finding)
    (row : Subscription) : Prop where
  reported : finding ∈ reconciliationFindings gracePeriodDays subscriptions now
  counted : ∃ category ∈ categories gracePeriodDays now,
    category.finding subscriptions = some finding ∧ row ∈ category.matching subscriptions

/-- The report and the resolver draw the same lines. -/
structure Agrees (gracePeriodDays : Int) (subscriptions : List Subscription) (lesson : Option Lesson) (now : Instant) :
    Prop where
  refused : ∀ row ∈ subscriptions,
    (∃ finding, finding.grantsAccess = false ∧ CountedIn gracePeriodDays subscriptions now finding row) ↔
      row.status ≠ .expired ∧ (decideFor gracePeriodDays row lesson now).allowed = false
  stale : ∀ row ∈ subscriptions,
    (∃ finding, finding.code = .activePastPeriod ∧ CountedIn gracePeriodDays subscriptions now finding row) ↔
      row.status = .active ∧ row.currentPeriodEnd ≤ now
  once : ∀ row ∈ subscriptions, ∀ finding finding', CountedIn gracePeriodDays subscriptions now finding row →
    CountedIn gracePeriodDays subscriptions now finding' row → finding.code = finding'.code

/-- The instant is the very one the row's status is measured against. -/
def OnBoundary (gracePeriodDays : Int) (now : Instant) (row : Subscription) : Prop :=
  match row.status with
  | .trialing => row.trialEnd = some now
  | .active => row.currentPeriodEnd = now
  | .pastDue => row.currentPeriodEnd + grace gracePeriodDays = now
  | .canceled => row.currentPeriodEnd = now
  | .expired => False

variable {gracePeriodDays : Int} {subscriptions : List Subscription} {now : Instant} {finding : Finding}
  {category : Category} {row : Subscription}

theorem finding_eq_some (h : category.finding subscriptions = some finding) :
    finding.code = category.code ∧ finding.grantsAccess = category.grantsAccess ∧
      finding.count = (category.matching subscriptions).length := by
  simp only [Category.finding] at h
  split at h
  · cases h
  · cases h
    exact ⟨rfl, rfl, rfl⟩

theorem finding_isSome (hrow : row ∈ category.matching subscriptions) :
    ∃ finding, category.finding subscriptions = some finding := by
  have hcount : (category.matching subscriptions).length ≠ 0 :=
    Nat.ne_of_gt (List.length_pos_of_mem hrow)
  simp only [Category.finding, if_neg hcount]
  exact ⟨_, rfl⟩

theorem finding_mem_report (hcategory : category ∈ categories gracePeriodDays now)
    (h : category.finding subscriptions = some finding) :
    finding ∈ reconciliationFindings gracePeriodDays subscriptions now := by
  have hfindings : finding ∈ (categories gracePeriodDays now).filterMap fun category => category.finding subscriptions :=
    List.mem_filterMap.mpr ⟨category, hcategory, h⟩
  simp only [reconciliationFindings]
  split
  · exact hfindings
  · exact List.mem_append_left _ hfindings

/-- A row is counted by the findings of the categories whose condition selects it. -/
theorem exists_countedIn_iff {P : FindingCode → Bool → Prop} (hrow : row ∈ subscriptions) :
    (∃ finding, P finding.code finding.grantsAccess ∧ CountedIn gracePeriodDays subscriptions now finding row) ↔
      ∃ category ∈ categories gracePeriodDays now, P category.code category.grantsAccess ∧
        category.condition row = true := by
  constructor
  · rintro ⟨finding, hP, -, category, hcategory, hfinding, hmatching⟩
    obtain ⟨hcode, hgrants, -⟩ := finding_eq_some hfinding
    rw [hcode, hgrants] at hP
    exact ⟨category, hcategory, hP, (List.mem_filter.mp hmatching).2⟩
  · rintro ⟨category, hcategory, hP, hcondition⟩
    have hmatching : row ∈ category.matching subscriptions := List.mem_filter.mpr ⟨hrow, hcondition⟩
    obtain ⟨finding, hfinding⟩ := finding_isSome hmatching
    obtain ⟨hcode, hgrants, -⟩ := finding_eq_some hfinding
    refine ⟨finding, ?_, finding_mem_report hcategory hfinding, category, hcategory, hfinding, hmatching⟩
    rw [hcode, hgrants]
    exact hP

/-- The categories differ in the status they select. -/
theorem countedIn_code_unique {finding' : Finding} (h : CountedIn gracePeriodDays subscriptions now finding row)
    (h' : CountedIn gracePeriodDays subscriptions now finding' row) : finding.code = finding'.code := by
  obtain ⟨-, category, hcategory, hfinding, hmatching⟩ := h
  obtain ⟨-, category', hcategory', hfinding', hmatching'⟩ := h'
  have hcondition := (List.mem_filter.mp hmatching).2
  have hcondition' := (List.mem_filter.mp hmatching').2
  rw [(finding_eq_some hfinding).1, (finding_eq_some hfinding').1]
  simp only [categories, List.mem_cons, List.not_mem_nil, or_false] at hcategory hcategory'
  cases hstatus : row.status <;> rcases hcategory with rfl | rfl | rfl | rfl <;> simp_all <;>
    rcases hcategory' with rfl | rfl | rfl | rfl <;> simp_all

theorem stale_iff (gracePeriodDays : Int) (hrow : row ∈ subscriptions) :
    (∃ finding, finding.code = .activePastPeriod ∧ CountedIn gracePeriodDays subscriptions now finding row) ↔
      row.status = .active ∧ row.currentPeriodEnd < now := by
  rw [exists_countedIn_iff (P := fun code _ => code = .activePastPeriod) hrow]
  simp [categories]

theorem refusing_iff (hrow : row ∈ subscriptions) :
    (∃ finding, finding.grantsAccess = false ∧ CountedIn gracePeriodDays subscriptions now finding row) ↔
      (row.status = .trialing ∧ row.trialEnd.any (· < now)) ∨
        (row.status = .pastDue ∧ row.currentPeriodEnd + grace gracePeriodDays < now) ∨
        (row.status = .canceled ∧ row.currentPeriodEnd < now) := by
  rw [exists_countedIn_iff (P := fun _ grantsAccess => grantsAccess = false) hrow]
  have hgrace : (row.currentPeriodEnd : Int) < now - grace gracePeriodDays ↔
      row.currentPeriodEnd + grace gracePeriodDays < now :=
    ⟨Int.add_lt_of_lt_sub_right, Int.lt_sub_right_of_add_lt⟩
  simp [categories, hgrace]

theorem refused_iff (lesson : Option Lesson) :
    row.status ≠ .expired ∧ (decideFor gracePeriodDays row lesson now).allowed = false ↔
      (row.status = .trialing ∧ row.trialEnd.any (· ≤ now)) ∨
        (row.status = .pastDue ∧ row.currentPeriodEnd + grace gracePeriodDays ≤ now) ∨
        (row.status = .canceled ∧ row.currentPeriodEnd ≤ now) := by
  unfold decideFor
  cases hstatus : row.status with
  | trialing =>
    cases htrial : row.trialEnd.any (· ≤ now) <;> simp [trialCovers, DENY_TRIAL_OVER, ALLOW_TRIAL]
  | active => simp [ALLOW_ACTIVE]
  | pastDue =>
    by_cases hgrace : (now : Int) < row.currentPeriodEnd + grace gracePeriodDays
    · simp [hgrace, ALLOW_GRACE]
    · simp [hgrace, DENY_GRACE_OVER, Int.not_lt.mp hgrace]
  | canceled =>
    by_cases hpaid : now < row.currentPeriodEnd
    · simp [hpaid, ALLOW_CANCELED_PAID]
    · simp [hpaid, DENY_EXPIRED, Nat.not_lt.mp hpaid]
  | expired => simp

/-- Counting from just after a boundary differs from refusing from it on, only on it. -/
theorem lt_iff_le_iff_ne {α : Type*} [PartialOrder α] {a b : α} : (a < b ↔ a ≤ b) ↔ a ≠ b := by
  constructor
  · intro h heq
    exact ne_of_lt (h.mpr (le_of_eq heq)) heq
  · intro hne
    exact ⟨le_of_lt, fun hle => lt_of_le_of_ne hle hne⟩

/-- For one row: the strict and the reached conditions agree off the boundary, and only there. -/
theorem row_agrees_iff :
    (((row.status = .trialing ∧ row.trialEnd.any (· < now)) ∨
          (row.status = .pastDue ∧ row.currentPeriodEnd + grace gracePeriodDays < now) ∨
          (row.status = .canceled ∧ row.currentPeriodEnd < now)) ↔
        ((row.status = .trialing ∧ row.trialEnd.any (· ≤ now)) ∨
          (row.status = .pastDue ∧ row.currentPeriodEnd + grace gracePeriodDays ≤ now) ∨
          (row.status = .canceled ∧ row.currentPeriodEnd ≤ now))) ∧
      ((row.status = .active ∧ row.currentPeriodEnd < now) ↔
        (row.status = .active ∧ row.currentPeriodEnd ≤ now)) ↔
      ¬ OnBoundary gracePeriodDays now row := by
  unfold OnBoundary
  cases hstatus : row.status with
  | trialing =>
    cases row.trialEnd with
    | none => simp
    | some trialEnd => simpa using lt_iff_le_iff_ne (a := trialEnd) (b := now)
  | active => simpa using lt_iff_le_iff_ne (a := row.currentPeriodEnd) (b := now)
  | pastDue => simpa using lt_iff_le_iff_ne (a := row.currentPeriodEnd + grace gracePeriodDays) (b := (now : Int))
  | canceled => simpa using lt_iff_le_iff_ne (a := row.currentPeriodEnd) (b := now)
  | expired => simp

/-- The report agrees with the resolver at `now` exactly when no row sits on its boundary. -/
theorem report_agrees_iff (gracePeriodDays : Int) (subscriptions : List Subscription) (lesson : Option Lesson)
    (now : Instant) :
    Agrees gracePeriodDays subscriptions lesson now ↔
      ∀ row ∈ subscriptions, ¬ OnBoundary gracePeriodDays now row := by
  constructor
  · intro h row hrow
    rw [← row_agrees_iff]
    constructor
    · rw [← refusing_iff hrow, ← refused_iff lesson]
      exact h.refused row hrow
    · rw [← stale_iff gracePeriodDays hrow]
      exact h.stale row hrow
  · intro h
    constructor
    · intro row hrow
      rw [refusing_iff hrow, refused_iff lesson]
      exact (row_agrees_iff.mpr (h row hrow)).1
    · intro row hrow
      rw [stale_iff gracePeriodDays hrow]
      exact (row_agrees_iff.mpr (h row hrow)).2
    · intro row _ finding finding' hcounted hcounted'
      exact countedIn_code_unique hcounted hcounted'

/-- A cancelled subscription whose paid period ends at 1000. -/
def canceledUntil1000 : Subscription where
  pk := 4
  user := 9
  status := .canceled
  currentPeriodEnd := 1000
  trialEnd := none
  cancelAtPeriodEnd := true
  provider := "fake"
  providerSubscriptionId := some "fake_1"
  updatedAt := 0

/-- At 1000 the resolver already refuses the row and the report does not count it. -/
theorem canceled_uncounted_at_its_end : ¬ Agrees 7 [canceledUntil1000] none 1000 := by
  intro h
  have hrow : canceledUntil1000 ∈ [canceledUntil1000] := List.mem_singleton_self canceledUntil1000
  have hcounted := (h.refused canceledUntil1000 hrow).mpr (by decide)
  rw [refusing_iff hrow] at hcounted
  revert hcounted
  decide

end EPlatform.Entitlements
