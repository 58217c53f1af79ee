import EPlatform.Accounts.User
import EPlatform.Entitlements.Subscription

/-!
# The entitlement resolver

One function decides who may see a lesson, and it answers with a reason. It is written as layers of early returns: the
lesson's own rules, then the account's, then every subscription for itself, and last the most informative refusal. Here
it is shown to be one declarative condition, `Entitled`, whatever order the subscriptions come in.
-/

namespace EPlatform.Entitlements

open Runs

inductive Reason
  | preview
  | staff
  | courseOwner
  | override
  | subscriptionActive
  | trial
  | gracePeriod
  | canceledButPaid
  | loginRequired
  | noSubscription
  | subscriptionExpired
  | trialExpired
  | trialScope
  | gracePeriodEnded
  deriving DecidableEq, Repr

inductive Cta
  | login
  | subscribe
  | updatePayment
  deriving DecidableEq, Repr

structure AccessDecision where
  allowed : Bool
  reason : Reason
  cta : Option Cta := none
  deriving DecidableEq, Repr

def ALLOW_PREVIEW : AccessDecision := { allowed := true, reason := .preview }
def ALLOW_STAFF : AccessDecision := { allowed := true, reason := .staff }
def ALLOW_OWNER : AccessDecision := { allowed := true, reason := .courseOwner }
def ALLOW_OVERRIDE : AccessDecision := { allowed := true, reason := .override }
def ALLOW_ACTIVE : AccessDecision := { allowed := true, reason := .subscriptionActive }
def ALLOW_TRIAL : AccessDecision := { allowed := true, reason := .trial }
def ALLOW_GRACE : AccessDecision := { allowed := true, reason := .gracePeriod }
def ALLOW_CANCELED_PAID : AccessDecision := { allowed := true, reason := .canceledButPaid }

def DENY_LOGIN : AccessDecision := { allowed := false, reason := .loginRequired, cta := some .login }
def DENY_NONE : AccessDecision := { allowed := false, reason := .noSubscription, cta := some .subscribe }
def DENY_EXPIRED : AccessDecision := { allowed := false, reason := .subscriptionExpired, cta := some .subscribe }
def DENY_TRIAL_OVER : AccessDecision := { allowed := false, reason := .trialExpired, cta := some .subscribe }
def DENY_TRIAL_SCOPE : AccessDecision := { allowed := false, reason := .trialScope, cta := some .subscribe }
def DENY_GRACE_OVER : AccessDecision := { allowed := false, reason := .gracePeriodEnded, cta := some .updatePayment }

/-- Denials ranked by how much they tell the person. -/
def DENIAL_RANK : List (Reason × Nat) :=
  [(.noSubscription, 0), (.trialScope, 1), (.trialExpired, 2), (.subscriptionExpired, 3), (.gracePeriodEnded, 4)]

/-- A reason with no rank. -/
structure KeyError where
  key : Reason
  deriving DecidableEq, Repr

/-- `_DENIAL_RANK[reason]`. -/
def denialRank (reason : Reason) : Except KeyError Nat :=
  match DENIAL_RANK.lookup reason with
  | some rank => .ok rank
  | none => .error ⟨reason⟩

/-- What the resolver reads of a lesson. -/
structure Lesson where
  isPreview : Bool
  courseInstructor : Uuid
  deriving DecidableEq, Repr

structure AccessOverride where
  user : Uuid
  startsAt : Instant
  endsAt : Instant
  deriving DecidableEq, Repr

/-- `None`, an `AnonymousUser`, or somebody signed in. -/
inductive Caller
  | nobody
  | anonymous
  | account (user : User)
  deriving DecidableEq, Repr

/-- The account, if `user is not None and user.is_authenticated`. -/
def Caller.signedIn : Caller → Option User
  | .nobody => none
  | .anonymous => none
  | .account user => some user

def DAY : Nat := 24 * 60 * 60 * 1000000

/-- `timedelta(days=settings.ENTITLEMENT_GRACE_PERIOD_DAYS)`. -/
def grace (gracePeriodDays : Int) : Int := gracePeriodDays * DAY

/-- The scoping rule is undecided; until then a trial grants what an active subscription grants. -/
def trialCovers (_subscription : Subscription) (_lesson : Option Lesson) : Bool := true

def decideFor (gracePeriodDays : Int) (subscription : Subscription) (lesson : Option Lesson) (now : Instant) :
    AccessDecision :=
  match subscription.status with
  | .active => ALLOW_ACTIVE
  | .trialing =>
    if subscription.trialEnd.any (· ≤ now) then DENY_TRIAL_OVER
    else if !trialCovers subscription lesson then DENY_TRIAL_SCOPE
    else ALLOW_TRIAL
  | .pastDue => if now < subscription.currentPeriodEnd + grace gracePeriodDays then ALLOW_GRACE else DENY_GRACE_OVER
  | .canceled => if now < subscription.currentPeriodEnd then ALLOW_CANCELED_PAID else DENY_EXPIRED
  | .expired => DENY_EXPIRED

/-! ### The selectors and the two entry points -/

def subscriptionsBearingOnAccess (subscriptions : List Subscription) (user : User) : List Subscription :=
  subscriptions.filter fun subscription => subscription.user = user.pk

def activeOverrideExists (overrides : List AccessOverride) (user : User) (now : Instant) : Bool :=
  overrides.any fun o => o.user = user.pk && o.startsAt ≤ now && now < o.endsAt

/-- The rest of `max(decisions, key=...)`, which keeps the first of equals. -/
def maxByRank (best : AccessDecision) (rank : Nat) : List AccessDecision → Except KeyError AccessDecision
  | [] => .ok best
  | decision :: rest => do
    let rank' ← denialRank decision.reason
    if rank < rank' then maxByRank decision rank' rest else maxByRank best rank rest

/-- The first decision that allows, or else the most informative refusal. -/
def decideAmong (decisions : List AccessDecision) : Except KeyError AccessDecision :=
  match decisions.find? AccessDecision.allowed with
  | some decision => .ok decision
  | none =>
    match decisions with
    | [] => .ok DENY_NONE
    | first :: rest => do maxByRank first (← denialRank first.reason) rest

def decisionsFor (gracePeriodDays : Int) (subscriptions : List Subscription) (account : User) (lesson : Option Lesson)
    (now : Instant) : List AccessDecision :=
  (subscriptionsBearingOnAccess subscriptions account).map fun subscription =>
    decideFor gracePeriodDays subscription lesson now

/-- The clock is read twice, once here and once by `active_override_exists`. -/
def resolveAccountAccess (gracePeriodDays : Int) (subscriptions : List Subscription) (overrides : List AccessOverride)
    (user : Caller) (lesson : Option Lesson) (now overridesNow : Instant) : Except KeyError AccessDecision :=
  match user.signedIn with
  | none => .ok DENY_LOGIN
  | some user =>
    if user.role = .admin || user.isSuperuser then .ok ALLOW_STAFF
    else if activeOverrideExists overrides user overridesNow then .ok ALLOW_OVERRIDE
    else decideAmong (decisionsFor gracePeriodDays subscriptions user lesson now)

def resolveAccess (gracePeriodDays : Int) (subscriptions : List Subscription) (overrides : List AccessOverride)
    (user : Caller) (lesson : Lesson) (now overridesNow : Instant) : Except KeyError AccessDecision :=
  if lesson.isPreview then .ok ALLOW_PREVIEW
  else if user.signedIn.any fun account => lesson.courseInstructor = account.pk then .ok ALLOW_OWNER
  else resolveAccountAccess gracePeriodDays subscriptions overrides user (some lesson) now overridesNow

/-! ### What the layers amount to -/

/-- What entitles an account in general: who it is, a manual grant, or a subscription that grants by itself. -/
def AccountEntitled (gracePeriodDays : Int) (subscriptions : List Subscription) (overrides : List AccessOverride)
    (account : User) (lesson : Option Lesson) (now overridesNow : Instant) : Prop :=
  account.role = .admin ∨ account.isSuperuser ∨
    (∃ o ∈ overrides, o.user = account.pk ∧ o.startsAt ≤ overridesNow ∧ overridesNow < o.endsAt) ∨
    ∃ subscription ∈ subscriptions, subscription.user = account.pk ∧
      (decideFor gracePeriodDays subscription lesson now).allowed

/-- What entitles somebody to a lesson, in one statement. -/
def Entitled (gracePeriodDays : Int) (subscriptions : List Subscription) (overrides : List AccessOverride)
    (user : Caller) (lesson : Lesson) (now overridesNow : Instant) : Prop :=
  lesson.isPreview ∨ ∃ account, user.signedIn = some account ∧
    (lesson.courseInstructor = account.pk ∨
      AccountEntitled gracePeriodDays subscriptions overrides account (some lesson) now overridesNow)

/-- The refusals one subscription can meet with. -/
def REFUSALS : List AccessDecision := [DENY_TRIAL_SCOPE, DENY_TRIAL_OVER, DENY_EXPIRED, DENY_GRACE_OVER]

/-- The rank as a number, for a decision that has one. -/
def AccessDecision.rank (decision : AccessDecision) : Nat := (DENIAL_RANK.lookup decision.reason).getD 0

/-- A decision with the highest rank of all. -/
structure Surfaces (decisions : List AccessDecision) (decision : AccessDecision) : Prop where
  mem : decision ∈ decisions
  rank_le : ∀ other ∈ decisions, other.rank ≤ decision.rank

/-- The refusal that somebody nothing entitles is given. -/
def Refusal (gracePeriodDays : Int) (subscriptions : List Subscription) (user : Caller) (lesson : Lesson)
    (now : Instant) (decision : AccessDecision) : Prop :=
  match user.signedIn with
  | none => decision = DENY_LOGIN
  | some account =>
    let decisions := decisionsFor gracePeriodDays subscriptions account (some lesson) now
    (decisions = [] ∧ decision = DENY_NONE) ∨ Surfaces decisions decision

variable {gracePeriodDays : Int} {subscription : Subscription} {subscriptions subscriptions' : List Subscription}
  {overrides overrides' : List AccessOverride} {user : Caller} {account : User} {now overridesNow : Instant}
  {decisions decisions' : List AccessDecision} {decision decision' : AccessDecision}

theorem decideFor_allowed_or_mem_refusals (lesson : Option Lesson) :
    (decideFor gracePeriodDays subscription lesson now).allowed = true ∨
      decideFor gracePeriodDays subscription lesson now ∈ REFUSALS := by
  unfold decideFor
  cases subscription.status with
  | active => exact .inl rfl
  | trialing =>
    simp only [trialCovers, Bool.not_true, Bool.false_eq_true, if_false]
    split
    · exact .inr (by decide)
    · exact .inl rfl
  | pastDue =>
    dsimp only
    split
    · exact .inl rfl
    · exact .inr (by decide)
  | canceled =>
    dsimp only
    split
    · exact .inl rfl
    · exact .inr (by decide)
  | expired => exact .inr (by simp [REFUSALS])

theorem denialRank_of_mem_refusals (h : decision ∈ REFUSALS) : denialRank decision.reason = .ok decision.rank := by
  have hall : ∀ refusal ∈ REFUSALS, denialRank refusal.reason = .ok refusal.rank := by decide
  exact hall decision h

/-- The loop over the rest carries the most informative refusal met so far. -/
theorem maxByRank_surfaces {best : AccessDecision} {rest : List AccessDecision} (hbest : best ∈ REFUSALS)
    (hrest : ∀ other ∈ rest, other ∈ REFUSALS) :
    ∃ decision, maxByRank best best.rank rest = .ok decision ∧ Surfaces (best :: rest) decision := by
  induction rest generalizing best with
  | nil => exact ⟨best, rfl, by simp, by simp⟩
  | cons next rest ih =>
    have hnext : next ∈ REFUSALS := hrest next List.mem_cons_self
    have hrest' : ∀ other ∈ rest, other ∈ REFUSALS := fun other hother => hrest other (List.mem_cons_of_mem _ hother)
    have hloop : maxByRank best best.rank (next :: rest) =
        if best.rank < next.rank then maxByRank next next.rank rest else maxByRank best best.rank rest := by
      rw [maxByRank, denialRank_of_mem_refusals hnext]
      rfl
    rw [hloop]
    split
    · rename_i hlt
      obtain ⟨decision, hdecision, hmem, hle⟩ := ih hnext hrest'
      refine ⟨decision, hdecision, List.mem_cons_of_mem _ hmem, ?_⟩
      intro other hother
      rcases List.mem_cons.mp hother with hother | hother
      · rw [hother]
        exact Nat.le_trans (Nat.le_of_lt hlt) (hle next List.mem_cons_self)
      · exact hle other hother
    · rename_i hge
      obtain ⟨decision, hdecision, hmem, hle⟩ := ih hbest hrest'
      refine ⟨decision, hdecision, ?_, ?_⟩
      · exact List.cons_subset_cons best (List.subset_cons_self next rest) hmem
      · intro other hother
        rcases List.mem_cons.mp hother with hother | hother
        · rw [hother]
          exact hle best List.mem_cons_self
        · rcases List.mem_cons.mp hother with hother | hother
          · rw [hother]
            exact Nat.le_trans (Nat.not_lt.mp hge) (hle best List.mem_cons_self)
          · exact hle other (List.mem_cons_of_mem _ hother)

theorem decideAmong_spec (h : ∀ other ∈ decisions, other.allowed = true ∨ other ∈ REFUSALS) :
    ∃ decision, decideAmong decisions = .ok decision ∧
      ((decision ∈ decisions ∧ decision.allowed = true) ∨
        ((∀ other ∈ decisions, ¬ other.allowed = true) ∧ decision.allowed = false ∧
          ((decisions = [] ∧ decision = DENY_NONE) ∨ Surfaces decisions decision))) := by
  unfold decideAmong
  cases hfind : decisions.find? AccessDecision.allowed with
  | some decision => exact ⟨decision, rfl, .inl ⟨List.mem_of_find?_eq_some hfind, List.find?_some hfind⟩⟩
  | none =>
    have hnone := List.find?_eq_none.mp hfind
    have hrefused : ∀ other ∈ decisions, other ∈ REFUSALS :=
      fun other hother => (h other hother).resolve_left (hnone other hother)
    cases decisions with
    | nil => exact ⟨DENY_NONE, rfl, .inr ⟨hnone, rfl, .inl ⟨rfl, rfl⟩⟩⟩
    | cons first rest =>
      have hfirst := hrefused first List.mem_cons_self
      obtain ⟨decision, hmax, hsurfaces⟩ :=
        maxByRank_surfaces hfirst fun other hother => hrefused other (List.mem_cons_of_mem _ hother)
      refine ⟨decision, ?_, .inr ⟨hnone, Bool.eq_false_iff.mpr (hnone decision hsurfaces.mem), .inr hsurfaces⟩⟩
      dsimp only
      rw [denialRank_of_mem_refusals hfirst]
      exact hmax

theorem activeOverrideExists_iff : activeOverrideExists overrides account overridesNow = true ↔
    ∃ o ∈ overrides, o.user = account.pk ∧ o.startsAt ≤ overridesNow ∧ overridesNow < o.endsAt := by
  simp [activeOverrideExists, and_assoc]

theorem mem_decisionsFor {lesson : Option Lesson} :
    decision ∈ decisionsFor gracePeriodDays subscriptions account lesson now ↔
      ∃ subscription ∈ subscriptions, subscription.user = account.pk ∧
        decideFor gracePeriodDays subscription lesson now = decision := by
  simp [decisionsFor, subscriptionsBearingOnAccess, and_assoc]

theorem resolveAccountAccess_spec (gracePeriodDays : Int) (subscriptions : List Subscription)
    (overrides : List AccessOverride) (lesson : Option Lesson) (now overridesNow : Instant)
    (hsigned : user.signedIn = some account) :
    ∃ decision, resolveAccountAccess gracePeriodDays subscriptions overrides user lesson now overridesNow = .ok decision ∧
      ((AccountEntitled gracePeriodDays subscriptions overrides account lesson now overridesNow ∧
          decision.allowed = true) ∨
        (¬ AccountEntitled gracePeriodDays subscriptions overrides account lesson now overridesNow ∧
          decision.allowed = false ∧
          ((decisionsFor gracePeriodDays subscriptions account lesson now = [] ∧ decision = DENY_NONE) ∨
            Surfaces (decisionsFor gracePeriodDays subscriptions account lesson now) decision))) := by
  simp only [resolveAccountAccess, hsigned, AccountEntitled]
  by_cases hstaff : (account.role = .admin || account.isSuperuser) = true
  · rw [if_pos hstaff]
    have hstaff' : account.role = .admin ∨ account.isSuperuser = true := by simpa using hstaff
    refine ⟨ALLOW_STAFF, rfl, .inl ⟨?_, rfl⟩⟩
    rcases hstaff' with hrole | hsuper
    · exact .inl hrole
    · exact .inr (.inl hsuper)
  rw [if_neg hstaff]
  have hnotStaff : ¬ account.role = .admin ∧ ¬ account.isSuperuser = true := by simpa using hstaff
  by_cases hover : activeOverrideExists overrides account overridesNow = true
  · rw [if_pos hover]
    exact ⟨ALLOW_OVERRIDE, rfl, .inl ⟨.inr (.inr (.inl (activeOverrideExists_iff.mp hover))), rfl⟩⟩
  rw [if_neg hover]
  have hnoOverride := mt activeOverrideExists_iff.mpr hover
  have hranked : ∀ other ∈ decisionsFor gracePeriodDays subscriptions account lesson now,
      other.allowed = true ∨ other ∈ REFUSALS := by
    intro other hother
    obtain ⟨subscription, -, -, hdecide⟩ := mem_decisionsFor.mp hother
    exact hdecide ▸ decideFor_allowed_or_mem_refusals lesson
  obtain ⟨decision, hdecision, hcases⟩ := decideAmong_spec hranked
  refine ⟨decision, hdecision, ?_⟩
  rcases hcases with ⟨hmem, hallowed⟩ | ⟨hnone, hallowed, hrefusal⟩
  · obtain ⟨subscription, hsubscription, huser, hdecide⟩ := mem_decisionsFor.mp hmem
    exact .inl ⟨.inr (.inr (.inr ⟨subscription, hsubscription, huser, hdecide ▸ hallowed⟩)), hallowed⟩
  · refine .inr ⟨?_, hallowed, hrefusal⟩
    rintro (hrole | hsuper | hoverride | ⟨subscription, hsubscription, huser, hallowed'⟩)
    · exact hnotStaff.1 hrole
    · exact hnotStaff.2 hsuper
    · exact hnoOverride hoverride
    · exact hnone _ (mem_decisionsFor.mpr ⟨subscription, hsubscription, huser, rfl⟩) hallowed'

/-- The resolver always answers: it allows whom something entitles, and refuses everybody else with the refusal that
surfaces. -/
theorem resolveAccess_spec (gracePeriodDays : Int) (subscriptions : List Subscription)
    (overrides : List AccessOverride) (user : Caller) (lesson : Lesson) (now overridesNow : Instant) :
    ∃ decision, resolveAccess gracePeriodDays subscriptions overrides user lesson now overridesNow = .ok decision ∧
      ((Entitled gracePeriodDays subscriptions overrides user lesson now overridesNow ∧ decision.allowed = true) ∨
        (¬ Entitled gracePeriodDays subscriptions overrides user lesson now overridesNow ∧
          decision.allowed = false ∧ Refusal gracePeriodDays subscriptions user lesson now decision)) := by
  simp only [resolveAccess, Entitled, Refusal]
  by_cases hpreview : lesson.isPreview = true
  · rw [if_pos hpreview]
    exact ⟨ALLOW_PREVIEW, rfl, .inl ⟨.inl hpreview, rfl⟩⟩
  rw [if_neg hpreview]
  cases hsigned : user.signedIn with
  | none =>
    refine ⟨DENY_LOGIN, by simp [resolveAccountAccess, hsigned], .inr ⟨?_, rfl, rfl⟩⟩
    rintro (h | ⟨account, haccount, -⟩)
    · exact hpreview h
    · cases haccount
  | some account =>
    by_cases howner : lesson.courseInstructor = account.pk
    · exact ⟨ALLOW_OWNER, by simp [howner], .inl ⟨.inr ⟨account, rfl, .inl howner⟩, rfl⟩⟩
    have howner' : ¬ ((some account).any fun account => decide (lesson.courseInstructor = account.pk)) = true := by
      simpa using howner
    rw [if_neg howner']
    obtain ⟨decision, hdecision, hcases⟩ := resolveAccountAccess_spec gracePeriodDays subscriptions overrides
      (some lesson) now overridesNow hsigned
    refine ⟨decision, hdecision, ?_⟩
    rcases hcases with ⟨hentitled, hallowed⟩ | ⟨hentitled, hallowed, hrefusal⟩
    · exact .inl ⟨.inr ⟨account, rfl, .inr hentitled⟩, hallowed⟩
    · refine .inr ⟨?_, hallowed, hrefusal⟩
      rintro (h | ⟨account', haccount, h | h⟩)
      · exact hpreview h
      · cases haccount
        exact howner h
      · cases haccount
        exact hentitled h

variable {lesson : Lesson}

theorem Entitled.mono (h : Entitled gracePeriodDays subscriptions overrides user lesson now overridesNow)
    (hsubscriptions : subscriptions ⊆ subscriptions') (hoverrides : overrides ⊆ overrides') :
    Entitled gracePeriodDays subscriptions' overrides' user lesson now overridesNow := by
  refine h.imp_right ?_
  rintro ⟨account, haccount, howner | hrole | hsuper | ⟨o, ho, hwindow⟩ | ⟨subscription, hsubscription, hgrants⟩⟩
  · exact ⟨account, haccount, .inl howner⟩
  · exact ⟨account, haccount, .inr (.inl hrole)⟩
  · exact ⟨account, haccount, .inr (.inr (.inl hsuper))⟩
  · exact ⟨account, haccount, .inr (.inr (.inr (.inl ⟨o, hoverrides ho, hwindow⟩)))⟩
  · exact ⟨account, haccount, .inr (.inr (.inr (.inr ⟨subscription, hsubscriptions hsubscription, hgrants⟩)))⟩

end EPlatform.Entitlements
