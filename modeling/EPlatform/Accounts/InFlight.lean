import EPlatform.Accounts.Effects

/-!
# Admission in flight

Issuing decides under a row lock or loses a race for the index, revoking decides under a row lock, and registering updates
on a condition. Whichever comes first is seen by the others once they have waited for it: what a call relies on it has
written or locked.
-/

namespace EPlatform.Accounts

open Runs ReadCommitted

variable {beta : Beta} {committed committed' : Store Row} {request : Request}

variable {s s' t : Session Row Stage AuditLog} {moment : Moment} {actor : Account} {order : Order}
  {email password : String} {account : Account} {invitation : BetaInvitation}
  {audit : Instant → Except NotAuditable AuditLog}

/-- It holds the invitation of its address, which is not consumed. -/
structure Found (committed : Store Row) (address : String) (invitation : BetaInvitation)
    (s : Session Row Stage AuditLog) : Prop where
  unwritten : s.Unwritten
  holds : .invitation address ∈ s.holds
  found : committed (.invitation address) = some invitation
  unspent : invitation.consumedAt = none

/-- It has inserted the account it was asked for. -/
structure Inserted (beta : Beta) (committed : Store Row) (email password : String) (account : Account)
    (s : Session Row Stage AuditLog) : Prop where
  asked : account = beta.account email password account.pk
  entries : s.entries = []
  free : committed (.user account.pk) = none
  writes : s.writes = only (.user account.pk) account

/-- And has its place in the index. -/
structure Indexed (beta : Beta) (committed : Store Row) (email password : String) (account : Account)
    (s : Session Row Stage AuditLog) : Prop where
  asked : account = beta.account email password account.pk
  entries : s.entries = []
  free : committed (.user account.pk) = none
  unknown : committed (.account (beta.casing.dbLower account.email)) = none
  writes : s.writes = Function.update (only (.user account.pk) account)
    (.account (beta.casing.dbLower account.email)) (some account.pk)

/-- It has consumed the invitation of that account. -/
structure Spent (beta : Beta) (committed : Store Row) (email password : String) (account : Account)
    (invitation : BetaInvitation) (s : Session Row Stage AuditLog) : Prop where
  asked : account = beta.account email password account.pk
  entries : s.entries = []
  free : committed (.user account.pk) = none
  unknown : committed (.account (beta.casing.dbLower account.email)) = none
  holds : .invitation (beta.sought account.email) ∈ s.holds
  consumed : ∃ existing now, committed (.invitation (beta.sought account.email)) = some existing ∧
    existing.IsUsable now ∧ invitation = existing.consume account.pk now
  writes : s.writes = beta.admits email password account.pk invitation

/-- All it has left to do is to record what it did. -/
structure Ready (beta : Beta) (committed : Store Row) (audit : Instant → Except NotAuditable AuditLog)
    (s : Session Row Stage AuditLog) : Prop where
  entries : s.entries = []
  holds : .invitation (beta.address s.stage.request) ∈ s.holds
  effect : ∀ {now entry}, audit now = .ok entry → beta.Effect committed s.stage.request s.writes [entry]

structure Done (beta : Beta) (committed : Store Row) (s : Session Row Stage AuditLog) : Prop where
  holds : .invitation (beta.address s.stage.request) ∈ s.holds
  effect : beta.Effect committed s.stage.request s.writes s.entries

def Sound (beta : Beta) (committed : Store Row) (s : Session Row Stage AuditLog) : Prop :=
  match s.stage with
  | .issuing _ _ .looking | .issuing _ _ (.inserting _) => s.Unwritten
  | .issuing _ order (.reopening _ existing) => Found committed (beta.sought order.email) existing s
  | .issuing actor order (.auditing invitation reopened) =>
    Ready beta committed (beta.auditIssue actor order invitation reopened) s
  | .revoking _ _ .looking => s.Unwritten
  | .revoking _ order (.withdrawing invitation) =>
    Found committed (beta.sought order.email) invitation s ∧ invitation.revokedAt = none
  | .revoking actor order (.auditing invitation) => Ready beta committed (Beta.auditRevocation actor order invitation) s
  | .registering _ _ .inserting => s.Unwritten
  | .registering email password (.indexing account) => Inserted beta committed email password account s
  | .registering email password (.consuming account _) | .registering email password (.explaining account) =>
    Indexed beta committed email password account s
  | .registering email password (.reading account) => ∃ invitation, Spent beta committed email password account invitation s
  | .registering _ _ (.auditing account invitation) => Ready beta committed (auditConsumption account.toUser invitation) s
  | .issuing _ _ .leaving | .revoking _ _ .leaving | .registering _ _ .leaving => Done beta committed s
  | .issuing _ _ (.failing _) | .revoking _ _ (.failing _) | .registering _ _ (.failing _) => True

/-- Recording an effect completes it. -/
theorem Ready.takes {stage leaving : Stage} {failing : Failure → Stage} (h : Ready beta committed audit s)
    (hs : s.stage = stage)
    (hstatement : beta.admission.statement moment stage (s.view committed) =
      Beta.record (audit moment.now) leaving failing)
    (hleaving : leaving.request = stage.request) (htakes : beta.admission.Takes moment committed s s')
    (hleaves : s'.stage = leaving → Done beta committed s' → Sound beta committed s')
    (hfails : ∀ failure, s'.stage = failing failure → Sound beta committed s') : Sound beta committed s' := by
  subst hs
  rw [Program.Takes, hstatement] at htakes
  cases haudit : audit moment.now with
  | ok entry =>
    simp only [haudit, Beta.record] at htakes
    subst htakes
    refine hleaves rfl ⟨?_, ?_⟩
    · rw [hleaving]
      exact h.holds
    · rw [hleaving, h.entries]
      exact h.effect haudit
  | error missing =>
    simp only [haudit, Beta.record] at htakes
    subst htakes
    exact hfails _ rfl

/-! ### Issuing -/

theorem issue_looking (h : s.Unwritten) (hs : s.stage = .issuing actor order .looking)
    (htakes : beta.admission.Takes moment committed s s') : Sound beta committed s' := by
  simp only [Program.Takes, Beta.admission, hs, Beta.issueInvitation, sought_strip, h.view] at htakes
  cases hfound : invitationAt committed (beta.sought order.email) with
  | none =>
    simp only [hfound, Statement.map] at htakes
    subst htakes
    exact ⟨h.writes, h.entries⟩
  | some existing =>
    simp only [hfound, Statement.map] at htakes
    subst htakes
    cases hconsumed : existing.consumedAt with
    | some _ => trivial
    | none => exact ⟨⟨h.writes, h.entries⟩, List.mem_cons_self, hfound, hconsumed⟩

theorem issue_inserting {expiresAt : Instant} (hlower : beta.casing.dbLower = beta.casing.lower) (h : s.Unwritten)
    (hs : s.stage = .issuing actor order (.inserting expiresAt))
    (htakes : beta.admission.Takes moment committed s s') : Sound beta committed s' := by
  have hplace : beta.casing.indexed (BetaInvitation.new (strip order.email) expiresAt moment) =
      beta.sought order.email := by
    rw [Casing.indexed, hlower, BetaInvitation.new, Beta.sought]
  simp only [Program.Takes, Beta.admission, hs, Beta.issueInvitation, h.view, hplace, Option.isNone_iff_eq_none] at htakes
  split_ifs at htakes with hlong hfree
  · simp only [Statement.map] at htakes
    subst htakes
    trivial
  · simp only [saveInvitation, Statement.map] at htakes
    subst htakes
    refine ⟨h.entries, List.mem_cons_self, fun haudit => ?_⟩
    rw [h.writes_write]
    exact .issued hfree.2 rfl rfl ⟨rfl, rfl⟩ haudit
  · simp only [Statement.map] at htakes
    subst htakes
    trivial

theorem issue_reopening {expiresAt : Instant} {existing : BetaInvitation} (hcoherent : Coherent beta.casing committed)
    (h : Found committed (beta.sought order.email) existing s)
    (hs : s.stage = .issuing actor order (.reopening expiresAt existing))
    (htakes : beta.admission.Takes moment committed s s') : Sound beta committed s' := by
  simp only [Program.Takes, Beta.admission, hs, Beta.issueInvitation, hcoherent.indexed h.found] at htakes
  split_ifs at htakes
  · simp only [Statement.map] at htakes
    subst htakes
    trivial
  · simp only [saveInvitation, Statement.map] at htakes
    subst htakes
    refine ⟨h.unwritten.entries, List.mem_cons_self, fun haudit => ?_⟩
    rw [h.unwritten.writes_write]
    exact .reopened h.found h.unspent haudit
  · simp only [Statement.map] at htakes
    subst htakes
    trivial

theorem issue_takes {stage : Issuing} (hlower : beta.casing.dbLower = beta.casing.lower)
    (hcoherent : Coherent beta.casing committed) (h : Sound beta committed s)
    (hs : s.stage = .issuing actor order stage) (htakes : beta.admission.Takes moment committed s s') :
    Sound beta committed s' := by
  cases stage <;> simp only [Sound, hs] at h
  case looking => exact issue_looking h hs htakes
  case inserting => exact issue_inserting hlower h hs htakes
  case reopening => exact issue_reopening hcoherent h hs htakes
  case auditing =>
    refine h.takes hs Beta.map_record rfl htakes (fun hstage hdone => ?_) fun failure hstage => ?_
    · simpa only [Sound, hstage] using hdone
    · simp only [Sound, hstage]
  case leaving | failing =>
    simp only [Program.Takes, Beta.admission, hs] at htakes
    exact htakes.elim

/-! ### Revoking -/

theorem revoke_looking (h : s.Unwritten) (hs : s.stage = .revoking actor order .looking)
    (htakes : beta.admission.Takes moment committed s s') : Sound beta committed s' := by
  simp only [Program.Takes, Beta.admission, hs, Beta.revokeInvitation, h.view] at htakes
  cases hfound : invitationAt committed (beta.sought order.email) with
  | none =>
    simp only [hfound, Statement.map] at htakes
    subst htakes
    trivial
  | some existing =>
    simp only [hfound, Statement.map] at htakes
    subst htakes
    cases hconsumed : existing.consumedAt with
    | some _ => trivial
    | none =>
      cases hrevoked : existing.revokedAt with
      | none => exact ⟨⟨⟨h.writes, h.entries⟩, List.mem_cons_self, hfound, hconsumed⟩, hrevoked⟩
      | some _ =>
        refine ⟨List.mem_cons_self, ?_⟩
        show beta.Effect committed (.revoke order) s.writes s.entries
        rw [h.writes, h.entries]
        exact .alreadyRevoked hfound (by simp [hrevoked])

theorem revoke_withdrawing {existing : BetaInvitation} (hcoherent : Coherent beta.casing committed)
    (h : Found committed (beta.sought order.email) existing s) (hopen : existing.revokedAt = none)
    (hs : s.stage = .revoking actor order (.withdrawing existing))
    (htakes : beta.admission.Takes moment committed s s') : Sound beta committed s' := by
  simp only [Program.Takes, Beta.admission, hs, Beta.revokeInvitation, hcoherent.indexed h.found] at htakes
  simp only [saveInvitation, Statement.map] at htakes
  subst htakes
  refine ⟨h.unwritten.entries, List.mem_cons_self, fun haudit => ?_⟩
  rw [h.unwritten.writes_write]
  exact .revoked h.found h.unspent hopen haudit

theorem revoke_takes {stage : Revoking} (hcoherent : Coherent beta.casing committed) (h : Sound beta committed s)
    (hs : s.stage = .revoking actor order stage) (htakes : beta.admission.Takes moment committed s s') :
    Sound beta committed s' := by
  cases stage <;> simp only [Sound, hs] at h
  case looking => exact revoke_looking h hs htakes
  case withdrawing => exact revoke_withdrawing hcoherent h.1 h.2 hs htakes
  case auditing =>
    refine h.takes hs Beta.map_record rfl htakes (fun hstage hdone => ?_) fun failure hstage => ?_
    · simpa only [Sound, hstage] using hdone
    · simp only [Sound, hstage]
  case leaving | failing =>
    simp only [Program.Takes, Beta.admission, hs] at htakes
    exact htakes.elim

/-! ### Registering -/

theorem register_inserting (h : s.Unwritten) (hs : s.stage = .registering email password .inserting)
    (htakes : beta.admission.Takes moment committed s s') : Sound beta committed s' := by
  simp only [Program.Takes, Beta.admission, hs, Beta.registerAccount, h.view, Option.isNone_iff_eq_none] at htakes
  split_ifs at htakes with hlong hfree
  · simp only [Statement.map] at htakes
    subst htakes
    trivial
  · simp only [Statement.map] at htakes
    subst htakes
    exact ⟨rfl, h.entries, hfree, h.writes_write⟩
  · simp only [Statement.map] at htakes
    subst htakes
    trivial

theorem register_indexing (h : Inserted beta committed email password account s)
    (hs : s.stage = .registering email password (.indexing account))
    (htakes : beta.admission.Takes moment committed s s') : Sound beta committed s' := by
  have hview : ∀ address, s.view committed (.account address) = committed (.account address) := by
    intro address
    show overlay s.writes committed _ = _
    rw [h.writes, overlay_only_of_ne (by simp)]
  simp only [Program.Takes, Beta.admission, hs, Beta.registerAccount, hview, Option.isNone_iff_eq_none] at htakes
  by_cases hunknown : committed (.account (beta.casing.dbLower account.email)) = none
  · simp only [hunknown, if_true, Statement.map] at htakes
    subst htakes
    split
    · trivial
    · refine ⟨h.asked, h.entries, h.free, hunknown, ?_⟩
      rw [Session.write, h.writes]
  · simp only [hunknown, if_false, Statement.map] at htakes
    subst htakes
    trivial

/-- The invitation an account asks for, as its registration sees it. -/
theorem Indexed.invitationAt_view (h : Indexed beta committed email password account s) (address : String) :
    invitationAt (s.view committed) address = committed (.invitation address) := by
  show overlay s.writes committed (.invitation address) = _
  rw [h.writes, overlay_update_of_ne (by simp), overlay_only_of_ne (by simp)]

theorem Indexed.to {stage : Stage} (h : Indexed beta committed email password account s) :
    Indexed beta committed email password account { s with stage } :=
  ⟨h.asked, h.entries, h.free, h.unknown, h.writes⟩

theorem admits_of_asked (hasked : account = beta.account email password account.pk) :
    beta.admits email password account.pk invitation =
      Function.update
        (Function.update (only (.user account.pk) account) (.account (beta.casing.dbLower account.email))
          (some account.pk))
        (.invitation (beta.sought account.email)) (some invitation) := by
  obtain ⟨pk, rfl⟩ : ∃ pk, account = beta.account email password pk := ⟨_, hasked⟩
  rfl

theorem register_consuming {now : Instant} (h : Indexed beta committed email password account s)
    (hs : s.stage = .registering email password (.consuming account now))
    (htakes : beta.admission.Takes moment committed s s') : Sound beta committed s' := by
  simp only [Program.Takes, Beta.admission, hs, Beta.registerAccount, h.invitationAt_view, sought_strip] at htakes
  cases hfound : committed (.invitation (beta.sought account.email)) with
  | none =>
    simp only [hfound, Statement.map] at htakes
    subst htakes
    exact h.to
  | some existing =>
    simp only [hfound] at htakes
    split_ifs at htakes with husable
    · simp only [saveInvitation, Statement.map] at htakes
      subst htakes
      refine ⟨existing.consume account.pk now, h.asked, h.entries, h.free, h.unknown, List.mem_cons_self,
        ⟨existing, now, hfound, husable, rfl⟩, ?_⟩
      rw [Session.write, h.writes, admits_of_asked h.asked]
    · simp only [Statement.map] at htakes
      subst htakes
      exact h.to

/-- The address an account was asked for with leads to its invitation. -/
theorem Spent.address_eq (h : Spent beta committed email password account invitation s) :
    beta.address (.register email password) = beta.sought account.email := by
  rw [h.asked]
  rfl

theorem Spent.effect (h : Spent beta committed email password account invitation s) {now : Instant} {entry : AuditLog}
    (haudit : auditConsumption account.toUser invitation now = .ok entry) :
    beta.Effect committed (.register email password) s.writes [entry] := by
  obtain ⟨hasked, -, hfree, hunknown, -, ⟨existing, now', hexisting, husable, rfl⟩, hwrites⟩ := h
  rw [hasked] at hunknown hexisting haudit
  rw [hwrites]
  exact .admitted hfree hunknown hexisting husable haudit

theorem register_reading (h : Spent beta committed email password account invitation s)
    (hs : s.stage = .registering email password (.reading account))
    (htakes : beta.admission.Takes moment committed s s') : Sound beta committed s' := by
  have hview : invitationAt (s.view committed) (beta.sought account.email) = some invitation := by
    show overlay s.writes committed _ = _
    rw [h.writes, ← h.address_eq]
    exact admits_invitation_self
  simp only [Program.Takes, Beta.admission, hs, Beta.registerAccount, sought_strip, hview, Statement.map] at htakes
  subst htakes
  refine ⟨h.entries, ?_, h.effect⟩
  show Key.invitation (beta.address (.register email password)) ∈ s.holds
  rw [h.address_eq]
  exact h.holds

theorem register_takes {stage : Registering} (h : Sound beta committed s)
    (hs : s.stage = .registering email password stage) (htakes : beta.admission.Takes moment committed s s') :
    Sound beta committed s' := by
  cases stage <;> simp only [Sound, hs] at h
  case inserting => exact register_inserting h hs htakes
  case indexing => exact register_indexing h hs htakes
  case consuming => exact register_consuming h hs htakes
  case explaining =>
    simp only [Program.Takes, Beta.admission, hs, Beta.registerAccount, Statement.map] at htakes
    subst htakes
    trivial
  case reading =>
    obtain ⟨invitation, hspent⟩ := h
    exact register_reading hspent hs htakes
  case auditing =>
    refine h.takes hs Beta.map_record rfl htakes (fun hstage hdone => ?_) fun failure hstage => ?_
    · simpa only [Sound, hstage] using hdone
    · simp only [Sound, hstage]
  case leaving | failing =>
    simp only [Program.Takes, Beta.admission, hs] at htakes
    exact htakes.elim

/-! ### The whole program -/

theorem issue_eq_commit {view : Store Row} {stage : Issuing}
    (h : beta.issueInvitation moment actor order view stage = .commit) : stage = .leaving := by
  revert h
  fun_cases Beta.issueInvitation beta moment actor order view stage <;>
    simp [saveInvitation, Beta.record_ne_commit]

theorem revoke_eq_commit {view : Store Row} {stage : Revoking}
    (h : beta.revokeInvitation moment actor order view stage = .commit) : stage = .leaving := by
  revert h
  fun_cases Beta.revokeInvitation beta moment actor order view stage <;>
    simp [saveInvitation, Beta.record_ne_commit]

theorem register_eq_commit {view : Store Row} {stage : Registering}
    (h : beta.registerAccount moment email password view stage = .commit) : stage = .leaving := by
  revert h
  fun_cases Beta.registerAccount beta moment email password view stage <;>
    simp [saveInvitation, Beta.record_ne_commit]

theorem done_of_commit {view : Store Row} (h : Sound beta committed s)
    (hcommit : beta.admission.statement moment s.stage view = .commit) : Done beta committed s := by
  simp only [Beta.admission] at hcommit
  cases hs : s.stage with
  | issuing actor order stage =>
    simp only [hs, map_eq_commit] at hcommit
    obtain rfl := issue_eq_commit hcommit
    simpa only [Sound, hs] using h
  | revoking actor order stage =>
    simp only [hs, map_eq_commit] at hcommit
    obtain rfl := revoke_eq_commit hcommit
    simpa only [Sound, hs] using h
  | registering email password stage =>
    simp only [hs, map_eq_commit] at hcommit
    obtain rfl := register_eq_commit hcommit
    simpa only [Sound, hs] using h

theorem sound_begin {stage : Stage} (hstart : beta.admission.start request = some stage) :
    Sound beta committed (.begin stage) := by
  simp only [Beta.admission] at hstart
  cases hrequest : request.start with
  | error failure =>
    rw [hrequest] at hstart
    cases hstart
  | ok started =>
    rw [hrequest] at hstart
    obtain rfl := Option.some.inj hstart
    cases request with
    | issue order =>
      simp only [Request.start, bind_eq_ok, require_eq_ok, pure_eq_ok] at hrequest
      obtain ⟨actor, -, -, -, rfl⟩ := hrequest
      exact ⟨rfl, rfl⟩
    | revoke order =>
      simp only [Request.start, bind_eq_ok, pure_eq_ok] at hrequest
      obtain ⟨actor, -, rfl⟩ := hrequest
      exact ⟨rfl, rfl⟩
    | register email password =>
      simp only [Request.start, bind_eq_ok, require_eq_ok, pure_eq_ok] at hrequest
      obtain ⟨-, -, rfl⟩ := hrequest
      exact ⟨rfl, rfl⟩

section Stable

variable (hwritten : ∀ k, t.writes k ≠ none → k ∈ t.holds) (hheld : ∀ k ∈ t.holds, committed' k = committed k)

include hwritten hheld

theorem Ready.stable (h : Ready beta committed audit t) : Ready beta committed' audit t where
  entries := h.entries
  holds := h.holds
  effect := fun haudit => (h.effect haudit).congr (hheld _ h.holds) fun k hk => hheld k (hwritten k hk)

theorem Done.stable (h : Done beta committed t) : Done beta committed' t where
  holds := h.holds
  effect := h.effect.congr (hheld _ h.holds) fun k hk => hheld k (hwritten k hk)

theorem Inserted.stable (h : Inserted beta committed email password account t) :
    Inserted beta committed' email password account t where
  asked := h.asked
  entries := h.entries
  free := by rw [hheld _ (hwritten _ (by simp [h.writes, only])), h.free]
  writes := h.writes

theorem Indexed.stable (h : Indexed beta committed email password account t) :
    Indexed beta committed' email password account t where
  asked := h.asked
  entries := h.entries
  free := by rw [hheld _ (hwritten _ (by simp [h.writes, only])), h.free]
  unknown := by rw [hheld _ (hwritten _ (by simp [h.writes])), h.unknown]
  writes := h.writes

theorem Spent.stable (h : Spent beta committed email password account invitation t) :
    Spent beta committed' email password account invitation t where
  asked := h.asked
  entries := h.entries
  free := by rw [hheld _ (hwritten _ (by simp [h.writes, Beta.admits, only])), h.free]
  unknown := by
    rw [hheld _ (hwritten _ (by simp [h.writes, admits_of_asked h.asked])), h.unknown]
  holds := h.holds
  consumed := by
    rw [hheld _ h.holds]
    exact h.consumed
  writes := h.writes

/-- What a call relies on is out of reach of the others. -/
theorem Sound.stable (h : Sound beta committed t) : Sound beta committed' t := by
  have hfound : ∀ {address invitation}, Found committed address invitation t → Found committed' address invitation t :=
    fun hfound => ⟨hfound.unwritten, hfound.holds, (hheld _ hfound.holds).trans hfound.found, hfound.unspent⟩
  cases hs : t.stage with
  | issuing actor order stage =>
    cases stage <;> simp only [Sound, hs] at h ⊢
    case looking => exact h
    case inserting => exact h
    case reopening => exact hfound h
    case auditing => exact h.stable hwritten hheld
    case leaving => exact h.stable hwritten hheld
  | revoking actor order stage =>
    cases stage <;> simp only [Sound, hs] at h ⊢
    case looking => exact h
    case withdrawing => exact ⟨hfound h.1, h.2⟩
    case auditing => exact h.stable hwritten hheld
    case leaving => exact h.stable hwritten hheld
  | registering email password stage =>
    cases stage <;> simp only [Sound, hs] at h ⊢
    case inserting => exact h
    case indexing => exact h.stable hwritten hheld
    case consuming => exact h.stable hwritten hheld
    case explaining => exact h.stable hwritten hheld
    case reading => exact h.imp fun _ hspent => hspent.stable hwritten hheld
    case auditing => exact h.stable hwritten hheld
    case leaving => exact h.stable hwritten hheld

end Stable

theorem admission_maintains (hlower : beta.casing.dbLower = beta.casing.lower) :
    beta.admission.Maintains (fun committed _ => Coherent beta.casing committed) (Sound beta) where
  begins _ hstart := sound_begin hstart
  takes {moment committed _ s s'} hcoherent h htakes := by
    cases hs : s.stage with
    | issuing actor order stage => exact issue_takes hlower hcoherent h hs htakes
    | revoking actor order stage => exact revoke_takes hcoherent h hs htakes
    | registering email password stage => exact register_takes h hs htakes
  commits hcoherent h hcommit := (done_of_commit h hcommit).effect.coherent hlower hcoherent
  stable _ _ h _ hwritten hheld := h.stable hwritten hheld

end EPlatform.Accounts
