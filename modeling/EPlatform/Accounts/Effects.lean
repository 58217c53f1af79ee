import EPlatform.Accounts.Invitations

/-!
# What a call about an admission does

The rows and the entries each call commits, and the coherence of the committed rows, which every effect keeps.
-/

namespace EPlatform.Accounts

open Runs ReadCommitted

/-- The account an invitation to `address` admits. -/
structure Account.IsOf (casing : Casing) (address : String) (account : Account) : Prop where
  matched : casing.lower (strip account.email) = address
  exact : '@' ∈ account.email.toList → account.email = address

/-- What the constraints and the services make of the committed rows. -/
structure Coherent (casing : Casing) (committed : Store Row) : Prop where
  indexed : ∀ {address invitation}, committed (.invitation address) = some invitation →
    casing.indexed invitation = address
  complete : ∀ {address invitation}, committed (.invitation address) = some invitation →
    (invitation.consumedAt = none ↔ invitation.consumedBy = none)
  apart : ∀ {address invitation}, committed (.invitation address) = some invitation →
    invitation.consumedAt = none ∨ invitation.revokedAt = none
  keyed : ∀ {pk account}, committed (.user pk) = some account →
    account.pk = pk ∧ committed (.account (casing.dbLower account.email)) = some pk
  accounted : ∀ {address invitation pk}, committed (.invitation address) = some invitation →
    invitation.consumedBy = some pk → ∃ account, committed (.user pk) = some account ∧ account.IsOf casing address

/-! ### What a call does -/

def Stage.request : Stage → Request
  | .issuing _ order _ => .issue order
  | .revoking _ order _ => .revoke order
  | .registering email password _ => .register email password

/-- The failure the call is about to be rolled back for. -/
def Stage.failure : Stage → Option Failure
  | .issuing _ _ (.failing failure) => some failure
  | .revoking _ _ (.failing failure) => some failure
  | .registering _ _ (.failing failure) => some failure
  | _ => none

namespace Beta

variable (beta : Beta)

/-- The place of the invitation a call is about. -/
def address : Request → String
  | .issue order => beta.sought order.email
  | .revoke order => beta.sought order.email
  | .register email _ => beta.sought (beta.casing.storedEmail email)

/-- What a registration commits. -/
def admits (email password : String) (pk : Uuid) (consumed : BetaInvitation) : Store Row :=
  Function.update
    (Function.update (only (.user pk) (beta.account email password pk))
      (.account (beta.casing.dbLower (beta.casing.storedEmail email))) (some pk))
    (.invitation (beta.sought (beta.casing.storedEmail email))) (some consumed)

/-- The rows and the entries a call commits, over the rows that were committed: it issues an invitation, re-opens or
revokes one that was not consumed, finds one revoked already, or consumes one for the account it creates. -/
inductive Effect (committed : Store Row) : Request → Store Row → List AuditLog → Prop
  | issued {actor : Account} {order : Order} {invitation : BetaInvitation} {now : Instant} {entry : AuditLog}
    (hfree : committed (.invitation (beta.sought order.email)) = none)
    (hemail : invitation.email = strip order.email) (hrevoked : invitation.revokedAt = none)
    (hconsumed : invitation.consumedAt = none ∧ invitation.consumedBy = none)
    (hentry : beta.auditIssue actor order invitation false now = .ok entry) :
    Effect committed (.issue order) (only (.invitation (beta.sought order.email)) invitation) [entry]
  | reopened {actor : Account} {order : Order} {existing : BetaInvitation} {expiresAt now now' : Instant}
    {entry : AuditLog} (hexisting : committed (.invitation (beta.sought order.email)) = some existing)
    (hunspent : existing.consumedAt = none)
    (hentry : beta.auditIssue actor order (existing.reopen (strip order.email) expiresAt now) true now' = .ok entry) :
    Effect committed (.issue order)
      (only (.invitation (beta.sought order.email)) (existing.reopen (strip order.email) expiresAt now)) [entry]
  | revoked {actor : Account} {order : Order} {existing : BetaInvitation} {now now' : Instant} {entry : AuditLog}
    (hexisting : committed (.invitation (beta.sought order.email)) = some existing)
    (hunspent : existing.consumedAt = none) (hopen : existing.revokedAt = none)
    (hentry : auditRevocation actor order (existing.revoke now) now' = .ok entry) :
    Effect committed (.revoke order) (only (.invitation (beta.sought order.email)) (existing.revoke now)) [entry]
  | alreadyRevoked {order : Order} {existing : BetaInvitation}
    (hexisting : committed (.invitation (beta.sought order.email)) = some existing)
    (hrevoked : existing.revokedAt ≠ none) : Effect committed (.revoke order) (fun _ => none) []
  | admitted {email password : String} {pk : Uuid} {existing : BetaInvitation} {now now' : Instant} {entry : AuditLog}
    (hpk : committed (.user pk) = none)
    (hfree : committed (.account (beta.casing.dbLower (beta.casing.storedEmail email))) = none)
    (hexisting : committed (.invitation (beta.sought (beta.casing.storedEmail email))) = some existing)
    (husable : existing.IsUsable now)
    (hentry : auditConsumption (beta.account email password pk).toUser (existing.consume pk now) now' = .ok entry) :
    Effect committed (.register email password) (beta.admits email password pk (existing.consume pk now)) [entry]

end Beta

variable {beta : Beta} {committed committed' : Store Row} {request : Request} {writes : Store Row}
  {entries : List AuditLog}

theorem sought_strip (email : String) : beta.sought (strip email) = beta.sought email := by
  rw [Beta.sought, strip_strip, Beta.sought]

/-- An effect speaks of the rows it writes, and of the invitation of its address. -/
theorem Beta.Effect.congr (h : beta.Effect committed request writes entries)
    (hinvitation : committed' (.invitation (beta.address request)) = committed (.invitation (beta.address request)))
    (hwrites : ∀ k, writes k ≠ none → committed' k = committed k) : beta.Effect committed' request writes entries := by
  cases h with
  | issued hfree hemail hrevoked hconsumed hentry =>
    exact .issued (hinvitation.trans hfree) hemail hrevoked hconsumed hentry
  | reopened hexisting hunspent hentry => exact .reopened (hinvitation.trans hexisting) hunspent hentry
  | revoked hexisting hunspent hopen hentry => exact .revoked (hinvitation.trans hexisting) hunspent hopen hentry
  | alreadyRevoked hexisting hrevoked => exact .alreadyRevoked (hinvitation.trans hexisting) hrevoked
  | admitted hpk hfree hexisting husable hentry =>
    refine .admitted ?_ ?_ (hinvitation.trans hexisting) husable hentry
    · rw [hwrites _ (by simp [Beta.admits, only]), hpk]
    · rw [hwrites _ (by simp [Beta.admits]), hfree]

/-! ### Coherence is kept -/

/-- One invitation is replaced and no account is lost: what is new about the rows is coherent, so all of them are. -/
theorem Coherent.replace {casing : Casing} (h : Coherent casing committed) {address : String}
    {invitation : BetaInvitation} (hself : committed' (.invitation address) = some invitation)
    (hothers : ∀ a ≠ address, committed' (.invitation a) = committed (.invitation a))
    (husers : ∀ pk account, committed (.user pk) = some account → committed' (.user pk) = some account)
    (hkeyed : ∀ {pk account}, committed' (.user pk) = some account →
      account.pk = pk ∧ committed' (.account (casing.dbLower account.email)) = some pk)
    (hindexed : casing.indexed invitation = address)
    (hcomplete : invitation.consumedAt = none ↔ invitation.consumedBy = none)
    (hapart : invitation.consumedAt = none ∨ invitation.revokedAt = none)
    (haccounted : ∀ pk, invitation.consumedBy = some pk →
      ∃ account, committed' (.user pk) = some account ∧ account.IsOf casing address) : Coherent casing committed' := by
  have hrow : ∀ {a row}, committed' (.invitation a) = some row →
      (a = address ∧ row = invitation) ∨ committed (.invitation a) = some row := by
    intro a row hrow
    by_cases ha : a = address
    · subst ha
      rw [hself] at hrow
      exact .inl ⟨rfl, (Option.some.inj hrow).symm⟩
    · rw [hothers a ha] at hrow
      exact .inr hrow
  refine ⟨?_, ?_, ?_, hkeyed, ?_⟩
  · intro a row hfound
    rcases hrow hfound with ⟨rfl, rfl⟩ | hfound
    · exact hindexed
    · exact h.indexed hfound
  · intro a row hfound
    rcases hrow hfound with ⟨rfl, rfl⟩ | hfound
    · exact hcomplete
    · exact h.complete hfound
  · intro a row hfound
    rcases hrow hfound with ⟨rfl, rfl⟩ | hfound
    · exact hapart
    · exact h.apart hfound
  · intro a row pk hfound hby
    rcases hrow hfound with ⟨rfl, rfl⟩ | hfound
    · exact haccounted pk hby
    · obtain ⟨account, haccount, hof⟩ := h.accounted hfound hby
      exact ⟨account, husers pk account haccount, hof⟩

/-- An invitation that is not consumed may take its place, whatever stood there. -/
theorem Coherent.put (h : Coherent beta.casing committed) {address : String} {invitation : BetaInvitation}
    (hindexed : beta.casing.indexed invitation = address) (hconsumedAt : invitation.consumedAt = none)
    (hconsumedBy : invitation.consumedBy = none) :
    Coherent beta.casing (overlay (only (.invitation address) invitation) committed) := by
  have hsame : ∀ {k}, k ≠ .invitation address →
      overlay (only (.invitation address) invitation) committed k = committed k :=
    fun hk => overlay_only_of_ne hk
  refine h.replace (overlay_only_self ..) (fun a ha => hsame (by simpa using ha)) ?_ ?_ hindexed
    (iff_of_true hconsumedAt hconsumedBy) (.inl hconsumedAt) ?_
  · intro pk account haccount
    rw [hsame (by simp), haccount]
  · intro pk account hfound
    rw [hsame (by simp)] at hfound ⊢
    exact h.keyed hfound
  · intro pk hby
    simp [hconsumedBy] at hby

section Admitted

variable {email password : String} {pk : Uuid} {existing : BetaInvitation} {now : Instant}

theorem account_isOf :
    (beta.account email password pk).IsOf beta.casing (beta.sought (beta.casing.storedEmail email)) where
  matched := rfl
  exact := fun hat => (beta.casing.lower_strip_storedEmail hat).symm

theorem admits_invitation {address : String} (h : address ≠ beta.sought (beta.casing.storedEmail email)) :
    overlay (beta.admits email password pk existing) committed (.invitation address) =
      committed (.invitation address) := by
  rw [Beta.admits, overlay_update_of_ne (by simpa using h), overlay_update_of_ne (by simp),
    overlay_only_of_ne (by simp)]

theorem admits_invitation_self :
    overlay (beta.admits email password pk existing) committed
      (.invitation (beta.sought (beta.casing.storedEmail email))) = some existing :=
  overlay_update_self ..

theorem admits_user {pk' : Uuid} (h : pk' ≠ pk) :
    overlay (beta.admits email password pk existing) committed (.user pk') = committed (.user pk') := by
  rw [Beta.admits, overlay_update_of_ne (by simp), overlay_update_of_ne (by simp),
    overlay_only_of_ne (by simpa using h)]

theorem admits_user_self :
    overlay (beta.admits email password pk existing) committed (.user pk) = some (beta.account email password pk) := by
  rw [Beta.admits, overlay_update_of_ne (by simp), overlay_update_of_ne (by simp), overlay_only_self]

theorem admits_account {address : String} (h : address ≠ beta.casing.dbLower (beta.casing.storedEmail email)) :
    overlay (beta.admits email password pk existing) committed (.account address) = committed (.account address) := by
  rw [Beta.admits, overlay_update_of_ne (by simp), overlay_update_of_ne (by simpa using h),
    overlay_only_of_ne (by simp)]

theorem admits_account_self :
    overlay (beta.admits email password pk existing) committed
      (.account (beta.casing.dbLower (beta.casing.storedEmail email))) = some pk := by
  rw [Beta.admits, overlay_update_of_ne (by simp), overlay_update_self]

/-- So may an account and its consumption, where both indexes were free and the invitation usable. -/
theorem Coherent.admit (h : Coherent beta.casing committed) (hpk : committed (.user pk) = none)
    (hfree : committed (.account (beta.casing.dbLower (beta.casing.storedEmail email))) = none)
    (hexisting : committed (.invitation (beta.sought (beta.casing.storedEmail email))) = some existing)
    (husable : existing.IsUsable now) :
    Coherent beta.casing (overlay (beta.admits email password pk (existing.consume pk now)) committed) := by
  have husers : ∀ pk' account, committed (.user pk') = some account →
      overlay (beta.admits email password pk (existing.consume pk now)) committed (.user pk') = some account := by
    intro pk' account haccount
    rw [admits_user, haccount]
    rintro rfl
    rw [hpk] at haccount
    cases haccount
  refine h.replace admits_invitation_self (fun _ => admits_invitation) husers ?_ ?_ ?_ (.inr husable.2.1) ?_
  · intro pk' account hfound
    by_cases hsame : pk' = pk
    · subst hsame
      rw [admits_user_self] at hfound
      obtain rfl := Option.some.inj hfound
      exact ⟨rfl, admits_account_self⟩
    · rw [admits_user hsame] at hfound
      obtain ⟨hkey, hindex⟩ := h.keyed hfound
      refine ⟨hkey, ?_⟩
      rw [admits_account, hindex]
      intro haddress
      rw [haddress, hfree] at hindex
      cases hindex
  · rw [indexed_consume, h.indexed hexisting]
  · simp [BetaInvitation.consume]
  · intro pk' hby
    obtain rfl : pk = pk' := by simpa [BetaInvitation.consume] using hby
    exact ⟨_, admits_user_self, account_isOf⟩

end Admitted

theorem Beta.Effect.coherent (hlower : beta.casing.dbLower = beta.casing.lower)
    (h : beta.Effect committed request writes entries) (hcoherent : Coherent beta.casing committed) :
    Coherent beta.casing (overlay writes committed) := by
  have hindexed : ∀ {email : String} {invitation : BetaInvitation}, invitation.email = strip email →
      beta.casing.indexed invitation = beta.sought email := by
    intro email invitation hemail
    rw [Casing.indexed, hlower, hemail, Beta.sought]
  cases h with
  | issued _ hemail _ hconsumed => exact hcoherent.put (hindexed hemail) hconsumed.1 hconsumed.2
  | reopened hexisting hunspent =>
    exact hcoherent.put (hindexed rfl) hunspent ((hcoherent.complete hexisting).mp hunspent)
  | revoked hexisting hunspent =>
    refine hcoherent.put ?_ hunspent ((hcoherent.complete hexisting).mp hunspent)
    rw [indexed_revoke, hcoherent.indexed hexisting]
  | alreadyRevoked =>
    rw [overlay_empty]
    exact hcoherent
  | admitted hpk hfree hexisting husable => exact hcoherent.admit hpk hfree hexisting husable

end EPlatform.Accounts
