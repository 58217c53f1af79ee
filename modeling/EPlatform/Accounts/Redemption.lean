import EPlatform.Accounts.Tokens

/-!
# What issuing and redeeming a link commit

The rows and the entry of each call, and the ledger they keep: under each hash there is one token, whose owner and expiry
never change, and the log has as many redemptions of it as it has been consumed, one at most.
-/

namespace EPlatform.Accounts.Tokens

open Runs ReadCommitted

/-- The redemption of this row. -/
def Secrets.redeemsRow (secrets : Secrets) (link : Link) (tokenHash : String) : Entry → Bool
  | .issued .. => false
  | .redeemed link' _ raw _ => link' = link && secrets.hashToken raw = tokenHash

def isSpent (committed : Store Row) (link : Link) (tokenHash : String) : Bool :=
  (tokenAt committed link tokenHash).any (·.isConsumed)

/-- The same token, sooner or later. -/
structure Token.Becomes (token token' : Token) : Prop where
  user : token'.user = token.user
  expiresAt : token'.expiresAt = token.expiresAt
  consumed : token.isConsumed → token'.isConsumed

namespace Secrets

variable (secrets : Secrets)

/-- What the redemption of a link makes of an account. -/
def Touches : Link → Account → Account → Prop
  | .emailVerification, account, account' => account' = markVerified account
  | .passwordReset, account, account' => ∃ newPassword, account' = secrets.setPassword newPassword account

/-- A redemption consumes the token it found open and in time. It may consume other tokens, and it writes to no account but
the one of the token's user. -/
structure Spends (link : Link) (raw : String) (record : Token) (judgedAt : Instant) (committed writes : Store Row) :
    Prop where
  named : raw ≠ ""
  found : tokenAt committed link (secrets.hashToken raw) = some record
  unconsumed : record.isConsumed = false
  inTime : judgedAt < record.expiresAt
  spent : isSpent writes link (secrets.hashToken raw)
  consumes : ∀ {link' tokenHash token'}, tokenAt writes link' tokenHash = some token' →
    token'.isConsumed ∧ ∃ token, tokenAt committed link' tokenHash = some token ∧ token.Becomes token'
  touches : ∀ {pk account'}, accountAt writes pk = some account' →
    pk = record.user ∧ ∃ account, accountAt committed pk = some account ∧ secrets.Touches link account account'

/-- The rows and the entry a call commits, over the rows that were committed. -/
inductive Effect (committed : Store Row) : Store Row → List Entry → Prop
  | issued {link : Link} {user : Uuid} {raw : String} {token : Token} (hdrawn : raw ∈ secrets.drawn)
    (hfree : tokenAt committed link (secrets.hashToken raw) = none) (huser : token.user = user)
    (hopen : token.isConsumed = false) :
    Effect committed (only (.token link (secrets.hashToken raw)) token) [.issued link user raw token.expiresAt]
  | redeemed {link : Link} {raw : String} {record : Token} {judgedAt : Instant} {writes : Store Row}
    (hspends : secrets.Spends link raw record judgedAt committed writes) :
    Effect committed writes [.redeemed link record.user raw judgedAt]

/-- The log tells of every token, and of every redemption. -/
structure Ledger (committed : Store Row) (log : List Entry) : Prop where
  issued : ∀ {link user raw expiresAt}, .issued link user raw expiresAt ∈ log →
    ∃ token, tokenAt committed link (secrets.hashToken raw) = some token ∧ token.user = user ∧
      token.expiresAt = expiresAt
  drawn : ∀ {link tokenHash token}, tokenAt committed link tokenHash = some token →
    ∃ raw ∈ secrets.drawn, secrets.hashToken raw = tokenHash ∧ .issued link token.user raw token.expiresAt ∈ log
  redeemed : ∀ {link user raw judgedAt}, .redeemed link user raw judgedAt ∈ log →
    raw ≠ "" ∧ ∃ token, tokenAt committed link (secrets.hashToken raw) = some token ∧ token.user = user ∧
      judgedAt < token.expiresAt
  once : ∀ link tokenHash, log.countP (secrets.redeemsRow link tokenHash) ≤ (isSpent committed link tokenHash).toNat

end Secrets

variable {secrets : Secrets} {committed committed' writes : Store Row} {entries log : List Entry} {link link' : Link}
  {raw tokenHash : String} {record token token' : Token} {judgedAt now : Instant} {account account' : Account}
  {pk : Uuid}

theorem isSpent_iff :
    isSpent committed link tokenHash ↔ ∃ token, tokenAt committed link tokenHash = some token ∧ token.isConsumed := by
  rw [isSpent, Option.any_eq_true]

theorem Token.isOutstanding_iff : token.isOutstanding pk ↔ token.user = pk ∧ token.isConsumed = false := by
  rw [Token.isOutstanding, Token.isConsumed, Bool.and_eq_true, decide_eq_true_iff, Option.isSome_eq_false_iff]

theorem Token.Becomes.refl (token : Token) : token.Becomes token := ⟨rfl, rfl, id⟩

theorem Token.Becomes.trans {token'' : Token} (h : token.Becomes token') (h' : token'.Becomes token'') :
    token.Becomes token'' :=
  ⟨h'.user.trans h.user, h'.expiresAt.trans h.expiresAt, fun hconsumed => h'.consumed (h.consumed hconsumed)⟩

theorem touches_trans {account'' : Account} (h : secrets.Touches link account account')
    (h' : secrets.Touches link account' account'') : secrets.Touches link account account'' := by
  cases link with
  | emailVerification =>
    rw [h', h]
    rfl
  | passwordReset =>
    obtain ⟨_, rfl⟩ := h
    obtain ⟨newPassword, rfl⟩ := h'
    exact ⟨newPassword, rfl⟩

/-! ### A redemption, write by write -/

namespace Secrets.Spends

theorem token_of_overlay (h : secrets.Spends link raw record judgedAt committed writes)
    (htoken : tokenAt (overlay writes committed) link' tokenHash = some token') :
    ∃ token, tokenAt committed link' tokenHash = some token ∧ token.Becomes token' := by
  rcases Option.or_eq_some_iff.mp htoken with hwrites | ⟨-, hcommitted⟩
  · exact (h.consumes hwrites).2
  · exact ⟨token', hcommitted, .refl token'⟩

theorem account_of_overlay (h : secrets.Spends link raw record judgedAt committed writes)
    (haccount : accountAt (overlay writes committed) pk = some account') :
    ∃ account, accountAt committed pk = some account ∧
      (account' = account ∨ secrets.Touches link account account') := by
  rcases Option.or_eq_some_iff.mp haccount with hwrites | ⟨-, hcommitted⟩
  · obtain ⟨-, account, haccount, htouches⟩ := h.touches hwrites
    exact ⟨account, haccount, .inr htouches⟩
  · exact ⟨account', hcommitted, .inl rfl⟩

/-- A token is consumed: the one of the link, or one that the sweep comes upon. -/
theorem writeToken (h : secrets.Spends link raw record judgedAt committed writes)
    (htoken : tokenAt (overlay writes committed) link' tokenHash = some token) :
    secrets.Spends link raw record judgedAt committed
      (Function.update writes (.token link' tokenHash) (some { token with consumedAt := some now })) where
  named := h.named
  found := h.found
  unconsumed := h.unconsumed
  inTime := h.inTime
  spent := by
    by_cases hkey : Key.token link (secrets.hashToken raw) = .token link' tokenHash
    · cases hkey
      rw [isSpent, tokenAt, Function.update_self]
      rfl
    · rw [isSpent, tokenAt, Function.update_of_ne hkey]
      exact h.spent
  consumes := by
    intro link'' tokenHash' token' hwrites
    by_cases hkey : Key.token link'' tokenHash' = .token link' tokenHash
    · cases hkey
      rw [tokenAt, Function.update_self] at hwrites
      obtain rfl := Option.some.inj hwrites
      obtain ⟨before, hbefore, hbecomes⟩ := h.token_of_overlay htoken
      exact ⟨rfl, before, hbefore, hbecomes.trans ⟨rfl, rfl, fun _ => rfl⟩⟩
    · rw [tokenAt, Function.update_of_ne hkey] at hwrites
      exact h.consumes hwrites
  touches := by
    intro pk account' hwrites
    rw [accountAt, Function.update_of_ne (by simp)] at hwrites
    exact h.touches hwrites

/-- The account of its user is written. -/
theorem writeAccount (h : secrets.Spends link raw record judgedAt committed writes)
    (haccount : accountAt (overlay writes committed) record.user = some account)
    (htouches : secrets.Touches link account account') :
    secrets.Spends link raw record judgedAt committed
      (Function.update writes (.user record.user) (some account')) where
  named := h.named
  found := h.found
  unconsumed := h.unconsumed
  inTime := h.inTime
  spent := by
    rw [isSpent, tokenAt, Function.update_of_ne (by simp)]
    exact h.spent
  consumes := by
    intro link' tokenHash token' hwrites
    rw [tokenAt, Function.update_of_ne (by simp)] at hwrites
    exact h.consumes hwrites
  touches := by
    intro pk account'' hwrites
    by_cases hkey : pk = record.user
    · subst hkey
      rw [accountAt, Function.update_self] at hwrites
      obtain rfl := Option.some.inj hwrites
      obtain ⟨before, hbefore, rfl | hearlier⟩ := h.account_of_overlay haccount
      · exact ⟨rfl, _, hbefore, htouches⟩
      · exact ⟨rfl, before, hbefore, touches_trans hearlier htouches⟩
    · rw [accountAt, Function.update_of_ne (by simpa using hkey)] at hwrites
      exact h.touches hwrites

/-- The first write of a redemption. -/
theorem consume (hnamed : raw ≠ "") (hfound : tokenAt committed link (secrets.hashToken raw) = some record)
    (hunconsumed : record.isConsumed = false) (hinTime : judgedAt < record.expiresAt) :
    secrets.Spends link raw record judgedAt committed
      (only (.token link (secrets.hashToken raw)) { record with consumedAt := some now, updatedAt := now }) where
  named := hnamed
  found := hfound
  unconsumed := hunconsumed
  inTime := hinTime
  spent := by
    rw [isSpent, tokenAt, only, Function.update_self]
    rfl
  consumes := by
    intro link' tokenHash token' hwrites
    by_cases hkey : Key.token link' tokenHash = .token link (secrets.hashToken raw)
    · cases hkey
      rw [tokenAt, only, Function.update_self] at hwrites
      obtain rfl := Option.some.inj hwrites
      exact ⟨rfl, record, hfound, rfl, rfl, fun _ => rfl⟩
    · rw [tokenAt, only, Function.update_of_ne hkey] at hwrites
      cases hwrites
  touches := by
    intro pk account' hwrites
    rw [accountAt, only, Function.update_of_ne (by simp)] at hwrites
    cases hwrites

/-- A redemption speaks of the rows it writes. -/
theorem congr (h : secrets.Spends link raw record judgedAt committed writes)
    (hwrites : ∀ k, writes k ≠ none → committed' k = committed k) :
    secrets.Spends link raw record judgedAt committed' writes where
  named := h.named
  found := by
    have hspent := h.spent
    rw [← h.found]
    refine hwrites _ fun hnone => ?_
    rw [isSpent, tokenAt, hnone] at hspent
    cases hspent
  unconsumed := h.unconsumed
  inTime := h.inTime
  spent := h.spent
  consumes := by
    intro link' tokenHash token' htoken
    obtain ⟨hconsumed, token, hfound, hbecomes⟩ := h.consumes htoken
    refine ⟨hconsumed, token, ?_, hbecomes⟩
    rw [← hfound]
    exact hwrites _ (Option.ne_none_iff_exists'.mpr ⟨token', htoken⟩)
  touches := by
    intro pk account' haccount
    obtain ⟨hpk, account, hfound, htouches⟩ := h.touches haccount
    refine ⟨hpk, account, ?_, htouches⟩
    rw [← hfound]
    exact hwrites _ (Option.ne_none_iff_exists'.mpr ⟨account', haccount⟩)

/-- The token of the link is consumed once this has committed. -/
theorem isSpent_overlay (h : secrets.Spends link raw record judgedAt committed writes) :
    isSpent (overlay writes committed) link (secrets.hashToken raw) := by
  obtain ⟨token, htoken, hconsumed⟩ := isSpent_iff.mp h.spent
  exact isSpent_iff.mpr ⟨token, Option.or_eq_some_iff.mpr (.inl htoken), hconsumed⟩

end Secrets.Spends

/-! ### The ledger -/

namespace Secrets.Effect

theorem congr (h : secrets.Effect committed writes entries) (hwrites : ∀ k, writes k ≠ none → committed' k = committed k) :
    secrets.Effect committed' writes entries := by
  cases h with
  | issued hdrawn hfree huser hopen =>
    refine .issued hdrawn ?_ huser hopen
    rw [← hfree]
    exact hwrites _ (by simp [only])
  | redeemed hspends => exact .redeemed (hspends.congr hwrites)

/-- No token is lost or given to somebody else, and none is opened again. -/
theorem keeps (h : secrets.Effect committed writes entries) (htoken : tokenAt committed link tokenHash = some token) :
    ∃ token', tokenAt (overlay writes committed) link tokenHash = some token' ∧ token.Becomes token' := by
  cases h with
  | @issued link' _ raw _ _ hfree =>
    refine ⟨token, ?_, .refl token⟩
    rw [tokenAt, overlay_only_of_ne]
    · exact htoken
    · intro hkey
      cases hkey
      rw [hfree] at htoken
      cases htoken
  | redeemed hspends =>
    cases hwrites : tokenAt writes link tokenHash with
    | none => exact ⟨token, Option.or_eq_some_iff.mpr (.inr ⟨hwrites, htoken⟩), .refl token⟩
    | some token' =>
      obtain ⟨-, before, hbefore, hbecomes⟩ := hspends.consumes hwrites
      obtain rfl := Option.some.inj (hbefore.symm.trans htoken)
      exact ⟨token', Option.or_eq_some_iff.mpr (.inl hwrites), hbecomes⟩

theorem isSpent_of_isSpent (h : secrets.Effect committed writes entries) (hspent : isSpent committed link tokenHash) :
    isSpent (overlay writes committed) link tokenHash := by
  obtain ⟨token, htoken, hconsumed⟩ := isSpent_iff.mp hspent
  obtain ⟨token', htoken', hbecomes⟩ := h.keeps htoken
  exact isSpent_iff.mpr ⟨token', htoken', hbecomes.consumed hconsumed⟩

/-- A token that is there was there already, or has just been issued. -/
theorem origin (h : secrets.Effect committed writes entries)
    (htoken : tokenAt (overlay writes committed) link tokenHash = some token') :
    (∃ token, tokenAt committed link tokenHash = some token ∧ token.Becomes token') ∨
      ∃ raw ∈ secrets.drawn, secrets.hashToken raw = tokenHash ∧
        .issued link token'.user raw token'.expiresAt ∈ entries := by
  cases h with
  | @issued link' user raw token hdrawn hfree huser hopen =>
    by_cases hkey : Key.token link tokenHash = .token link' (secrets.hashToken raw)
    · cases hkey
      rw [tokenAt, overlay_only_self] at htoken
      obtain rfl := Option.some.inj htoken
      exact .inr ⟨raw, hdrawn, rfl, by simp [huser]⟩
    · rw [tokenAt, overlay_only_of_ne hkey] at htoken
      exact .inl ⟨token', htoken, .refl token'⟩
  | redeemed hspends => exact .inl (hspends.token_of_overlay htoken)

/-- A redemption finds its token open, and leaves it consumed. -/
theorem countP_entries (h : secrets.Effect committed writes entries) (link : Link) (tokenHash : String) :
    (isSpent committed link tokenHash).toNat + entries.countP (secrets.redeemsRow link tokenHash) ≤
      (isSpent (overlay writes committed) link tokenHash).toNat := by
  have hmono : (isSpent committed link tokenHash).toNat ≤ (isSpent (overlay writes committed) link tokenHash).toNat :=
    Bool.toNat_le_toNat h.isSpent_of_isSpent
  cases h with
  | issued => simpa [redeemsRow] using hmono
  | @redeemed link' raw record judgedAt _ hspends =>
    by_cases hrow : link' = link ∧ secrets.hashToken raw = tokenHash
    · obtain ⟨rfl, rfl⟩ := hrow
      have hopen : isSpent committed link' (secrets.hashToken raw) = false := by
        rw [isSpent, hspends.found]
        exact hspends.unconsumed
      rw [hopen, hspends.isSpent_overlay]
      simp [redeemsRow]
    · simpa [redeemsRow, hrow] using hmono

end Secrets.Effect

theorem Secrets.Ledger.step (h : secrets.Ledger committed log) (heffect : secrets.Effect committed writes entries) :
    secrets.Ledger (overlay writes committed) (log ++ entries) where
  issued := by
    intro link user raw expiresAt hentry
    rcases List.mem_append.mp hentry with hentry | hentry
    · obtain ⟨token, htoken, rfl, rfl⟩ := h.issued hentry
      obtain ⟨token', htoken', hbecomes⟩ := heffect.keeps htoken
      exact ⟨token', htoken', hbecomes.user, hbecomes.expiresAt⟩
    · cases heffect with
      | issued _ _ huser =>
        obtain ⟨rfl, rfl, rfl, rfl⟩ := Entry.issued.inj (List.mem_singleton.mp hentry)
        exact ⟨_, overlay_only_self .., huser, rfl⟩
      | redeemed => cases List.mem_singleton.mp hentry
  drawn := by
    intro link tokenHash token' htoken
    rcases heffect.origin htoken with ⟨token, hfound, hbecomes⟩ | ⟨raw, hdrawn, hhash, hentry⟩
    · obtain ⟨raw, hdrawn, hhash, hentry⟩ := h.drawn hfound
      refine ⟨raw, hdrawn, hhash, List.mem_append_left _ ?_⟩
      rw [hbecomes.user, hbecomes.expiresAt]
      exact hentry
    · exact ⟨raw, hdrawn, hhash, List.mem_append_right _ hentry⟩
  redeemed := by
    intro link user raw judgedAt hentry
    rcases List.mem_append.mp hentry with hentry | hentry
    · obtain ⟨hnamed, token, htoken, rfl, hinTime⟩ := h.redeemed hentry
      obtain ⟨token', htoken', hbecomes⟩ := heffect.keeps htoken
      refine ⟨hnamed, token', htoken', hbecomes.user, ?_⟩
      rw [hbecomes.expiresAt]
      exact hinTime
    · cases hkind : heffect with
      | issued => cases List.mem_singleton.mp hentry
      | redeemed hspends =>
        obtain ⟨rfl, rfl, rfl, rfl⟩ := Entry.redeemed.inj (List.mem_singleton.mp hentry)
        obtain ⟨token', htoken', hbecomes⟩ := heffect.keeps hspends.found
        refine ⟨hspends.named, token', htoken', hbecomes.user, ?_⟩
        rw [hbecomes.expiresAt]
        exact hspends.inTime
  once := by
    intro link tokenHash
    rw [List.countP_append]
    exact (Nat.add_le_add_right (h.once link tokenHash) _).trans (heffect.countP_entries link tokenHash)

theorem ledger_empty (h : ∀ link tokenHash, tokenAt committed link tokenHash = none) : secrets.Ledger committed [] where
  issued hentry := by cases hentry
  drawn htoken := by
    rw [h] at htoken
    cases htoken
  redeemed hentry := by cases hentry
  once _ _ := Nat.zero_le _

end EPlatform.Accounts.Tokens
