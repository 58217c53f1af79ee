import EPlatform.Accounts.Redemption

/-!
# Links in flight

What a call may rely on at each of its statements. It judges its token under a row lock, so the token it found open is
still open when it writes, and what it has written nobody else can reach.
-/

namespace EPlatform.Accounts.Tokens

open Runs ReadCommitted

/-- It holds its token, which it has judged open and in time. -/
structure Secrets.Judged (secrets : Secrets) (link : Link) (raw : String) (record : Token) (judgedAt : Instant)
    (committed : Store Row) (s : Session Row Stage Entry) : Prop where
  named : raw ≠ ""
  unwritten : s.Unwritten
  holds : .token link (secrets.hashToken raw) ∈ s.holds
  found : tokenAt committed link (secrets.hashToken raw) = some record
  unconsumed : record.isConsumed = false
  inTime : judgedAt < record.expiresAt

namespace Secrets

variable (secrets : Secrets)

def SoundIssue (link : Link) (user : Uuid) (raw : String) (committed : Store Row) (s : Session Row Stage Entry) :
    Issuing → Prop
  | .starting | .inserting _ => raw ∈ secrets.drawn ∧ s.Unwritten
  | .returning token =>
    s.entries = [] ∧ secrets.Effect committed s.writes [.issued link user raw token.expiresAt]
  | .leaving => secrets.Effect committed s.writes s.entries

def SoundRedemption (link : Link) (raw : String) (committed : Store Row) (s : Session Row Stage Entry) :
    Redeeming → Prop
  | .looking => s.Unwritten
  | .checking => raw ≠ "" ∧ s.Unwritten ∧ .token link (secrets.hashToken raw) ∈ s.holds
  | .consuming record judgedAt => secrets.Judged link raw record judgedAt committed s
  | .loading record judgedAt | .saving record judgedAt | .scanning record judgedAt | .sweeping record judgedAt _ _
  | .returning record judgedAt => s.entries = [] ∧ secrets.Spends link raw record judgedAt committed s.writes
  | .leaving => secrets.Effect committed s.writes s.entries

def Sound (committed : Store Row) (s : Session Row Stage Entry) : Prop :=
  match s.stage with
  | .issuingEmailVerification user raw stage => secrets.SoundIssue .emailVerification user raw committed s stage
  | .issuingPasswordReset user raw stage => secrets.SoundIssue .passwordReset user raw committed s stage
  | .verifyingEmail token stage => secrets.SoundRedemption .emailVerification token committed s stage
  | .resettingPassword token _ stage => secrets.SoundRedemption .passwordReset token committed s stage

end Secrets

variable {secrets : Secrets} {committed committed' : Store Row} {s s' t : Session Row Stage Entry} {moment : Moment}
  {link : Link} {user : Uuid} {raw : String} {record : Token} {judgedAt : Instant}

/-! ### What a statement of a redemption makes of it -/

namespace Secrets

variable (secrets : Secrets) (link : Link) (change : Account → Account) (sweeps : Bool) (moment : Moment) (raw : String)
  (view : Store Row) (embed : Redeeming → Stage) (s : Session Row Stage Entry)

/-- The stage it comes to, and the transaction there. -/
inductive Redeems : Redeeming → Redeeming → Session Row Stage Entry → Prop
  | looks (hnamed : raw ≠ "") :
    Redeems .looking .checking
      { s with stage := embed .checking, holds := .token link (secrets.hashToken raw) :: s.holds }
  | judges {record : Token} (hfound : tokenAt view link (secrets.hashToken raw) = some record)
    (hunconsumed : record.isConsumed = false) (hinTime : moment.now < record.expiresAt) :
    Redeems .checking (.consuming record moment.now) { s with stage := embed (.consuming record moment.now) }
  | consumes {record current : Token} {judgedAt : Instant}
    (hcurrent : tokenAt view link (secrets.hashToken raw) = some current) :
    Redeems (.consuming record judgedAt) (.loading record judgedAt)
      (s.write (.token link (secrets.hashToken raw))
        { current with consumedAt := some moment.now, updatedAt := moment.now } (embed (.loading record judgedAt)))
  | loads {record : Token} {judgedAt : Instant} :
    Redeems (.loading record judgedAt) (.saving record judgedAt) { s with stage := embed (.saving record judgedAt) }
  | saves {record : Token} {judgedAt : Instant} {current : Account} {next : Redeeming}
    (hcurrent : accountAt view record.user = some current)
    (hnext : next = if sweeps then .scanning record judgedAt else .returning record judgedAt) :
    Redeems (.saving record judgedAt) next (s.write (.user record.user) (change current) (embed next))
  | scans {record : Token} {judgedAt : Instant} {next : Redeeming}
    (hnext : next = .sweeping record judgedAt moment.now (secrets.outstanding link record.user moment.place view)) :
    Redeems (.scanning record judgedAt) next { s with stage := embed next }
  | sweeps {record token : Token} {judgedAt now : Instant} {tokenHash : String} {hashes : List String}
    (hfound : tokenAt view link tokenHash = some token) (houtstanding : token.isOutstanding record.user) :
    Redeems (.sweeping record judgedAt now (tokenHash :: hashes)) (.sweeping record judgedAt now hashes)
      (s.write (.token link tokenHash) { token with consumedAt := some now } (embed (.sweeping record judgedAt now hashes)))
  | passes {record : Token} {judgedAt now : Instant} {tokenHash : String} {hashes : List String}
    (hpassed : ∀ token, tokenAt view link tokenHash = some token → ¬ token.isOutstanding record.user) :
    Redeems (.sweeping record judgedAt now (tokenHash :: hashes)) (.sweeping record judgedAt now hashes)
      { s with stage := embed (.sweeping record judgedAt now hashes), holds := .token link tokenHash :: s.holds }
  | swept {record : Token} {judgedAt now : Instant} :
    Redeems (.sweeping record judgedAt now []) (.returning record judgedAt)
      { s with stage := embed (.returning record judgedAt) }
  | returns {record : Token} {judgedAt : Instant} :
    Redeems (.returning record judgedAt) .leaving
      { s with stage := embed .leaving, entries := s.entries ++ [.redeemed link record.user raw judgedAt] }

end Secrets

theorem redeems_of_makes {change : Account → Account} {sweeps : Bool} {view : Store Row} {stage : Redeeming}
    {embed : Redeeming → Stage}
    (h : (secrets.redeem link change sweeps moment raw view stage).Makes embed s s') :
    ∃ next, s'.stage = embed next ∧ secrets.Redeems link change sweeps moment raw view embed s stage next s' := by
  cases stage with
  | looking =>
    rw [Secrets.redeem] at h
    split_ifs at h with hnamed
    · exact h.elim
    · split at h
      · exact h.elim
      · obtain rfl := h
        exact ⟨_, rfl, .looks hnamed⟩
  | checking =>
    rw [Secrets.redeem] at h
    split at h
    · exact h.elim
    · rename_i record hfound
      split_ifs at h with hconsumed hexpired
      · exact h.elim
      · exact h.elim
      · obtain rfl := h
        exact ⟨_, rfl, .judges hfound (Bool.eq_false_iff.mpr hconsumed) (Nat.lt_of_not_le hexpired)⟩
  | consuming record judgedAt =>
    rw [Secrets.redeem] at h
    split at h
    · exact h.elim
    · rename_i current hcurrent
      obtain rfl := h
      exact ⟨_, rfl, .consumes hcurrent⟩
  | loading record judgedAt =>
    rw [Secrets.redeem] at h
    split at h
    · exact h.elim
    · obtain rfl := h
      exact ⟨_, rfl, .loads⟩
  | saving record judgedAt =>
    rw [Secrets.redeem] at h
    split at h
    · exact h.elim
    · rename_i current hcurrent
      obtain rfl := h
      exact ⟨_, rfl, .saves hcurrent rfl⟩
  | scanning record judgedAt =>
    obtain rfl := h
    exact ⟨_, rfl, .scans rfl⟩
  | sweeping record judgedAt now hashes =>
    cases hashes with
    | nil =>
      obtain rfl := h
      exact ⟨_, rfl, .swept⟩
    | cons tokenHash hashes =>
      rw [Secrets.redeem] at h
      split at h
      · rename_i token hfound
        obtain ⟨hfound, houtstanding⟩ := Option.filter_eq_some_iff.mp hfound
        obtain rfl := h
        exact ⟨_, rfl, .sweeps hfound houtstanding⟩
      · rename_i hpassed
        obtain rfl := h
        refine ⟨_, rfl, .passes fun token htoken houtstanding => ?_⟩
        simp [htoken, Option.filter, houtstanding] at hpassed
  | returning record judgedAt =>
    obtain rfl := h
    exact ⟨_, rfl, .returns⟩
  | leaving => exact h.elim

/-! ### What keeps a call sound -/

theorem issue_makes {lifetime : Nat} {stage : Issuing} {embed : Issuing → Stage}
    (h : secrets.SoundIssue link user raw committed s stage)
    (hmakes : (secrets.issue link lifetime moment user raw (s.view committed) stage).Makes embed s s') :
    ∃ next, s'.stage = embed next ∧ secrets.SoundIssue link user raw committed s' next := by
  cases stage with
  | starting =>
    obtain ⟨hdrawn, hunwritten⟩ := h
    simp only [Secrets.issue, Statement.Makes] at hmakes
    subst hmakes
    exact ⟨.inserting _, rfl, hdrawn, hunwritten.writes, hunwritten.entries⟩
  | inserting expiresAt =>
    obtain ⟨hdrawn, hunwritten⟩ := h
    rw [Secrets.issue, hunwritten.view] at hmakes
    split_ifs at hmakes with hfree
    · simp only [saveToken, Statement.Makes] at hmakes
      subst hmakes
      refine ⟨.returning _, rfl, hunwritten.entries, ?_⟩
      rw [hunwritten.writes_write]
      exact .issued hdrawn (Option.isNone_iff_eq_none.mp hfree.2) rfl rfl
    · exact hmakes.elim
  | returning token =>
    obtain ⟨hentries, heffect⟩ := h
    simp only [Secrets.issue, Statement.Makes] at hmakes
    subst hmakes
    refine ⟨.leaving, rfl, ?_⟩
    show secrets.Effect committed s.writes (s.entries ++ _)
    rw [hentries]
    exact heffect
  | leaving => exact hmakes.elim

theorem Secrets.Redeems.sound {change : Account → Account} {sweeps : Bool} {stage next : Redeeming}
    {embed : Redeeming → Stage} (hchange : ∀ account, secrets.Touches link account (change account))
    (h : secrets.Redeems link change sweeps moment raw (s.view committed) embed s stage next s')
    (hsound : secrets.SoundRedemption link raw committed s stage) :
    secrets.SoundRedemption link raw committed s' next := by
  cases h with
  | looks hnamed => exact ⟨hnamed, ⟨hsound.writes, hsound.entries⟩, List.mem_cons_self⟩
  | judges hfound hunconsumed hinTime =>
    obtain ⟨hnamed, hunwritten, hholds⟩ := hsound
    rw [hunwritten.view] at hfound
    exact ⟨hnamed, ⟨hunwritten.writes, hunwritten.entries⟩, hholds, hfound, hunconsumed, hinTime⟩
  | @consumes record current judgedAt hcurrent =>
    replace hsound : secrets.Judged link raw record judgedAt committed s := hsound
    rw [hsound.unwritten.view, hsound.found] at hcurrent
    obtain rfl := Option.some.inj hcurrent
    refine ⟨hsound.unwritten.entries, ?_⟩
    rw [hsound.unwritten.writes_write]
    exact .consume hsound.named hsound.found hsound.unconsumed hsound.inTime
  | loads => exact hsound
  | @saves record judgedAt current next hcurrent hnext =>
    obtain ⟨hentries, hspends⟩ := hsound
    have hsaved := hspends.writeAccount hcurrent (hchange current)
    cases sweeps with
    | false =>
      subst hnext
      exact ⟨hentries, hsaved⟩
    | true =>
      subst hnext
      exact ⟨hentries, hsaved⟩
  | scans hnext =>
    subst hnext
    exact hsound
  | sweeps hfound => exact ⟨hsound.1, hsound.2.writeToken hfound⟩
  | passes => exact hsound
  | swept => exact hsound
  | @returns record judgedAt =>
    obtain ⟨hentries, hspends⟩ := hsound
    show secrets.Effect committed s.writes (s.entries ++ _)
    rw [hentries]
    exact .redeemed hspends

theorem touches_markVerified (account : Account) : secrets.Touches .emailVerification account (markVerified account) :=
  rfl

theorem touches_setPassword (newPassword : String) (account : Account) :
    secrets.Touches .passwordReset account (secrets.setPassword newPassword account) :=
  ⟨newPassword, rfl⟩

/-- An abort takes no statement and commits nothing. -/
theorem statement_eq_send {view : Store Row} {stage : Stage}
    (h : secrets.mailing.statement moment stage view ≠ .rollback) :
    secrets.mailing.statement moment stage view = secrets.send moment view stage := by
  simp only [Secrets.mailing] at h ⊢
  split_ifs at h ⊢ with haborted
  · exact absurd rfl h
  · rfl

theorem send_of_takes (h : secrets.mailing.Takes moment committed s s') :
    secrets.mailing.statement moment s.stage (s.view committed) = secrets.send moment (s.view committed) s.stage := by
  refine statement_eq_send fun hrollback => ?_
  rw [Program.Takes, hrollback] at h
  exact h

theorem sound_takes (h : secrets.Sound committed s) (htakes : secrets.mailing.Takes moment committed s s') :
    secrets.Sound committed s' := by
  have hsend := send_of_takes htakes
  cases hs : s.stage with
  | issuingEmailVerification user raw stage =>
    have hmakes : (secrets.issueEmailVerification moment user raw (s.view committed) stage).Makes
        (.issuingEmailVerification user raw) s s' :=
      (takes_iff_makes (hsend.trans (congrArg _ hs))).mp htakes
    simp only [Secrets.Sound, hs] at h
    obtain ⟨next, hnext, hsound⟩ := issue_makes h hmakes
    simpa only [Secrets.Sound, hnext] using hsound
  | issuingPasswordReset user raw stage =>
    have hmakes : (secrets.issuePasswordReset moment user raw (s.view committed) stage).Makes
        (.issuingPasswordReset user raw) s s' :=
      (takes_iff_makes (hsend.trans (congrArg _ hs))).mp htakes
    simp only [Secrets.Sound, hs] at h
    obtain ⟨next, hnext, hsound⟩ := issue_makes h hmakes
    simpa only [Secrets.Sound, hnext] using hsound
  | verifyingEmail token stage =>
    have hmakes : (secrets.verifyEmail moment token (s.view committed) stage).Makes (.verifyingEmail token) s s' :=
      (takes_iff_makes (hsend.trans (congrArg _ hs))).mp htakes
    simp only [Secrets.Sound, hs] at h
    obtain ⟨next, hnext, hredeems⟩ := redeems_of_makes hmakes
    simpa only [Secrets.Sound, hnext] using hredeems.sound touches_markVerified h
  | resettingPassword token newPassword stage =>
    have hmakes : (secrets.resetPassword moment token newPassword (s.view committed) stage).Makes
        (.resettingPassword token newPassword) s s' :=
      (takes_iff_makes (hsend.trans (congrArg _ hs))).mp htakes
    simp only [Secrets.Sound, hs] at h
    obtain ⟨next, hnext, hredeems⟩ := redeems_of_makes hmakes
    simpa only [Secrets.Sound, hnext] using hredeems.sound (touches_setPassword newPassword) h

/-! ### What a commit finds -/

theorem issue_eq_commit {lifetime : Nat} {view : Store Row} {stage : Issuing}
    (h : secrets.issue link lifetime moment user raw view stage = .commit) : stage = .leaving := by
  revert h
  fun_cases Secrets.issue secrets link lifetime moment user raw view stage <;> simp [saveToken]

theorem redeem_eq_commit {change : Account → Account} {sweeps : Bool} {view : Store Row} {stage : Redeeming}
    (h : secrets.redeem link change sweeps moment raw view stage = .commit) : stage = .leaving := by
  revert h
  fun_cases Secrets.redeem secrets link change sweeps moment raw view stage <;> simp [saveToken, saveAccount, *]

theorem effect_of_commit {view : Store Row} (h : secrets.Sound committed s)
    (hcommit : secrets.mailing.statement moment s.stage view = .commit) :
    secrets.Effect committed s.writes s.entries := by
  rw [statement_eq_send (by simp [hcommit])] at hcommit
  cases hs : s.stage with
  | issuingEmailVerification user raw stage =>
    rw [hs, Secrets.send, map_eq_commit] at hcommit
    obtain rfl := issue_eq_commit hcommit
    simpa only [Secrets.Sound, hs, Secrets.SoundIssue] using h
  | issuingPasswordReset user raw stage =>
    rw [hs, Secrets.send, map_eq_commit] at hcommit
    obtain rfl := issue_eq_commit hcommit
    simpa only [Secrets.Sound, hs, Secrets.SoundIssue] using h
  | verifyingEmail token stage =>
    rw [hs, Secrets.send, map_eq_commit] at hcommit
    obtain rfl := redeem_eq_commit hcommit
    simpa only [Secrets.Sound, hs, Secrets.SoundRedemption] using h
  | resettingPassword token newPassword stage =>
    rw [hs, Secrets.send, map_eq_commit] at hcommit
    obtain rfl := redeem_eq_commit hcommit
    simpa only [Secrets.Sound, hs, Secrets.SoundRedemption] using h

/-! ### What the others leave alone -/

section Stable

variable (hwritten : ∀ k, t.writes k ≠ none → k ∈ t.holds) (hheld : ∀ k ∈ t.holds, committed' k = committed k)

include hwritten hheld

theorem soundIssue_stable {stage : Issuing} (h : secrets.SoundIssue link user raw committed t stage) :
    secrets.SoundIssue link user raw committed' t stage := by
  cases stage with
  | starting => exact h
  | inserting => exact h
  | returning => exact ⟨h.1, h.2.congr fun k hk => hheld k (hwritten k hk)⟩
  | leaving => exact Secrets.Effect.congr h fun k hk => hheld k (hwritten k hk)

theorem soundRedemption_stable {stage : Redeeming} (h : secrets.SoundRedemption link raw committed t stage) :
    secrets.SoundRedemption link raw committed' t stage := by
  have hspends : ∀ {record judgedAt},
      (t.entries = [] ∧ secrets.Spends link raw record judgedAt committed t.writes) →
        t.entries = [] ∧ secrets.Spends link raw record judgedAt committed' t.writes :=
    fun h => ⟨h.1, h.2.congr fun k hk => hheld k (hwritten k hk)⟩
  cases stage with
  | looking => exact h
  | checking => exact h
  | consuming =>
    obtain ⟨hnamed, hunwritten, hholds, hfound, hunconsumed, hinTime⟩ := h
    exact ⟨hnamed, hunwritten, hholds, (hheld _ hholds).trans hfound, hunconsumed, hinTime⟩
  | loading => exact hspends h
  | saving => exact hspends h
  | scanning => exact hspends h
  | sweeping => exact hspends h
  | returning => exact hspends h
  | leaving => exact Secrets.Effect.congr h fun k hk => hheld k (hwritten k hk)

theorem sound_stable (h : secrets.Sound committed t) : secrets.Sound committed' t := by
  cases hs : t.stage <;> simp only [Secrets.Sound, hs] at h ⊢
  case issuingEmailVerification => exact soundIssue_stable hwritten hheld h
  case issuingPasswordReset => exact soundIssue_stable hwritten hheld h
  case verifyingEmail => exact soundRedemption_stable hwritten hheld h
  case resettingPassword => exact soundRedemption_stable hwritten hheld h

end Stable

theorem sound_begin {request : Request} {stage : Stage} (h : secrets.mailing.start request = some stage) :
    secrets.Sound committed (.begin stage) := by
  cases request with
  | issueEmailVerification user raw =>
    obtain ⟨hdrawn, hstage⟩ := Option.ite_none_right_eq_some.mp h
    obtain rfl := Option.some.inj hstage
    exact ⟨hdrawn, unwritten_begin _⟩
  | issuePasswordReset user raw =>
    obtain ⟨hdrawn, hstage⟩ := Option.ite_none_right_eq_some.mp h
    obtain rfl := Option.some.inj hstage
    exact ⟨hdrawn, unwritten_begin _⟩
  | verifyEmail token =>
    obtain rfl := Option.some.inj h
    exact unwritten_begin _
  | resetPassword token newPassword =>
    obtain rfl := Option.some.inj h
    exact unwritten_begin _

theorem mailing_maintains (secrets : Secrets) : secrets.mailing.Maintains secrets.Ledger secrets.Sound where
  begins _ hstart := sound_begin hstart
  takes _ h htakes := sound_takes h htakes
  commits hledger h hcommit := hledger.step (effect_of_commit h hcommit)
  stable _ _ h _ hwritten hheld := sound_stable hwritten hheld h

end EPlatform.Accounts.Tokens
