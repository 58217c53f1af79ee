import EPlatform.Accounts.LinksInFlight

/-!
# Emailed links are single-use and die with a reset

What the log tells of every interleaving, and what a password reset leaves of the user's other links: its sweep finds every
one that was issued before, waits for whoever is redeeming it, and consumes those it then still finds open.
-/

namespace EPlatform.Accounts.Tokens

open Runs ReadCommitted

def Entry.redeems (link : Link) (raw : String) : Entry → Bool
  | .issued .. => false
  | .redeemed link' _ raw' _ => link' = link && raw' = raw

/-- Before any link is issued. -/
def registered (accounts : Uuid → Option Account) : Store Row
  | .token .. => none
  | .user pk => accounts pk

namespace Secrets

variable (secrets : Secrets)

def reached (accounts : Uuid → Option Account) (run : List (Turn Request Moment)) : Server Row Stage Entry :=
  final secrets.mailing.step (.idle (registered accounts) []) run

/-- A link gets through once, for the user it was issued to and before it expires, and nothing else writes to an account.
A value that was not itself issued gets through only where its hash is that of one that was. -/
structure SingleUse (w : Server Row Stage Entry) : Prop where
  once : ∀ link raw, w.log.countP (·.redeems link raw) ≤ 1
  own : ∀ {link user user' raw judgedAt expiresAt}, .redeemed link user raw judgedAt ∈ w.log →
    .issued link user' raw expiresAt ∈ w.log → user' = user ∧ judgedAt < expiresAt
  genuine : ∀ {link user raw judgedAt}, .redeemed link user raw judgedAt ∈ w.log →
    raw ≠ "" ∧ ∃ issued expiresAt, secrets.hashToken issued = secrets.hashToken raw ∧
      .issued link user issued expiresAt ∈ w.log ∧ judgedAt < expiresAt
  touches : ∀ {turn pk account'}, accountAt (secrets.mailing.step w turn).committed pk = some account' →
    ∃ account, accountAt w.committed pk = some account ∧ (account' = account ∨
      ∃ link raw judgedAt, secrets.Touches link account account' ∧
        (secrets.mailing.step w turn).log = w.log ++ [.redeemed link pk raw judgedAt])

/-- A reset for `user` that begins after `before` and commits with the last step of the run. -/
inductive Resets (accounts : Uuid → Option Account) (user : Uuid) (before : List (Turn Request Moment)) :
    List (Turn Request Moment) → Prop
  | commits {token newPassword : String} {during : List (Turn Request Moment)} {moment : Moment}
    {s : Session Row Stage Entry} {judgedAt : Instant} {w : Server Row Stage Entry}
    (hw : w = secrets.reached accounts (before ++ .begin (.resetPassword token newPassword) :: during))
    (hat : w.At (secrets.reached accounts before).sessions.length s)
    (hcommit : secrets.mailing.statement moment s.stage (s.view w.committed) = .commit)
    (hfor : .redeemed .passwordReset user token judgedAt ∈ s.entries) :
    Resets accounts user before
      (before ++ .begin (.resetPassword token newPassword) :: during ++
        [.step (secrets.reached accounts before).sessions.length moment])

/-- No call that begins once the clock has reached the expiry of a link gets it through. -/
def ExpiresOnTime (accounts : Uuid → Option Account) (run : List (Turn Request Moment)) : Prop :=
  ∀ {before after : List (Turn Request Moment)} {instant : Instant}, run = before ++ after →
    (∀ {i moment}, .step i moment ∈ after → instant ≤ moment.now) →
    ∀ {i s link user user' raw judgedAt expiresAt}, (secrets.reached accounts before).sessions.length ≤ i →
      (secrets.reached accounts run).At i s → .issued link user raw expiresAt ∈ (secrets.reached accounts run).log →
        expiresAt ≤ instant → .redeemed link user' raw judgedAt ∉ s.entries

/-- Nothing that was issued to a user before a reset began gets through once the reset has committed. -/
def DiesWithReset (accounts : Uuid → Option Account) (run : List (Turn Request Moment)) : Prop :=
  ∀ {before user raw expiresAt}, secrets.Resets accounts user before run →
    .issued .passwordReset user raw expiresAt ∈ (secrets.reached accounts before).log →
      ∀ after, ∃ later,
        (secrets.reached accounts (run ++ after)).log = (secrets.reached accounts run).log ++ later ∧
          ∀ entry ∈ later, entry.redeems .passwordReset raw = false

end Secrets

/-- How far a reset has come with one of the tokens. -/
def Closing (user : Uuid) (tokenHash : String) (view : Store Row) (entries : List Entry) : Redeeming → Prop
  | .sweeping record _ _ hashes =>
    record.user = user → tokenHash ∈ hashes ∨ isSpent view .passwordReset tokenHash
  | .returning record _ => record.user = user → isSpent view .passwordReset tokenHash
  | .leaving => ∀ {raw judgedAt}, .redeemed .passwordReset user raw judgedAt ∈ entries →
    isSpent view .passwordReset tokenHash
  | _ => True

/-- The transaction is a reset, and the token was there when it began. -/
def Closes (user : Uuid) (tokenHash : String) (committed : Store Row) (s : Session Row Stage Entry) : Prop :=
  (∃ token, tokenAt committed .passwordReset tokenHash = some token ∧ token.user = user) ∧
    ∃ token newPassword stage, s.stage = .resettingPassword token newPassword stage ∧
      Closing user tokenHash (s.view committed) s.entries stage

/-- When the check of the expiry read the clock, once it has. -/
def Redeeming.judgedAt : Redeeming → Option Instant
  | .consuming _ judgedAt | .loading _ judgedAt | .saving _ judgedAt | .scanning _ judgedAt
  | .sweeping _ judgedAt _ _ | .returning _ judgedAt => some judgedAt
  | .looking | .checking | .leaving => none

def Stage.judgedAt : Stage → Option Instant
  | .verifyingEmail _ stage | .resettingPassword _ _ stage => stage.judgedAt
  | _ => none

/-- The clock had reached `instant` when the transaction judged its token, if it has. -/
structure JudgedSince (instant : Instant) (s : Session Row Stage Entry) : Prop where
  stage : ∀ judgedAt ∈ s.stage.judgedAt, instant ≤ judgedAt
  entries : ∀ {link user raw judgedAt}, .redeemed link user raw judgedAt ∈ s.entries → instant ≤ judgedAt

variable {secrets : Secrets} {committed : Store Row} {log : List Entry} {entries : List Entry} {writes : Store Row}
  {s s' t : Session Row Stage Entry} {moment : Moment} {link : Link} {user : Uuid} {raw tokenHash : String}
  {accounts : Uuid → Option Account}

theorem redeemsRow_of_redeems {entry : Entry} (h : entry.redeems link raw = true) :
    secrets.redeemsRow link (secrets.hashToken raw) entry = true := by
  cases entry with
  | issued => cases h
  | redeemed link' user raw' judgedAt =>
    obtain ⟨rfl, rfl⟩ : link' = link ∧ raw' = raw := by simpa [Entry.redeems] using h
    simp [Secrets.redeemsRow]

theorem reached_satisfies (accounts : Uuid → Option Account) (run : List (Turn Request Moment)) :
    (secrets.reached accounts run).Satisfies secrets.Ledger secrets.Sound :=
  (mailing_maintains secrets).run (satisfies_idle (ledger_empty fun _ _ => rfl)) run

/-! ### Single use -/

theorem Secrets.Effect.account_of_overlay {pk : Uuid} {account' : Account}
    (h : secrets.Effect committed writes entries) (haccount : accountAt (overlay writes committed) pk = some account') :
    ∃ account, accountAt committed pk = some account ∧ (account' = account ∨
      ∃ link raw judgedAt, secrets.Touches link account account' ∧ entries = [.redeemed link pk raw judgedAt]) := by
  cases h with
  | issued =>
    rw [accountAt, overlay_only_of_ne (by simp)] at haccount
    exact ⟨account', haccount, .inl rfl⟩
  | @redeemed link raw record judgedAt _ hspends =>
    rcases Option.or_eq_some_iff.mp haccount with hwrites | ⟨-, hcommitted⟩
    · obtain ⟨rfl, account, hfound, htouches⟩ := hspends.touches hwrites
      exact ⟨account, hfound, .inr ⟨link, raw, judgedAt, htouches, rfl⟩⟩
    · exact ⟨account', hcommitted, .inl rfl⟩

theorem singleUse_of_satisfies {w : Server Row Stage Entry} (h : w.Satisfies secrets.Ledger secrets.Sound) :
    secrets.SingleUse w where
  once := by
    intro link raw
    calc w.log.countP (·.redeems link raw)
      _ ≤ w.log.countP (secrets.redeemsRow link (secrets.hashToken raw)) :=
        List.countP_mono_left fun _ _ hredeems => redeemsRow_of_redeems hredeems
      _ ≤ (isSpent w.committed link (secrets.hashToken raw)).toNat := h.committed.once link _
      _ ≤ 1 := Bool.toNat_le _
  own := by
    intro link user user' raw judgedAt expiresAt hredeemed hissued
    obtain ⟨-, token, htoken, rfl, hinTime⟩ := h.committed.redeemed hredeemed
    obtain ⟨token', htoken', rfl, rfl⟩ := h.committed.issued hissued
    obtain rfl := Option.some.inj (htoken.symm.trans htoken')
    exact ⟨rfl, hinTime⟩
  genuine := by
    intro link user raw judgedAt hredeemed
    obtain ⟨hnamed, token, htoken, rfl, hinTime⟩ := h.committed.redeemed hredeemed
    obtain ⟨issued, -, hhash, hissued⟩ := h.committed.drawn htoken
    exact ⟨hnamed, issued, token.expiresAt, hhash, hissued, hinTime⟩
  touches := by
    intro turn pk account' haccount
    have hstep := secrets.mailing.step_spec w turn
    generalize secrets.mailing.step w turn = w' at hstep haccount
    cases hstep with
    | wait => exact ⟨account', haccount, .inl rfl⟩
    | begin => exact ⟨account', haccount, .inl rfl⟩
    | take => exact ⟨account', haccount, .inl rfl⟩
    | @commit i moment s hat hcommit =>
      obtain ⟨account, hfound, hsame | ⟨link, raw, judgedAt, htouches, hentries⟩⟩ :=
        (effect_of_commit (h.sessions hat) hcommit).account_of_overlay haccount
      · exact ⟨account, hfound, .inl hsame⟩
      · exact ⟨account, hfound, .inr ⟨link, raw, judgedAt, htouches, congrArg (w.log ++ ·) hentries⟩⟩
    | rollback => exact ⟨account', haccount, .inl rfl⟩

/-! ### The sweep -/

theorem mem_outstanding {place : String → Nat} {view : Store Row} {token : Token}
    (hdrawn : tokenHash ∈ secrets.drawn.map secrets.hashToken) (htoken : tokenAt view link tokenHash = some token)
    (huser : token.user = user) (hopen : token.isConsumed = false) :
    tokenHash ∈ secrets.outstanding link user place view := by
  rw [Secrets.outstanding, List.mem_insertionSort, List.mem_filter]
  refine ⟨hdrawn, ?_⟩
  rw [htoken, Option.any_some]
  exact Token.isOutstanding_iff.mpr ⟨huser, hopen⟩

/-- A token that is there is seen by every redemption: open, or consumed. -/
theorem seen {record : Token} {judgedAt : Instant} {token : Token}
    (h : secrets.Spends link raw record judgedAt committed s.writes)
    (htoken : tokenAt committed .passwordReset tokenHash = some token) (huser : token.user = user) :
    ∃ token', tokenAt (s.view committed) .passwordReset tokenHash = some token' ∧ token'.user = user := by
  obtain ⟨token', htoken', hbecomes⟩ := (Secrets.Effect.redeemed h).keeps htoken
  exact ⟨token', htoken', hbecomes.user.trans huser⟩

theorem isSpent_or_open {view : Store Row} {token : Token}
    (htoken : tokenAt view .passwordReset tokenHash = some token) :
    isSpent view .passwordReset tokenHash ∨ token.isConsumed = false := by
  cases hconsumed : token.isConsumed with
  | true => exact .inl (isSpent_iff.mpr ⟨token, htoken, hconsumed⟩)
  | false => exact .inr rfl

theorem isSpent_write {next : Stage} {tokenHash' : String} {token : Token}
    (h : tokenHash = tokenHash' ∨ isSpent (s.view committed) .passwordReset tokenHash) (hconsumed : token.isConsumed) :
    isSpent ((s.write (.token .passwordReset tokenHash') token next).view committed) .passwordReset tokenHash := by
  by_cases hkey : tokenHash = tokenHash'
  · subst hkey
    exact isSpent_iff.mpr ⟨token, view_write_self .., hconsumed⟩
  · rw [isSpent, tokenAt, view_write_of_ne (by simpa using hkey)]
    exact h.resolve_left hkey

theorem Secrets.Redeems.closing {change : Account → Account} {stage next : Redeeming} {embed : Redeeming → Stage}
    {token : Token}
    (h : secrets.Redeems .passwordReset change true moment raw (s.view committed) embed s stage next s')
    (hledger : secrets.Ledger committed log) (htoken : tokenAt committed .passwordReset tokenHash = some token)
    (huser : token.user = user) (hsound : secrets.SoundRedemption .passwordReset raw committed s stage)
    (hclosing : Closing user tokenHash (s.view committed) s.entries stage) :
    Closing user tokenHash (s'.view committed) s'.entries next := by
  cases h with
  | looks => trivial
  | judges => trivial
  | consumes => trivial
  | loads => trivial
  | saves _ hnext =>
    subst hnext
    trivial
  | @scans record judgedAt _ hnext =>
    subst hnext
    intro hrecord
    obtain ⟨token', hseen, huser'⟩ := seen hsound.2 htoken huser
    obtain ⟨raw', hdrawn, hhash, -⟩ := hledger.drawn htoken
    rcases isSpent_or_open hseen with hspent | hopen
    · exact .inr hspent
    · exact .inl (mem_outstanding (List.mem_map.mpr ⟨raw', hdrawn, hhash⟩) hseen (huser'.trans hrecord.symm) hopen)
  | sweeps =>
    -- the row is consumed, and the others look as they did
    intro hrecord
    rcases hclosing hrecord with hmem | hspent
    · rcases List.mem_cons.mp hmem with hself | hmem
      · exact .inr (isSpent_write (.inl hself) rfl)
      · exact .inl hmem
    · exact .inr (isSpent_write (.inr hspent) rfl)
  | passes hpassed =>
    intro hrecord
    rcases hclosing hrecord with hmem | hspent
    · rcases List.mem_cons.mp hmem with rfl | hmem
      · obtain ⟨token', hseen, huser'⟩ := seen hsound.2 htoken huser
        right
        refine (isSpent_or_open hseen).resolve_right fun hopen => hpassed token' hseen ?_
        exact Token.isOutstanding_iff.mpr ⟨huser'.trans hrecord.symm, hopen⟩
      · exact .inl hmem
    · exact .inr hspent
  | swept => exact fun hrecord => (hclosing hrecord).resolve_left List.not_mem_nil
  | @returns record judgedAt =>
    intro raw' judgedAt' hentry
    replace hentry : Entry.redeemed .passwordReset user raw' judgedAt' ∈
        s.entries ++ [.redeemed .passwordReset record.user raw judgedAt] := hentry
    rw [hsound.1, List.nil_append, List.mem_singleton] at hentry
    exact hclosing (Entry.redeemed.inj hentry).2.1.symm

theorem Closing.mono {view view' : Store Row} {stage : Redeeming} (h : Closing user tokenHash view entries stage)
    (hspent : isSpent view .passwordReset tokenHash → isSpent view' .passwordReset tokenHash) :
    Closing user tokenHash view' entries stage := by
  cases stage with
  | sweeping => exact fun hrecord => (h hrecord).imp_right hspent
  | returning => exact fun hrecord => hspent (h hrecord)
  | leaving => exact fun hentry => hspent (h hentry)
  | looking => trivial
  | checking => trivial
  | consuming => trivial
  | loading => trivial
  | saving => trivial
  | scanning => trivial

/-- What somebody sees consumed, nobody's commit opens again. -/
theorem isSpent_view (heffect : secrets.Effect committed s.writes entries)
    (h : isSpent (t.view committed) link tokenHash) : isSpent (t.view (s.view committed)) link tokenHash := by
  obtain ⟨token, htoken, hconsumed⟩ := isSpent_iff.mp h
  rcases Option.or_eq_some_iff.mp htoken with hwrites | ⟨hunwritten, hcommitted⟩
  · exact isSpent_iff.mpr ⟨token, Option.or_eq_some_iff.mpr (.inl hwrites), hconsumed⟩
  · obtain ⟨token', htoken', hbecomes⟩ := heffect.keeps hcommitted
    exact isSpent_iff.mpr ⟨token', Option.or_eq_some_iff.mpr (.inr ⟨hunwritten, htoken'⟩), hbecomes.consumed hconsumed⟩

theorem mailing_carries (secrets : Secrets) (user : Uuid) (tokenHash : String) :
    secrets.mailing.Carries secrets.Ledger secrets.Sound (Closes user tokenHash) where
  takes := by
    intro moment committed log s s' hledger hsound h htakes
    obtain ⟨⟨token, htoken, huser⟩, raw, newPassword, stage, hs, hclosing⟩ := h
    have hmakes : (secrets.resetPassword moment raw newPassword (s.view committed) stage).Makes
        (.resettingPassword raw newPassword) s s' :=
      (takes_iff_makes ((send_of_takes htakes).trans (congrArg _ hs))).mp htakes
    simp only [Secrets.Sound, hs] at hsound
    obtain ⟨next, hnext, hredeems⟩ := redeems_of_makes hmakes
    exact ⟨⟨token, htoken, huser⟩, raw, newPassword, next, hnext,
      hredeems.closing hledger htoken huser hsound hclosing⟩
  stable := by
    intro moment committed log s t _ hsound _ h hcommit _ _
    have heffect := effect_of_commit hsound hcommit
    obtain ⟨⟨token, htoken, huser⟩, raw, newPassword, stage, hs, hclosing⟩ := h
    obtain ⟨token', htoken', hbecomes⟩ := heffect.keeps htoken
    exact ⟨⟨token', htoken', hbecomes.user.trans huser⟩, raw, newPassword, stage, hs,
      hclosing.mono (isSpent_view heffect)⟩

/-- At its commit a reset leaves no token of the user's that was there when it began. -/
theorem isSpent_of_commit {judgedAt : Instant} {view : Store Row} (h : Closes user tokenHash committed s)
    (hcommit : secrets.mailing.statement moment s.stage view = .commit)
    (hfor : .redeemed .passwordReset user raw judgedAt ∈ s.entries) :
    isSpent (s.view committed) .passwordReset tokenHash := by
  obtain ⟨-, raw', newPassword, stage, hs, hclosing⟩ := h
  rw [statement_eq_send (by simp [hcommit]), hs, Secrets.send, map_eq_commit] at hcommit
  obtain rfl := redeem_eq_commit hcommit
  exact hclosing hfor

/-- Once a token is consumed no commit redeems it. -/
theorem log_of_isSpent {w : Server Row Stage Entry} (hw : w.Satisfies secrets.Ledger secrets.Sound)
    (hspent : isSpent w.committed link tokenHash) (run : List (Turn Request Moment)) :
    ∃ later, (final secrets.mailing.step w run).log = w.log ++ later ∧
      ∀ entry ∈ later, secrets.redeemsRow link tokenHash entry ≠ true := by
  refine (mailing_maintains secrets).run_log (C := fun committed => isSpent committed link tokenHash) ?_ hw hspent run
  intro moment committed log s _ hsound hspent hcommit
  have heffect := effect_of_commit hsound hcommit
  refine ⟨heffect.isSpent_of_isSpent hspent, List.countP_eq_zero.mp ?_⟩
  have hcount := heffect.countP_entries link tokenHash
  rw [hspent, heffect.isSpent_of_isSpent hspent, Bool.toNat_true] at hcount
  omega

theorem isSpent_of_resets {before run : List (Turn Request Moment)} {expiresAt : Instant}
    (h : secrets.Resets accounts user before run)
    (hissued : .issued .passwordReset user raw expiresAt ∈ (secrets.reached accounts before).log) :
    isSpent (secrets.reached accounts run).committed .passwordReset (secrets.hashToken raw) := by
  obtain @⟨token, newPassword, during, moment, s, judgedAt, w, hw, hat, hcommit, hfor⟩ := h
  have hbefore : (secrets.reached accounts before).Satisfies secrets.Ledger secrets.Sound :=
    reached_satisfies accounts before
  have hfollows : w.Follows (secrets.reached accounts before).sessions.length
      (Closes user (secrets.hashToken raw)) := by
    have hbegun : (secrets.mailing.step (secrets.reached accounts before) (.begin (.resetPassword token newPassword))).Follows
        (secrets.reached accounts before).sessions.length (Closes user (secrets.hashToken raw)) := by
      obtain ⟨token', htoken, huser, -⟩ := hbefore.committed.issued hissued
      exact follows_begin ⟨⟨token', htoken, huser⟩, token, newPassword, .looking, rfl, trivial⟩
    rw [hw, Secrets.reached, final_append, final_cons]
    exact (mailing_carries ..).run (mailing_maintains secrets) ((mailing_maintains secrets).step hbefore _) hbegun during
  have hlast : secrets.reached accounts (before ++ .begin (.resetPassword token newPassword) :: during ++
      [.step (secrets.reached accounts before).sessions.length moment]) =
        w.commit (secrets.reached accounts before).sessions.length s := by
    rw [Secrets.reached, final_append, final_cons, final_nil, ← step_commit hat hcommit, hw]
    rfl
  rw [hlast]
  exact isSpent_of_commit (hfollows.carries hat) hcommit hfor

theorem diesWithReset (secrets : Secrets) (accounts : Uuid → Option Account) (run : List (Turn Request Moment)) :
    secrets.DiesWithReset accounts run := by
  intro before user raw expiresAt hresets hissued after
  obtain ⟨later, hlog, hlater⟩ :=
    log_of_isSpent (reached_satisfies accounts run) (isSpent_of_resets hresets hissued) after
  refine ⟨later, ?_, fun entry hentry => ?_⟩
  · rw [Secrets.reached, final_append]
    exact hlog
  · rw [← Bool.not_eq_true]
    exact fun hredeems => hlater entry hentry (redeemsRow_of_redeems hredeems)

/-! ### Expiry -/

/-- A transaction has logged nothing before it has done what it logs. -/
theorem entries_of_sound (h : secrets.Sound committed s) :
    s.entries = [] ∨ secrets.Effect committed s.writes s.entries := by
  have hissue : ∀ {link user raw stage}, secrets.SoundIssue link user raw committed s stage →
      s.entries = [] ∨ secrets.Effect committed s.writes s.entries := by
    intro link user raw stage h
    cases stage with
    | starting => exact .inl h.2.entries
    | inserting => exact .inl h.2.entries
    | returning => exact .inl h.1
    | leaving => exact .inr h
  have hredemption : ∀ {link raw stage}, secrets.SoundRedemption link raw committed s stage →
      s.entries = [] ∨ secrets.Effect committed s.writes s.entries := by
    intro link raw stage h
    cases stage with
    | looking => exact .inl h.entries
    | checking => exact .inl h.2.1.entries
    | consuming => exact .inl h.unwritten.entries
    | loading => exact .inl h.1
    | saving => exact .inl h.1
    | scanning => exact .inl h.1
    | sweeping => exact .inl h.1
    | returning => exact .inl h.1
    | leaving => exact .inr h
  cases hs : s.stage <;> simp only [Secrets.Sound, hs] at h
  case issuingEmailVerification => exact hissue h
  case issuingPasswordReset => exact hissue h
  case verifyingEmail => exact hredemption h
  case resettingPassword => exact hredemption h

theorem inTime_of_entry {judgedAt : Instant} (h : secrets.Sound committed s)
    (hentry : .redeemed link user raw judgedAt ∈ s.entries) :
    ∃ token, tokenAt committed link (secrets.hashToken raw) = some token ∧ judgedAt < token.expiresAt := by
  rcases entries_of_sound h with hnone | heffect
  · rw [hnone] at hentry
    cases hentry
  · generalize s.writes = writes at heffect
    generalize s.entries = entries at hentry heffect
    cases heffect with
    | issued => cases List.mem_singleton.mp hentry
    | redeemed hspends =>
      obtain ⟨rfl, rfl, rfl, rfl⟩ := Entry.redeemed.inj (List.mem_singleton.mp hentry)
      exact ⟨_, hspends.found, hspends.inTime⟩

theorem Secrets.Redeems.judgedSince {change : Account → Account} {sweeps : Bool} {stage next : Redeeming}
    {embed : Redeeming → Stage} {view : Store Row} {instant : Instant}
    (h : secrets.Redeems link change sweeps moment raw view embed s stage next s') (hnow : instant ≤ moment.now)
    (hstage : ∀ judgedAt ∈ stage.judgedAt, instant ≤ judgedAt)
    (hentries : ∀ {link user raw judgedAt}, .redeemed link user raw judgedAt ∈ s.entries → instant ≤ judgedAt) :
    (∀ judgedAt ∈ next.judgedAt, instant ≤ judgedAt) ∧
      ∀ {link user raw judgedAt}, .redeemed link user raw judgedAt ∈ s'.entries → instant ≤ judgedAt := by
  cases h with
  | looks => exact ⟨by simp [Redeeming.judgedAt], hentries⟩
  | judges =>
    refine ⟨fun judgedAt hjudged => ?_, hentries⟩
    obtain rfl := Option.some.inj hjudged
    exact hnow
  | consumes => exact ⟨hstage, hentries⟩
  | loads => exact ⟨hstage, hentries⟩
  | saves _ hnext =>
    subst hnext
    cases sweeps with
    | false => exact ⟨hstage, hentries⟩
    | true => exact ⟨hstage, hentries⟩
  | scans hnext =>
    subst hnext
    exact ⟨hstage, hentries⟩
  | sweeps => exact ⟨hstage, hentries⟩
  | passes => exact ⟨hstage, hentries⟩
  | swept => exact ⟨hstage, hentries⟩
  | @returns record judgedAt =>
    refine ⟨by simp [Redeeming.judgedAt], fun hentry => ?_⟩
    rcases List.mem_append.mp hentry with hentry | hentry
    · exact hentries hentry
    · rw [(Entry.redeemed.inj (List.mem_singleton.mp hentry)).2.2.2]
      exact hstage judgedAt rfl

theorem issue_entries {lifetime : Nat} {stage : Issuing} {embed : Issuing → Stage} {view : Store Row}
    (hmakes : (secrets.issue link lifetime moment user raw view stage).Makes embed s s') :
    ∃ next, s'.stage = embed next ∧ ∀ {link user raw judgedAt}, .redeemed link user raw judgedAt ∈ s'.entries →
      .redeemed link user raw judgedAt ∈ s.entries := by
  cases stage with
  | starting =>
    obtain rfl := hmakes
    exact ⟨_, rfl, id⟩
  | inserting expiresAt =>
    rw [Secrets.issue] at hmakes
    split_ifs at hmakes
    · obtain rfl := hmakes
      exact ⟨_, rfl, id⟩
    · exact hmakes.elim
  | returning token =>
    obtain rfl := hmakes
    exact ⟨_, rfl, fun hentry => by simpa using hentry⟩
  | leaving => exact hmakes.elim

theorem takes_judgedSince {instant : Instant} (hnow : instant ≤ moment.now) (h : JudgedSince instant s)
    (htakes : secrets.mailing.Takes moment committed s s') : JudgedSince instant s' := by
  have hsend := send_of_takes htakes
  have hstage := h.stage
  cases hs : s.stage with
  | issuingEmailVerification user raw stage =>
    have hmakes : (secrets.issueEmailVerification moment user raw (s.view committed) stage).Makes
        (.issuingEmailVerification user raw) s s' :=
      (takes_iff_makes (hsend.trans (congrArg _ hs))).mp htakes
    obtain ⟨next, hnext, hentries⟩ := issue_entries hmakes
    exact ⟨by simp [hnext, Stage.judgedAt], fun hentry => h.entries (hentries hentry)⟩
  | issuingPasswordReset user raw stage =>
    have hmakes : (secrets.issuePasswordReset moment user raw (s.view committed) stage).Makes
        (.issuingPasswordReset user raw) s s' :=
      (takes_iff_makes (hsend.trans (congrArg _ hs))).mp htakes
    obtain ⟨next, hnext, hentries⟩ := issue_entries hmakes
    exact ⟨by simp [hnext, Stage.judgedAt], fun hentry => h.entries (hentries hentry)⟩
  | verifyingEmail token stage =>
    have hmakes : (secrets.verifyEmail moment token (s.view committed) stage).Makes (.verifyingEmail token) s s' :=
      (takes_iff_makes (hsend.trans (congrArg _ hs))).mp htakes
    obtain ⟨next, hnext, hredeems⟩ := redeems_of_makes hmakes
    rw [hs] at hstage
    obtain ⟨hstage', hentries⟩ := hredeems.judgedSince hnow hstage h.entries
    exact ⟨by rw [hnext]; exact hstage', hentries⟩
  | resettingPassword token newPassword stage =>
    have hmakes : (secrets.resetPassword moment token newPassword (s.view committed) stage).Makes
        (.resettingPassword token newPassword) s s' :=
      (takes_iff_makes (hsend.trans (congrArg _ hs))).mp htakes
    obtain ⟨next, hnext, hredeems⟩ := redeems_of_makes hmakes
    rw [hs] at hstage
    obtain ⟨hstage', hentries⟩ := hredeems.judgedSince hnow hstage h.entries
    exact ⟨by rw [hnext]; exact hstage', hentries⟩

theorem begin_judgedSince {request : Request} {stage : Stage} (instant : Instant)
    (h : secrets.mailing.start request = some stage) : JudgedSince instant (.begin stage) := by
  have hstage : stage.judgedAt = none := by
    cases request with
    | issueEmailVerification user raw =>
      obtain ⟨-, hstage⟩ := Option.ite_none_right_eq_some.mp h
      obtain rfl := Option.some.inj hstage
      rfl
    | issuePasswordReset user raw =>
      obtain ⟨-, hstage⟩ := Option.ite_none_right_eq_some.mp h
      obtain rfl := Option.some.inj hstage
      rfl
    | verifyEmail token =>
      obtain rfl := Option.some.inj h
      rfl
    | resetPassword token newPassword =>
      obtain rfl := Option.some.inj h
      rfl
  refine ⟨fun judgedAt hjudged => ?_, fun hentry => nomatch hentry⟩
  rw [show (Session.begin stage : Session Row Stage Entry).stage.judgedAt = none from hstage] at hjudged
  cases hjudged

theorem expiresOnTime (secrets : Secrets) (accounts : Uuid → Option Account) (run : List (Turn Request Moment)) :
    secrets.ExpiresOnTime accounts run := by
  intro before after instant hrun hclock i s link user user' raw judgedAt expiresAt hi hat hissued hexpired hentry
  have hsatisfies : (secrets.reached accounts run).Satisfies secrets.Ledger secrets.Sound :=
    reached_satisfies accounts run
  obtain ⟨token, htoken, hinTime⟩ := inTime_of_entry (hsatisfies.sessions hat) hentry
  obtain ⟨token', htoken', -, rfl⟩ := hsatisfies.committed.issued hissued
  obtain rfl := Option.some.inj (htoken.symm.trans htoken')
  have hlate : JudgedSince instant s := by
    rw [hrun, Secrets.reached, final_append] at hat
    exact run_late (begin_judgedSince instant) (fun hmem hs htakes => takes_judgedSince (hclock hmem) hs htakes)
      (fun hat hi => absurd hat (not_at_of_le hi)) hat hi
  exact Nat.lt_irrefl _ (Nat.lt_of_lt_of_le hinTime (Nat.le_trans hexpired (hlate.entries hentry)))

/-- However the calls interleave and whichever of them are aborted, a link gets through once at most, not after it has
expired, and not after a reset has committed that began when it was there. -/
theorem links_singleUse (secrets : Secrets) (accounts : Uuid → Option Account) (run : List (Turn Request Moment)) :
    secrets.SingleUse (secrets.reached accounts run) ∧ secrets.ExpiresOnTime accounts run ∧
      secrets.DiesWithReset accounts run :=
  ⟨singleUse_of_satisfies (reached_satisfies accounts run), expiresOnTime secrets accounts run,
    diesWithReset secrets accounts run⟩

def someSecrets : Secrets := ⟨fun raw => "#" ++ raw, fun password => "!" ++ password, ["a", "b"]⟩

def someAccounts (pk : Uuid) : Option Account :=
  if pk = 7 then some ⟨⟨7, "learner@example.test", .student, false⟩, "!old", true, true⟩ else none

def clock (now : Instant) : Moment := ⟨now, false, fun _ => 0⟩

def twoLinks : List (Turn Request Moment) :=
  .begin (.issuePasswordReset 7 "a") :: List.replicate 4 (.step 0 (clock 1000)) ++
    .begin (.issuePasswordReset 7 "b") :: List.replicate 4 (.step 1 (clock 2000))

/-- Both links are redeemed at once. Each call consumes its own, one writes the account, and the other waits for it while
its own row is what the sweep waits for: the database breaks the deadlock by aborting it. -/
def race : List (Turn Request Moment) :=
  .begin (.resetPassword "b" "mine") ::
    [.step 2 (clock 3000), .step 3 (clock 3000), .step 2 (clock 3000), .step 3 (clock 3000), .step 2 (clock 3000),
      .step 3 (clock 3000), .step 2 (clock 3000), .step 3 (clock 3000), .step 2 (clock 3000), .step 3 (clock 3000),
      .step 2 (clock 4000), .step 2 (clock 4000), .step 3 ⟨4000, true, fun _ => 0⟩, .step 2 (clock 4000),
      .step 2 (clock 4000), .step 2 (clock 4000)]

def afterReset : List (Turn Request Moment) :=
  twoLinks ++ .begin (.resetPassword "a" "new") :: race ++ [.step 2 (clock 4000)]

theorem someReset : someSecrets.Resets someAccounts 7 twoLinks afterReset := by
  have hlength : (someSecrets.reached someAccounts twoLinks).sessions.length = 2 := by decide +kernel
  obtain ⟨s, hs⟩ : ∃ s, (someSecrets.reached someAccounts
      (twoLinks ++ .begin (.resetPassword "a" "new") :: race)).sessions[2]?.join = some s :=
    Option.isSome_iff_exists.mp (by decide +kernel)
  have hleaving : s.stage = .resettingPassword "a" "new" .leaving ∧
      .redeemed .passwordReset 7 "a" 3000 ∈ s.entries := by
    have hall : ∀ s ∈ (someSecrets.reached someAccounts
        (twoLinks ++ .begin (.resetPassword "a" "new") :: race)).sessions[2]?.join,
        s.stage = .resettingPassword "a" "new" .leaving ∧ .redeemed .passwordReset 7 "a" 3000 ∈ s.entries := by
      decide +kernel
    exact hall s hs
  rw [afterReset, ← hlength]
  refine .commits rfl ?_ ?_ hleaving.2
  · rw [hlength]
    exact Option.join_eq_some_iff.mp hs
  · rw [hleaving.1]
    rfl

/-- The call that lost tries its link again. -/
theorem other_link_is_dead :
    someSecrets.SingleUse (someSecrets.reached someAccounts afterReset) ∧
      (∃ later, (someSecrets.reached someAccounts
          (afterReset ++ .begin (.resetPassword "b" "mine") :: List.replicate 3 (.step 4 (clock 5000)))).log =
        (someSecrets.reached someAccounts afterReset).log ++ later ∧
          ∀ entry ∈ later, entry.redeems .passwordReset "b" = false) ∧
      (accountAt (someSecrets.reached someAccounts afterReset).committed 7).map (·.password) = some "!new" ∧
      (someSecrets.reached someAccounts afterReset).Quiet :=
  ⟨(links_singleUse someSecrets someAccounts afterReset).1,
    (links_singleUse someSecrets someAccounts afterReset).2.2 someReset
      (show .issued .passwordReset 7 "b" (2000 + PASSWORD_RESET_TOKEN_LIFETIME) ∈
        (someSecrets.reached someAccounts twoLinks).log by decide +kernel) _,
    by decide +kernel⟩

end EPlatform.Accounts.Tokens
