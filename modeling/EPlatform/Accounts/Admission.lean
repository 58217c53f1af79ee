import EPlatform.Accounts.InFlight

/-!
# An admission is spent once

The law of the invitations, of the accounts they admit and of the trail, in every committed state of every interleaving.
-/

namespace EPlatform.Accounts

open Runs ReadCommitted

/-- What holds of the rows. -/
structure Lawful (casing : Casing) (committed : Store Row) : Prop where
  complete : ∀ {address invitation}, committed (.invitation address) = some invitation →
    (invitation.consumedAt = none ↔ invitation.consumedBy = none)
  apart : ∀ {address invitation}, committed (.invitation address) = some invitation →
    invitation.consumedAt = none ∨ invitation.revokedAt = none
  one : ∀ {address address' invitation invitation'}, committed (.invitation address) = some invitation →
    committed (.invitation address') = some invitation' →
    casing.lower invitation.email = casing.lower invitation'.email → address = address'
  accounted : ∀ {address invitation pk}, committed (.invitation address) = some invitation →
    invitation.consumedBy = some pk →
    ∃ account, committed (.user pk) = some account ∧ account.IsOf casing (casing.lower invitation.email)
  once : ∀ {address address' invitation invitation' pk}, committed (.invitation address) = some invitation →
    committed (.invitation address') = some invitation' → invitation.consumedBy = some pk →
    invitation'.consumedBy = some pk → address = address'
  alone : ∀ {pk pk' account account'}, committed (.user pk) = some account → committed (.user pk') = some account' →
    casing.lower account.email = casing.lower account'.email → pk = pk'

/-- What a step leaves alone, and that accounts and consumptions come together. -/
structure Keeps (casing : Casing) (committed committed' : Store Row) : Prop where
  spent : ∀ {address invitation}, committed (.invitation address) = some invitation → invitation.consumedAt ≠ none →
    committed' (.invitation address) = some invitation
  created : ∀ {pk account}, committed (.user pk) = none → committed' (.user pk) = some account →
    ∃ address existing invitation, committed (.invitation address) = some existing ∧ existing.consumedAt = none ∧
      committed' (.invitation address) = some invitation ∧ invitation.consumedBy = some pk ∧
      account.IsOf casing address
  consumed : ∀ {address invitation}, committed' (.invitation address) = some invitation →
    invitation.consumedAt ≠ none → committed (.invitation address) = some invitation ∨
      ∃ pk account, invitation.consumedBy = some pk ∧ committed (.user pk) = none ∧
        committed' (.user pk) = some account ∧ account.IsOf casing address

/-- A commit has the effect of its call, entries included. Nothing else changes the rows or the trail. -/
inductive Advances (beta : Beta) (w : Server Row Stage AuditLog) : Turn Request Moment → Server Row Stage AuditLog → Prop
  | performs {i : Nat} {moment : Moment} {s : Session Row Stage AuditLog} {writes : Store Row} {entries : List AuditLog}
    {w' : Server Row Stage AuditLog} (hat : w.At i s)
    (hcommit : beta.admission.statement moment s.stage (s.view w.committed) = .commit)
    (heffect : beta.Effect w.committed s.stage.request writes entries)
    (hcommitted : w'.committed = overlay writes w.committed) (hlog : w'.log = w.log ++ entries) :
    Advances beta w (.step i moment) w'
  | stays {turn : Turn Request Moment} {w' : Server Row Stage AuditLog}
    (hpending : ∀ i moment s, turn = .step i moment → w.At i s →
      beta.admission.statement moment s.stage (s.view w.committed) ≠ .commit)
    (hcommitted : w'.committed = w.committed) (hlog : w'.log = w.log) : Advances beta w turn w'

structure Accountable (beta : Beta) (w : Server Row Stage AuditLog) : Prop where
  rows : Lawful beta.casing w.committed
  advances : ∀ turn, Advances beta w turn (beta.admission.step w turn)
  keeps : ∀ turn, Keeps beta.casing w.committed (beta.admission.step w turn).committed
  refuses : ∀ {i s failure moment}, w.At i s → s.stage.failure = some failure →
    beta.admission.step w (.step i moment) = w.rollback i
  turnsAway : ∀ {request failure}, request.start = .error failure → beta.admission.step w (.begin request) = w

variable {beta : Beta} {committed : Store Row} {log : List AuditLog} {request : Request} {writes : Store Row}
  {entries : List AuditLog} {w : Server Row Stage AuditLog}

theorem Coherent.lawful (hlower : beta.casing.dbLower = beta.casing.lower) (h : Coherent beta.casing committed) :
    Lawful beta.casing committed := by
  have hindexed : ∀ {address invitation}, committed (.invitation address) = some invitation →
      beta.casing.lower invitation.email = address := by
    intro address invitation hfound
    rw [← hlower]
    exact h.indexed hfound
  constructor
  · exact h.complete
  · exact h.apart
  · intro address address' invitation invitation' hfound hfound' hsame
    rw [← hindexed hfound, hsame, hindexed hfound']
  · intro address invitation pk hfound hby
    rw [hindexed hfound]
    exact h.accounted hfound hby
  · intro address address' invitation invitation' pk hfound hfound' hby hby'
    obtain ⟨account, haccount, hof⟩ := h.accounted hfound hby
    obtain ⟨account', haccount', hof'⟩ := h.accounted hfound' hby'
    obtain rfl := Option.some.inj (haccount.symm.trans haccount')
    rw [← hof.matched, hof'.matched]
  · intro pk pk' account account' hfound hfound' hsame
    have hplace := (h.keyed hfound).2
    have hplace' := (h.keyed hfound').2
    rw [hlower] at hplace hplace'
    rw [hsame, hplace'] at hplace
    exact (Option.some.inj hplace).symm

theorem keeps_refl (casing : Casing) (committed : Store Row) : Keeps casing committed committed where
  spent hfound _ := hfound
  created hnone hsome := by
    rw [hnone] at hsome
    cases hsome
  consumed hfound _ := .inl hfound

/-- Putting an open invitation where none was consumed. -/
theorem keeps_put {address : String} {invitation : BetaInvitation} (hopen : invitation.consumedAt = none)
    (hbefore : ∀ existing, committed (.invitation address) = some existing → existing.consumedAt = none) :
    Keeps beta.casing committed (overlay (only (.invitation address) invitation) committed) := by
  constructor
  · intro address' row hfound hspent
    rw [overlay_only_of_ne, hfound]
    intro hsame
    obtain rfl := Key.invitation.inj hsame
    exact hspent (hbefore row hfound)
  · intro pk account hnone hsome
    rw [overlay_only_of_ne (by simp), hnone] at hsome
    cases hsome
  · intro address' row hfound hspent
    by_cases hsame : address' = address
    · subst hsame
      rw [overlay_only_self] at hfound
      obtain rfl := Option.some.inj hfound
      exact absurd hopen hspent
    · rw [overlay_only_of_ne (by simpa using hsame)] at hfound
      exact .inl hfound

theorem Beta.Effect.keeps (h : beta.Effect committed request writes entries) :
    Keeps beta.casing committed (overlay writes committed) := by
  cases h with
  | issued hfree _ _ hconsumed =>
    refine keeps_put hconsumed.1 fun existing hexisting => ?_
    rw [hfree] at hexisting
    cases hexisting
  | reopened hexisting hunspent =>
    refine keeps_put hunspent fun existing hfound => ?_
    rw [← Option.some.inj (hexisting.symm.trans hfound), hunspent]
  | revoked hexisting hunspent =>
    refine keeps_put hunspent fun existing hfound => ?_
    rw [← Option.some.inj (hexisting.symm.trans hfound), hunspent]
  | alreadyRevoked =>
    rw [overlay_empty]
    exact keeps_refl ..
  | @admitted email password pk existing now now' entry hpk hfree hexisting husable =>
    constructor
    · intro address invitation hfound hspent
      rw [admits_invitation, hfound]
      rintro rfl
      obtain rfl := Option.some.inj (hexisting.symm.trans hfound)
      exact hspent husable.1
    · intro pk' account hnone hsome
      by_cases hsame : pk' = pk
      · subst hsame
        rw [admits_user_self] at hsome
        obtain rfl := Option.some.inj hsome
        exact ⟨_, existing, existing.consume pk' now, hexisting, husable.1, admits_invitation_self, rfl, account_isOf⟩
      · rw [admits_user hsame, hnone] at hsome
        cases hsome
    · intro address invitation hfound hspent
      by_cases hsame : address = beta.sought (beta.casing.storedEmail email)
      · subst hsame
        rw [admits_invitation_self] at hfound
        obtain rfl := Option.some.inj hfound
        exact .inr ⟨pk, _, rfl, hpk, admits_user_self, account_isOf⟩
      · rw [admits_invitation hsame] at hfound
        exact .inl hfound

theorem advances (h : w.Satisfies (fun committed _ => Coherent beta.casing committed) (Sound beta))
    (turn : Turn Request Moment) : Advances beta w turn (beta.admission.step w turn) := by
  by_cases hpending : ∃ i moment s, turn = .step i moment ∧ w.At i s ∧
      beta.admission.statement moment s.stage (s.view w.committed) = .commit
  · obtain ⟨i, moment, s, rfl, hat, hcommit⟩ := hpending
    rw [step_commit hat hcommit]
    exact .performs hat hcommit (done_of_commit (h.sessions hat) hcommit).effect rfl rfl
  · have hnone : ∀ i moment s, turn = .step i moment → w.At i s →
        beta.admission.statement moment s.stage (s.view w.committed) ≠ .commit :=
      fun i moment s hturn hat hcommit => hpending ⟨i, moment, s, hturn, hat, hcommit⟩
    obtain ⟨hcommitted, hlog⟩ := step_of_not_commit hnone
    exact .stays hnone hcommitted hlog

theorem Advances.keeps {turn : Turn Request Moment} {w' : Server Row Stage AuditLog} (h : Advances beta w turn w') :
    Keeps beta.casing w.committed w'.committed := by
  cases h with
  | performs _ _ heffect hcommitted =>
    rw [hcommitted]
    exact heffect.keeps
  | stays _ hcommitted =>
    rw [hcommitted]
    exact keeps_refl ..

theorem statement_of_failure {stage : Stage} {failure : Failure} (h : stage.failure = some failure) (moment : Moment)
    (view : Store Row) : beta.admission.statement moment stage view = .rollback := by
  cases stage with
  | issuing actor order stage =>
    cases stage
    case failing => rfl
    all_goals cases h
  | revoking actor order stage =>
    cases stage
    case failing => rfl
    all_goals cases h
  | registering email password stage =>
    cases stage
    case failing => rfl
    all_goals cases h

/-- However calls that issue, revoke and register interleave, every committed state is lawful, and every step from it
leaves what is spent alone and records what it did. -/
theorem admission_accountable (hlower : beta.casing.dbLower = beta.casing.lower)
    (hcoherent : Coherent beta.casing committed) (run : List (Turn Request Moment)) :
    Accountable beta (final beta.admission.step (Server.idle committed log) run) := by
  have hidle : (Server.idle committed log).Satisfies (fun committed _ => Coherent beta.casing committed) (Sound beta) :=
    satisfies_idle hcoherent
  have hsatisfies := (admission_maintains hlower).run hidle run
  constructor
  · exact hsatisfies.committed.lawful hlower
  · exact advances hsatisfies
  · exact fun turn => (advances hsatisfies turn).keeps
  · exact fun hat hfailure => step_rollback hat (statement_of_failure hfailure ..)
  · intro request failure hfailure
    simp [Program.step, Beta.admission, hfailure, Except.toOption]

theorem coherent_empty (casing : Casing) : Coherent casing fun _ => none := by
  constructor <;> intros <;> contradiction

def someBeta : Beta := ⟨asciiCasing, id, fun _ => ""⟩

def administrator : Account where
  pk := 1
  email := "admin@example.test"
  role := .admin
  isSuperuser := false
  password := ""
  isEmailVerified := true
  isActive := true

def invite : Order := ⟨some administrator, " Learner@example.test", "First cohort.", none⟩

/-- An invitation, and two calls that register its address at once. The second waits for the index, and is turned away. -/
def twoRegistrations : List (Turn Request Moment) :=
  .begin (.issue invite) :: List.replicate 4 (.step 0 ⟨2, 1000⟩) ++
    [.begin (.register "learner@example.test" "correct horse"), .begin (.register "Learner@Example.test" "horse"),
      .step 1 ⟨3, 2000⟩, .step 2 ⟨4, 2000⟩, .step 1 ⟨3, 2000⟩, .step 2 ⟨4, 2000⟩] ++
    List.replicate 4 (.step 1 ⟨3, 2000⟩) ++ List.replicate 2 (.step 2 ⟨4, 3000⟩)

def afterTwoRegistrations : Server Row Stage AuditLog :=
  final someBeta.admission.step (Server.idle (fun _ => none) []) twoRegistrations

theorem one_of_two_is_admitted :
    Accountable someBeta afterTwoRegistrations ∧
      (invitationAt afterTwoRegistrations.committed "learner@example.test").map (·.consumedBy) = some (some 3) ∧
      (afterTwoRegistrations.committed (.user 4)).isNone ∧ afterTwoRegistrations.log.length = 2 ∧
      afterTwoRegistrations.Quiet :=
  ⟨admission_accountable rfl (coherent_empty _) _, by decide +kernel⟩

end EPlatform.Accounts
