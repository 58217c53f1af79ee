import EPlatform.Runs.Run
import Mathlib.Logic.Function.Basic

/-!
# Transactions at statement granularity

Any number of transactions in flight over one committed store, as PostgreSQL runs them under READ COMMITTED. A statement
reads what is committed when it runs, with the transaction's own writes on top. An update, an insert and a
`select for update` take the lock of their row and wait while another transaction holds it, and locks last until the
transaction ends. A key stands for a row and for its place in the unique index, so an insert waits for whoever has
inserted the same key and not committed yet.
-/

namespace Runs.ReadCommitted

variable {κ : Type*} (ν : κ → Type*) (ρ ε φ α : Type*)

abbrev Store := (k : κ) → Option (ν k)

/-- A transaction in flight: where its program stands, its uncommitted writes, the rows it has locked, and the log
entries it has inserted. -/
structure Session where
  stage : φ
  writes : Store ν
  holds : List κ
  entries : List α

structure Server where
  committed : Store ν
  log : List α
  sessions : List (Option (Session ν φ α))

/-- The next statement of a transaction, and where the program goes on after it. -/
inductive Statement
  | select (next : φ)
  | lock (k : κ) (next : φ)
  | write (k : κ) (v : ν k) (next : φ)
  | append (entry : α) (next : φ)
  | commit
  | rollback

/-- The same statement in a program that embeds this one. -/
def Statement.map {ν : κ → Type*} {α φ φ' : Type*} (f : φ → φ') : Statement ν φ α → Statement ν φ' α
  | .select next => .select (f next)
  | .lock k next => .lock k (f next)
  | .write k v next => .write k v (f next)
  | .append entry next => .append entry (f next)
  | .commit => .commit
  | .rollback => .rollback

theorem map_eq_commit {ν : κ → Type*} {α φ φ' : Type*} {f : φ → φ'} {statement : Statement ν φ α} :
    statement.map f = .commit ↔ statement = .commit := by
  cases statement <;> simp [Statement.map]

/-- `statement` may depend on the environment of the moment and on what the transaction sees. -/
structure Program where
  start : ρ → Option φ
  statement : ε → φ → Store ν → Statement ν φ α

inductive Turn
  | begin (request : ρ)
  | step (i : Nat) (env : ε)

variable {ν ρ ε φ α}

/-- What a transaction sees. -/
def Session.view (s : Session ν φ α) (committed : Store ν) : Store ν := fun k => (s.writes k).or (committed k)

/-- What a commit leaves: the transaction's writes, and elsewhere what was committed. -/
def overlay (writes committed : Store ν) : Store ν := fun k => (writes k).or (committed k)

@[simp] theorem overlay_empty (committed : Store ν) : overlay (fun _ => none) committed = committed := by
  funext k
  rw [overlay, Option.none_or]

def Session.begin (stage : φ) : Session ν φ α := ⟨stage, fun _ => none, [], []⟩

def Server.idle (committed : Store ν) (log : List α) : Server ν φ α := ⟨committed, log, []⟩

/-- The transaction `i` is in flight and stands at `s`. -/
def Server.At (w : Server ν φ α) (i : Nat) (s : Session ν φ α) : Prop := w.sessions[i]? = some (some s)

/-- No transaction is in flight. -/
def Server.Quiet (w : Server ν φ α) : Prop := ∀ slot ∈ w.sessions, slot.isNone

instance (w : Server ν φ α) : Decidable w.Quiet := inferInstanceAs (Decidable (∀ slot ∈ w.sessions, slot.isNone))

/-- No other transaction holds the row. -/
def Server.Free (w : Server ν φ α) (i : Nat) (k : κ) : Prop := ∀ slot ∈ w.sessions.set i none, ∀ s ∈ slot, k ∉ s.holds

def Server.put (w : Server ν φ α) (i : Nat) (s : Session ν φ α) : Server ν φ α :=
  { w with sessions := w.sessions.set i (some s) }

def Server.commit (w : Server ν φ α) (i : Nat) (s : Session ν φ α) : Server ν φ α :=
  { committed := s.view w.committed, log := w.log ++ s.entries, sessions := w.sessions.set i none }

def Server.rollback (w : Server ν φ α) (i : Nat) : Server ν φ α := { w with sessions := w.sessions.set i none }

variable [DecidableEq κ]

/-- The writes of a transaction that has written one row. -/
def only (k : κ) (v : ν k) : Store ν := Function.update (fun _ => none) k (some v)

@[simp] theorem overlay_update_self (writes committed : Store ν) (k : κ) (v : ν k) :
    overlay (Function.update writes k (some v)) committed k = some v := by
  simp [overlay]

theorem overlay_update_of_ne {writes committed : Store ν} {k k' : κ} (h : k' ≠ k) {v : Option (ν k)} :
    overlay (Function.update writes k v) committed k' = overlay writes committed k' := by
  simp [overlay, h]

@[simp] theorem overlay_only_self (committed : Store ν) (k : κ) (v : ν k) : overlay (only k v) committed k = some v :=
  overlay_update_self ..

theorem overlay_only_of_ne {committed : Store ν} {k k' : κ} (h : k' ≠ k) {v : ν k} :
    overlay (only k v) committed k' = committed k' := by
  rw [only, overlay_update_of_ne h, overlay_empty]

instance (w : Server ν φ α) (i : Nat) (k : κ) : Decidable (w.Free i k) :=
  inferInstanceAs (Decidable (∀ slot ∈ w.sessions.set i none, ∀ s ∈ slot, k ∉ Session.holds s))

def Session.write (s : Session ν φ α) (k : κ) (v : ν k) (next : φ) : Session ν φ α :=
  { s with stage := next, writes := Function.update s.writes k (some v), holds := k :: s.holds }

@[simp] theorem writes_write_self (s : Session ν φ α) (k : κ) (v : ν k) (next : φ) :
    (s.write k v next).writes k = some v := by
  simp [Session.write]

theorem writes_write_of_ne {s : Session ν φ α} {k k' : κ} (h : k' ≠ k) {v : ν k} {next : φ} :
    (s.write k v next).writes k' = s.writes k' := by
  simp [Session.write, h]

@[simp] theorem view_write_self (s : Session ν φ α) (committed : Store ν) (k : κ) (v : ν k) (next : φ) :
    (s.write k v next).view committed k = some v := by
  simp [Session.view]

theorem view_write_of_ne {s : Session ν φ α} {committed : Store ν} {k k' : κ} (h : k' ≠ k) {v : ν k} {next : φ} :
    (s.write k v next).view committed k' = s.view committed k' := by
  rw [Session.view, writes_write_of_ne h, Session.view]

namespace Program

variable (p : Program ν ρ ε φ α)

def execute (env : ε) (w : Server ν φ α) (i : Nat) (s : Session ν φ α) : Server ν φ α :=
  match p.statement env s.stage (s.view w.committed) with
  | .select next => w.put i { s with stage := next }
  | .lock k next => if w.Free i k then w.put i { s with stage := next, holds := k :: s.holds } else w
  | .write k v next => if w.Free i k then w.put i (s.write k v next) else w
  | .append entry next => w.put i { s with stage := next, entries := s.entries ++ [entry] }
  | .commit => w.commit i s
  | .rollback => w.rollback i

def step (w : Server ν φ α) : Turn ρ ε → Server ν φ α
  | .begin request =>
    match p.start request with
    | none => w
    | some stage => { w with sessions := w.sessions ++ [some (.begin stage)] }
  | .step i env =>
    match w.sessions[i]? with
    | some (some s) => p.execute env w i s
    | _ => w

/-! ### What a step can do -/

/-- A statement that does not end the transaction, and the transaction after it. -/
def Takes (env : ε) (committed : Store ν) (s s' : Session ν φ α) : Prop :=
  match p.statement env s.stage (s.view committed) with
  | .select next => s' = { s with stage := next }
  | .lock k next => s' = { s with stage := next, holds := k :: s.holds }
  | .write k v next => s' = s.write k v next
  | .append entry next => s' = { s with stage := next, entries := s.entries ++ [entry] }
  | .commit => False
  | .rollback => False

/-- A step lets a transaction wait, begins one, or has one take a statement, commit or roll back. -/
inductive Step (w : Server ν φ α) : Turn ρ ε → Server ν φ α → Prop
  | wait (turn : Turn ρ ε) : Step w turn w
  | begin {request : ρ} {stage : φ} (h : p.start request = some stage) :
    Step w (.begin request) { w with sessions := w.sessions ++ [some (.begin stage)] }
  | take {i : Nat} {env : ε} {s s' : Session ν φ α} (hat : w.At i s) (htakes : p.Takes env w.committed s s')
    (hfree : ∀ k ∈ s'.holds, k ∈ s.holds ∨ w.Free i k) : Step w (.step i env) (w.put i s')
  | commit {i : Nat} {env : ε} {s : Session ν φ α} (hat : w.At i s)
    (h : p.statement env s.stage (s.view w.committed) = .commit) : Step w (.step i env) (w.commit i s)
  | rollback {i : Nat} {env : ε} {s : Session ν φ α} (hat : w.At i s)
    (h : p.statement env s.stage (s.view w.committed) = .rollback) : Step w (.step i env) (w.rollback i)

variable {p}

/-- What a statement that waits for one more key ends up holding. -/
theorem held_of_free {κ : Type*} {holds : List κ} {Free : κ → Prop} {k : κ} (hfree : Free k) :
    ∀ k' ∈ k :: holds, k' ∈ holds ∨ Free k' := by
  intro k' hk'
  rcases List.mem_cons.mp hk' with rfl | hk'
  · exact .inr hfree
  · exact .inl hk'


theorem step_spec (w : Server ν φ α) (turn : Turn ρ ε) : p.Step w turn (p.step w turn) := by
  cases turn with
  | begin request =>
    cases hstart : p.start request with
    | none => simpa only [step, hstart] using Step.wait (.begin request)
    | some stage => simpa only [step, hstart] using Step.begin hstart
  | step i env =>
    cases hslot : w.sessions[i]? with
    | none => simpa only [step, hslot] using Step.wait (.step i env)
    | some slot =>
      cases slot with
      | none => simpa only [step, hslot] using Step.wait (.step i env)
      | some s =>
        simp only [step, hslot, execute]
        cases hstatement : p.statement env s.stage (s.view w.committed) with
        | select next => exact .take hslot (by rw [Takes, hstatement]) fun k hk => .inl hk
        | lock k next =>
          dsimp only
          split
          · rename_i hfree
            exact .take hslot (by rw [Takes, hstatement]) (held_of_free hfree)
          · exact .wait _
        | write k v next =>
          dsimp only
          split
          · rename_i hfree
            exact .take hslot (by rw [Takes, hstatement]) (held_of_free hfree)
          · exact .wait _
        | append entry next => exact .take hslot (by rw [Takes, hstatement]) fun k hk => .inl hk
        | commit => exact .commit hslot hstatement
        | rollback => exact .rollback hslot hstatement

end Program

/-- What a statement of an embedded program makes of a transaction it does not end. -/
def Statement.Makes {φ' : Type*} (statement : Statement ν φ' α) (f : φ' → φ) (s s' : Session ν φ α) : Prop :=
  match statement with
  | .select next => s' = { s with stage := f next }
  | .lock k next => s' = { s with stage := f next, holds := k :: s.holds }
  | .write k v next => s' = s.write k v (f next)
  | .append entry next => s' = { s with stage := f next, entries := s.entries ++ [entry] }
  | .commit => False
  | .rollback => False

theorem takes_iff_makes {p : Program ν ρ ε φ α} {env : ε} {committed : Store ν} {s s' : Session ν φ α} {φ' : Type*}
    {statement : Statement ν φ' α} {f : φ' → φ}
    (h : p.statement env s.stage (s.view committed) = statement.map f) :
    p.Takes env committed s s' ↔ statement.Makes f s s' := by
  rw [Program.Takes, h]
  cases statement <;> exact Iff.rfl

theorem step_select {w : Server ν φ α} {i : Nat} {env : ε} {s : Session ν φ α} {next : φ} {p : Program ν ρ ε φ α}
    (hat : w.At i s) (h : p.statement env s.stage (s.view w.committed) = .select next) :
    p.step w (.step i env) = w.put i { s with stage := next } := by
  rw [Server.At] at hat
  simp only [Program.step, hat, Program.execute, h]

theorem step_commit {w : Server ν φ α} {i : Nat} {env : ε} {s : Session ν φ α} {p : Program ν ρ ε φ α}
    (hat : w.At i s) (h : p.statement env s.stage (s.view w.committed) = .commit) :
    p.step w (.step i env) = w.commit i s := by
  rw [Server.At] at hat
  simp only [Program.step, hat, Program.execute, h]

theorem step_rollback {w : Server ν φ α} {i : Nat} {env : ε} {s : Session ν φ α} {p : Program ν ρ ε φ α}
    (hat : w.At i s) (h : p.statement env s.stage (s.view w.committed) = .rollback) :
    p.step w (.step i env) = w.rollback i := by
  rw [Server.At] at hat
  simp only [Program.step, hat, Program.execute, h]

/-- Nothing is committed but by a commit. -/
theorem step_of_not_commit {w : Server ν φ α} {turn : Turn ρ ε} {p : Program ν ρ ε φ α}
    (h : ∀ i env s, turn = .step i env → w.At i s → p.statement env s.stage (s.view w.committed) ≠ .commit) :
    (p.step w turn).committed = w.committed ∧ (p.step w turn).log = w.log := by
  have hstep := p.step_spec w turn
  generalize p.step w turn = w' at hstep
  cases hstep with
  | wait => exact ⟨rfl, rfl⟩
  | begin => exact ⟨rfl, rfl⟩
  | take => exact ⟨rfl, rfl⟩
  | commit hat hcommit => exact absurd hcommit (h _ _ _ rfl hat)
  | rollback => exact ⟨rfl, rfl⟩

/-! ### Who is in flight after a step -/

section Flights

variable {w : Server ν φ α} {i j : Nat} {k : κ} {stage : φ} {s s' t : Session ν φ α}

omit [DecidableEq κ]

theorem not_at_of_le (h : w.sessions.length ≤ i) : ¬ w.At i s :=
  fun hat => absurd (List.getElem?_eq_some_iff.mp hat).1 (Nat.not_lt.mpr h)

theorem at_put (hat : w.At i s) : (w.put i s').At j t ↔ (j = i ∧ t = s') ∨ (j ≠ i ∧ w.At j t) := by
  have hlt : i < w.sessions.length := (List.getElem?_eq_some_iff.mp hat).1
  unfold Server.At Server.put
  by_cases hji : j = i
  · subst hji
    simp [List.getElem?_set_self hlt, eq_comm]
  · simp [List.getElem?_set_ne (Ne.symm hji), hji]

theorem at_set_none : (w.sessions.set i none)[j]? = some (some t) ↔ j ≠ i ∧ w.At j t := by
  unfold Server.At
  by_cases hji : j = i
  · subst hji
    simp [List.getElem?_set]
  · simp [List.getElem?_set_ne (Ne.symm hji), hji]

theorem at_commit : (w.commit i s).At j t ↔ j ≠ i ∧ w.At j t := at_set_none

theorem at_rollback : (w.rollback i).At j t ↔ j ≠ i ∧ w.At j t := at_set_none

theorem at_begin : Server.At { w with sessions := w.sessions ++ [some (.begin stage)] } j t ↔
    w.At j t ∨ (j = w.sessions.length ∧ t = .begin stage) := by
  unfold Server.At
  rcases Nat.lt_trichotomy j w.sessions.length with hlt | heq | hgt
  · simp [List.getElem?_append_left hlt, Nat.ne_of_lt hlt]
  · subst heq
    simp [eq_comm]
  · have hnone : w.sessions[j]? = none := List.getElem?_eq_none (Nat.le_of_lt hgt)
    have hpast : ([some (Session.begin stage)] : List (Option (Session ν φ α)))[j - w.sessions.length]? = none :=
      List.getElem?_eq_none (Nat.sub_pos_of_lt hgt)
    simp [List.getElem?_append_right (Nat.le_of_lt hgt), hnone, hpast, Nat.ne_of_gt hgt]

theorem forall_others_iff {P : Session ν φ α → Prop} :
    (∀ slot ∈ w.sessions.set i none, ∀ t ∈ slot, P t) ↔ ∀ j t, j ≠ i → w.At j t → P t := by
  constructor
  · intro h j t hji hat
    exact h (some t) (List.mem_of_getElem? (at_set_none.mpr ⟨hji, hat⟩)) t rfl
  · intro h slot hslot t ht
    obtain ⟨j, hj⟩ := List.getElem?_of_mem hslot
    rw [Option.mem_def.mp ht] at hj
    obtain ⟨hji, hat⟩ := at_set_none.mp hj
    exact h j t hji hat

theorem free_iff : w.Free i k ↔ ∀ j t, j ≠ i → w.At j t → k ∉ t.holds := forall_others_iff

theorem quiet_iff : w.Quiet ↔ ∀ i s, ¬ w.At i s := by
  constructor
  · intro h i s hat
    simpa using h (some s) (List.mem_of_getElem? hat)
  · intro h slot hslot
    cases slot with
    | none => rfl
    | some s =>
      obtain ⟨i, hi⟩ := List.getElem?_of_mem hslot
      exact absurd hi (h i s)

end Flights

/-! ### Row locks keep transactions apart -/

/-- What a transaction has written it holds, and no row is held twice. -/
structure Server.Isolated (w : Server ν φ α) : Prop where
  written : ∀ {i s k}, w.At i s → s.writes k ≠ none → k ∈ s.holds
  apart : ∀ {i j s t k}, w.At i s → w.At j t → k ∈ s.holds → k ∈ t.holds → i = j

omit [DecidableEq κ] in
theorem isolated_idle (committed : Store ν) (log : List α) : (Server.idle committed log : Server ν φ α).Isolated where
  written hat := by simp [Server.idle, Server.At] at hat
  apart hat := by simp [Server.idle, Server.At] at hat

omit [DecidableEq κ] in
/-- Fewer transactions in flight are still kept apart. -/
theorem Server.Isolated.mono {w w' : Server ν φ α} (h : w.Isolated) (hat : ∀ {i s}, w'.At i s → w.At i s) :
    w'.Isolated where
  written hs := h.written (hat hs)
  apart hs ht := h.apart (hat hs) (hat ht)

theorem takes_written {p : Program ν ρ ε φ α} {env : ε} {committed : Store ν} {s s' : Session ν φ α}
    (h : p.Takes env committed s s') (hwritten : ∀ k, s.writes k ≠ none → k ∈ s.holds) :
    ∀ k, s'.writes k ≠ none → k ∈ s'.holds := by
  intro k hk
  unfold Program.Takes at h
  split at h
  · subst h
    exact hwritten k hk
  · subst h
    exact List.mem_cons_of_mem _ (hwritten k hk)
  · rename_i k' v next hstatement
    subst h
    by_cases hkey : k = k'
    · exact List.mem_cons.mpr (.inl hkey)
    · refine List.mem_cons_of_mem _ (hwritten k ?_)
      rwa [writes_write_of_ne hkey] at hk
  · subst h
    exact hwritten k hk
  · exact h.elim
  · exact h.elim

theorem step_isolated {p : Program ν ρ ε φ α} {w : Server ν φ α} (h : w.Isolated) (turn : Turn ρ ε) :
    (p.step w turn).Isolated := by
  have hstep := p.step_spec w turn
  generalize p.step w turn = w' at hstep
  cases hstep with
  | wait => exact h
  | begin hstart =>
    constructor
    · intro i s k hat hk
      rcases at_begin.mp hat with hat | ⟨-, rfl⟩
      · exact h.written hat hk
      · exact absurd rfl hk
    · intro i j s t k hs ht hks hkt
      rcases at_begin.mp hs with hs | ⟨-, rfl⟩
      · rcases at_begin.mp ht with ht | ⟨-, rfl⟩
        · exact h.apart hs ht hks hkt
        · simp [Session.begin] at hkt
      · simp [Session.begin] at hks
  | take hat htakes hfree =>
    constructor
    · intro j t k ht hk
      rcases (at_put hat).mp ht with ⟨-, rfl⟩ | ⟨-, ht⟩
      · exact takes_written htakes (fun k hk => h.written hat hk) k hk
      · exact h.written ht hk
    · intro i' j' s₁ s₂ k hs ht hks hkt
      rcases (at_put hat).mp hs with ⟨hi, hs₁⟩ | ⟨hne, hs₁⟩
      · rcases (at_put hat).mp ht with ⟨hj, -⟩ | ⟨hne', ht₁⟩
        · rw [hi, hj]
        · rcases hfree k (hs₁ ▸ hks) with hheld | hfree
          · rw [hi]
            exact h.apart hat ht₁ hheld hkt
          · exact absurd hkt (free_iff.mp hfree _ _ hne' ht₁)
      · rcases (at_put hat).mp ht with ⟨hj, ht₁⟩ | ⟨-, ht₁⟩
        · rcases hfree k (ht₁ ▸ hkt) with hheld | hfree
          · rw [hj]
            exact h.apart hs₁ hat hks hheld
          · exact absurd hks (free_iff.mp hfree _ _ hne hs₁)
        · exact h.apart hs₁ ht₁ hks hkt
  | commit hat => exact h.mono fun hs => (at_commit.mp hs).2
  | rollback hat => exact h.mono fun hs => (at_rollback.mp hs).2

/-! ### Assertions about the committed store and about each transaction -/

/-- `I` says what holds of the committed store and the log, `J` what a transaction in flight may rely on. A transaction
keeps its own assertion, its commit keeps `I`, and no other commit takes its assertion from it: that one changes no row
it holds. -/
structure Program.Maintains (p : Program ν ρ ε φ α) (I : Store ν → List α → Prop)
    (J : Store ν → Session ν φ α → Prop) : Prop where
  begins : ∀ {request stage committed log}, I committed log → p.start request = some stage →
    J committed (.begin stage)
  takes : ∀ {env committed log s s'}, I committed log → J committed s → p.Takes env committed s s' → J committed s'
  commits : ∀ {env committed log s}, I committed log → J committed s →
    p.statement env s.stage (s.view committed) = .commit → I (s.view committed) (log ++ s.entries)
  stable : ∀ {env committed log s t}, I committed log → J committed s → J committed t →
    p.statement env s.stage (s.view committed) = .commit → (∀ k, t.writes k ≠ none → k ∈ t.holds) →
    (∀ k ∈ t.holds, s.view committed k = committed k) → J (s.view committed) t

/-- The assertions hold of the server as it stands. -/
structure Server.Satisfies (w : Server ν φ α) (I : Store ν → List α → Prop) (J : Store ν → Session ν φ α → Prop) :
    Prop where
  isolated : w.Isolated
  committed : I w.committed w.log
  sessions : ∀ {i s}, w.At i s → J w.committed s

omit [DecidableEq κ] in
theorem satisfies_idle {I : Store ν → List α → Prop} {J : Store ν → Session ν φ α → Prop} {committed : Store ν}
    {log : List α} (h : I committed log) : (Server.idle committed log).Satisfies I J where
  isolated := isolated_idle committed log
  committed := h
  sessions hat := by simp [Server.idle, Server.At] at hat

omit [DecidableEq κ] in
/-- A commit changes no row that another transaction holds. -/
theorem view_eq_of_held {w : Server ν φ α} {i j : Nat} {s t : Session ν φ α} {k : κ} (h : w.Isolated) (hs : w.At i s)
    (ht : w.At j t) (hne : j ≠ i) (hk : k ∈ t.holds) : s.view w.committed k = w.committed k := by
  have hunwritten : s.writes k = none := by
    by_contra hwritten
    exact hne (h.apart ht hs hk (h.written hs hwritten))
  simp [Session.view, hunwritten]

theorem Program.Maintains.step {p : Program ν ρ ε φ α} {I : Store ν → List α → Prop}
    {J : Store ν → Session ν φ α → Prop} (hp : p.Maintains I J) {w : Server ν φ α} (h : w.Satisfies I J)
    (turn : Turn ρ ε) : (p.step w turn).Satisfies I J := by
  refine ⟨step_isolated h.isolated turn, ?_, ?_⟩
  · have hstep := p.step_spec w turn
    generalize p.step w turn = w' at hstep
    cases hstep with
    | wait => exact h.committed
    | begin => exact h.committed
    | take => exact h.committed
    | commit hat hcommit => exact hp.commits h.committed (h.sessions hat) hcommit
    | rollback => exact h.committed
  · intro j t
    have hstep := p.step_spec w turn
    generalize p.step w turn = w' at hstep
    intro ht
    cases hstep with
    | wait => exact h.sessions ht
    | begin hstart =>
      rcases at_begin.mp ht with ht | ⟨-, rfl⟩
      · exact h.sessions ht
      · exact hp.begins h.committed hstart
    | take hat htakes =>
      rcases (at_put hat).mp ht with ⟨-, rfl⟩ | ⟨-, ht⟩
      · exact hp.takes h.committed (h.sessions hat) htakes
      · exact h.sessions ht
    | commit hat hcommit =>
      obtain ⟨hne, ht⟩ := at_commit.mp ht
      exact hp.stable h.committed (h.sessions hat) (h.sessions ht) hcommit (fun k hk => h.isolated.written ht hk)
        fun k hk => view_eq_of_held h.isolated hat ht hne hk
    | rollback hat =>
      exact h.sessions (at_rollback.mp ht).2

theorem Program.Maintains.run {p : Program ν ρ ε φ α} {I : Store ν → List α → Prop}
    {J : Store ν → Session ν φ α → Prop} (hp : p.Maintains I J) {w : Server ν φ α} (h : w.Satisfies I J)
    (run : List (Turn ρ ε)) : (final p.step w run).Satisfies I J :=
  final_of_step (I := fun w : Server ν φ α => w.Satisfies I J) (fun _ turn hs => hp.step hs turn) h run

/-! ### What one transaction carries along, and what stays once it is committed -/

/-- What one transaction relies on beyond what they all do: it keeps `T` itself, and no other commit takes it from it. -/
structure Program.Carries (p : Program ν ρ ε φ α) (I : Store ν → List α → Prop)
    (J T : Store ν → Session ν φ α → Prop) : Prop where
  takes : ∀ {env committed log s s'}, I committed log → J committed s → T committed s →
    p.Takes env committed s s' → T committed s'
  stable : ∀ {env committed log s t}, I committed log → J committed s → J committed t → T committed t →
    p.statement env s.stage (s.view committed) = .commit → (∀ k, t.writes k ≠ none → k ∈ t.holds) →
    (∀ k ∈ t.holds, s.view committed k = committed k) → T (s.view committed) t

/-- The transaction `i` has begun, and `T` holds of it as long as it is in flight. -/
structure Server.Follows (w : Server ν φ α) (i : Nat) (T : Store ν → Session ν φ α → Prop) : Prop where
  begun : i < w.sessions.length
  carries : ∀ {s}, w.At i s → T w.committed s

omit [DecidableEq κ] in
theorem follows_begin {w : Server ν φ α} {stage : φ} {T : Store ν → Session ν φ α → Prop}
    (h : T w.committed (.begin stage)) :
    Server.Follows { w with sessions := w.sessions ++ [some (.begin stage)] } w.sessions.length T where
  begun := by simp
  carries hat := by
    rcases at_begin.mp hat with hat | ⟨-, rfl⟩
    · exact absurd hat (not_at_of_le le_rfl)
    · exact h

theorem Program.Carries.step {p : Program ν ρ ε φ α} {I : Store ν → List α → Prop}
    {J T : Store ν → Session ν φ α → Prop} (hT : p.Carries I J T) {w : Server ν φ α} (hw : w.Satisfies I J) {i : Nat}
    (h : w.Follows i T) (turn : Turn ρ ε) : (p.step w turn).Follows i T := by
  have hstep := p.step_spec w turn
  generalize p.step w turn = w' at hstep
  cases hstep with
  | wait => exact h
  | begin hstart =>
    refine ⟨Nat.lt_of_lt_of_le h.begun (by simp), fun hat => ?_⟩
    rcases at_begin.mp hat with hat | ⟨rfl, -⟩
    · exact h.carries hat
    · exact absurd h.begun (Nat.lt_irrefl _)
  | take hat htakes =>
    refine ⟨by simpa [Server.put] using h.begun, fun ht => ?_⟩
    rcases (at_put hat).mp ht with ⟨rfl, rfl⟩ | ⟨-, ht⟩
    · exact hT.takes hw.committed (hw.sessions hat) (h.carries hat) htakes
    · exact h.carries ht
  | commit hat hcommit =>
    refine ⟨by simpa [Server.commit] using h.begun, fun ht => ?_⟩
    obtain ⟨hne, ht⟩ := at_commit.mp ht
    exact hT.stable hw.committed (hw.sessions hat) (hw.sessions ht) (h.carries ht) hcommit
      (fun k hk => hw.isolated.written ht hk) fun k hk => view_eq_of_held hw.isolated hat ht hne hk
  | rollback hat =>
    exact ⟨by simpa [Server.rollback] using h.begun, fun ht => h.carries (at_rollback.mp ht).2⟩

theorem Program.Carries.run {p : Program ν ρ ε φ α} {I : Store ν → List α → Prop}
    {J T : Store ν → Session ν φ α → Prop} (hT : p.Carries I J T) (hp : p.Maintains I J) {w : Server ν φ α}
    (hw : w.Satisfies I J) {i : Nat} (h : w.Follows i T) (run : List (Turn ρ ε)) :
    (final p.step w run).Follows i T := by
  have hstep : ∀ (w : Server ν φ α) (turn : Turn ρ ε), w.Satisfies I J ∧ w.Follows i T →
      (p.step w turn).Satisfies I J ∧ (p.step w turn).Follows i T :=
    fun _ turn h => ⟨hp.step h.1 turn, hT.step h.1 h.2 turn⟩
  exact (final_of_step hstep ⟨hw, h⟩ run).2

/-- What no commit takes away stays, and every entry logged meanwhile is as the commits from there on allow. -/
theorem Program.Maintains.run_log {p : Program ν ρ ε φ α} {I : Store ν → List α → Prop}
    {J : Store ν → Session ν φ α → Prop} (hp : p.Maintains I J) {C : Store ν → Prop} {Q : α → Prop}
    (hC : ∀ {env committed log s}, I committed log → J committed s → C committed →
      p.statement env s.stage (s.view committed) = .commit → C (s.view committed) ∧ ∀ entry ∈ s.entries, Q entry)
    {w : Server ν φ α} (hw : w.Satisfies I J) (hcommitted : C w.committed) (run : List (Turn ρ ε)) :
    ∃ later, (final p.step w run).log = w.log ++ later ∧ ∀ entry ∈ later, Q entry := by
  induction run generalizing w with
  | nil => exact ⟨[], by simp⟩
  | cons turn run ih =>
    have hnext : C (p.step w turn).committed ∧ ∃ now, (p.step w turn).log = w.log ++ now ∧ ∀ entry ∈ now, Q entry := by
      have hstep := p.step_spec w turn
      generalize p.step w turn = w' at hstep
      cases hstep with
      | wait => exact ⟨hcommitted, [], by simp⟩
      | begin => exact ⟨hcommitted, [], by simp⟩
      | take => exact ⟨hcommitted, [], by simp [Server.put]⟩
      | @commit i env s hat hcommit =>
        obtain ⟨hstays, hentries⟩ := hC hw.committed (hw.sessions hat) hcommitted hcommit
        exact ⟨hstays, s.entries, rfl, hentries⟩
      | rollback => exact ⟨hcommitted, [], by simp [Server.rollback]⟩
    obtain ⟨hstays, now, hnow, hall⟩ := hnext
    obtain ⟨later, hlater, hrest⟩ := ih (hp.step hw turn) hstays
    refine ⟨now ++ later, ?_, ?_⟩
    · rw [final_cons, hlater, hnow, List.append_assoc]
    · intro entry hentry
      rcases List.mem_append.mp hentry with hentry | hentry
      · exact hall entry hentry
      · exact hrest entry hentry

/-! ### What begins from here on -/

section Late

variable {p : Program ν ρ ε φ α} {P : Session ν φ α → Prop} {w : Server ν φ α} {n : Nat}

theorem step_late {turn : Turn ρ ε} (hbegins : ∀ {request stage}, p.start request = some stage → P (.begin stage))
    (htakes : ∀ {i env committed s s'}, turn = .step i env → P s → p.Takes env committed s s' → P s')
    (h : ∀ {i s}, w.At i s → n ≤ i → P s) : ∀ {i s}, (p.step w turn).At i s → n ≤ i → P s := by
  have hstep := p.step_spec w turn
  generalize p.step w turn = w' at hstep
  intro j t ht hj
  cases hstep with
  | wait => exact h ht hj
  | begin hstart =>
    rcases at_begin.mp ht with ht | ⟨-, rfl⟩
    · exact h ht hj
    · exact hbegins hstart
  | take hat htake =>
    rcases (at_put hat).mp ht with ⟨rfl, rfl⟩ | ⟨-, ht⟩
    · exact htakes rfl (h hat hj) htake
    · exact h ht hj
  | commit => exact h (at_commit.mp ht).2 hj
  | rollback => exact h (at_rollback.mp ht).2 hj

/-- What every transaction begins with and no statement of this run takes from it, those that begin during it have. -/
theorem run_late {run : List (Turn ρ ε)}
    (hbegins : ∀ {request stage}, p.start request = some stage → P (.begin stage))
    (htakes : ∀ {i env committed s s'}, .step i env ∈ run → P s → p.Takes env committed s s' → P s')
    (h : ∀ {i s}, w.At i s → n ≤ i → P s) : ∀ {i s}, (final p.step w run).At i s → n ≤ i → P s := by
  induction run generalizing w with
  | nil => exact h
  | cons turn run ih =>
    rw [final_cons]
    refine ih (fun hmem => htakes (List.mem_cons_of_mem _ hmem)) ?_
    exact step_late hbegins (fun hturn => htakes (List.mem_cons.mpr (.inl hturn.symm))) h

end Late

/-! ### Transactions that have written nothing yet -/

structure Session.Unwritten (s : Session ν φ α) : Prop where
  writes : s.writes = fun _ => none
  entries : s.entries = []

omit [DecidableEq κ] in
theorem unwritten_begin (stage : φ) : (Session.begin stage : Session ν φ α).Unwritten := ⟨rfl, rfl⟩

omit [DecidableEq κ] in
theorem Session.Unwritten.view {s : Session ν φ α} (h : s.Unwritten) (committed : Store ν) :
    s.view committed = committed := by
  funext k
  rw [Session.view, h.writes, Option.none_or]

theorem Session.Unwritten.writes_write {s : Session ν φ α} (h : s.Unwritten) {k : κ} {v : ν k} {next : φ} :
    (s.write k v next).writes = only k v := by
  rw [Session.write, h.writes, only]

/-! ### What is known, committed or not -/

section Known

variable {w : Server ν φ α} {i : Nat} {k : κ} {stage : φ} {s s' : Session ν φ α} {P : Session ν φ α → Prop}
  {q : ν k → Bool}

omit [DecidableEq κ]

/-- Some transaction in flight. -/
def Server.Some (w : Server ν φ α) (P : Session ν φ α → Prop) : Prop := ∃ j t, w.At j t ∧ P t

/-- Some transaction in flight other than `i`. -/
def Server.Other (w : Server ν φ α) (i : Nat) (P : Session ν φ α → Prop) : Prop := ∃ j t, j ≠ i ∧ w.At j t ∧ P t

instance [DecidablePred P] : Decidable (w.Other i P) :=
  decidable_of_iff (¬ ∀ slot ∈ w.sessions.set i none, ∀ t ∈ slot, ¬ P t) <| by
    rw [forall_others_iff, Server.Other]
    simp only [not_forall, not_not, exists_prop]

instance [DecidablePred P] : Decidable (∀ s, w.At i s → P s) :=
  decidable_of_iff (∀ s ∈ w.sessions[i]?.join, P s) <| forall_congr' fun s => by
    rw [Option.mem_def, Option.join_eq_some_iff, Server.At]

theorem some_iff (hat : w.At i s) : w.Some P ↔ P s ∨ w.Other i P := by
  constructor
  · rintro ⟨j, t, ht, hP⟩
    by_cases hji : j = i
    · subst hji
      cases hat.symm.trans ht
      exact .inl hP
    · exact .inr ⟨j, t, hji, ht, hP⟩
  · rintro (hP | ⟨j, t, -, ht, hP⟩)
    · exact ⟨i, s, hat, hP⟩
    · exact ⟨j, t, ht, hP⟩

theorem some_put (hat : w.At i s) : (w.put i s').Some P ↔ P s' ∨ w.Other i P := by
  rw [some_iff ((at_put hat).mpr (.inl ⟨rfl, rfl⟩))]
  refine or_congr_right (exists₂_congr fun j t => and_congr_right fun hji => ?_)
  simp [at_put hat, hji]

theorem some_commit : (w.commit i s).Some P ↔ w.Other i P :=
  exists₂_congr fun j t => by rw [at_commit, and_assoc]

theorem some_rollback : (w.rollback i).Some P ↔ w.Other i P :=
  exists₂_congr fun j t => by rw [at_rollback, and_assoc]

theorem some_begin :
    Server.Some { w with sessions := w.sessions ++ [some (.begin stage)] } P ↔ w.Some P ∨ P (.begin stage) := by
  constructor
  · rintro ⟨j, t, ht, hP⟩
    rcases at_begin.mp ht with ht | ⟨-, rfl⟩
    · exact .inl ⟨j, t, ht, hP⟩
    · exact .inr hP
  · rintro (⟨j, t, ht, hP⟩ | hP)
    · exact ⟨j, t, at_begin.mpr (.inl ht), hP⟩
    · exact ⟨_, _, at_begin.mpr (.inr ⟨rfl, rfl⟩), hP⟩

theorem not_some_of_quiet (h : w.Quiet) : ¬ w.Some P := by
  rintro ⟨j, t, ht, -⟩
  exact quiet_iff.mp h j t ht

/-- The row at `k` satisfies `q`, as committed or as somebody in flight sees it. -/
def Server.Knows (w : Server ν φ α) (k : κ) (q : ν k → Bool) : Prop :=
  (w.committed k).any q = true ∨ w.Some fun t => (t.view w.committed k).any q = true

theorem knows_iff_of_quiet (h : w.Quiet) : w.Knows k q ↔ (w.committed k).any q = true :=
  or_iff_left (not_some_of_quiet h)

theorem knows_put (hat : w.At i s) (h : (s'.view w.committed k).any q = (s.view w.committed k).any q) :
    (w.put i s').Knows k q ↔ w.Knows k q := by
  refine or_congr_right ?_
  rw [some_put hat, some_iff hat]
  exact or_congr_left (by rw [← h]; rfl)

theorem knows_put_stage (hat : w.At i s) : (w.put i { s with stage }).Knows k q ↔ w.Knows k q := knows_put hat rfl

theorem knows_put_of_view (hat : w.At i s) (h : (s'.view w.committed k).any q = true) : (w.put i s').Knows k q :=
  .inr ((some_put hat).mpr (.inl h))

@[simp] theorem view_begin (committed : Store ν) : (Session.begin stage : Session ν φ α).view committed = committed := by
  funext k
  simp [Session.view, Session.begin]

theorem knows_begin :
    Server.Knows { w with sessions := w.sessions ++ [some (.begin stage)] } k q ↔ w.Knows k q := by
  unfold Server.Knows
  rw [some_begin, view_begin]
  constructor
  · rintro (h | h | h)
    · exact .inl h
    · exact .inr h
    · exact .inl h
  · rintro (h | h)
    · exact .inl h
    · exact .inr (.inl h)

theorem knows_rollback (hat : w.At i s)
    (h : (s.view w.committed k).any q = true → (w.committed k).any q = true) :
    (w.rollback i).Knows k q ↔ w.Knows k q := by
  unfold Server.Knows
  rw [some_rollback, some_iff hat]
  constructor
  · rintro (hc | ho)
    · exact .inl hc
    · exact .inr (.inr ho)
  · rintro (hc | hs | ho)
    · exact .inl hc
    · exact .inl (h hs)
    · exact .inr ho

/-- What another transaction sees after a commit: its own write, or what was committed. -/
theorem view_view (t : Session ν φ α) (committed : Store ν) :
    t.view (s.view committed) k = if t.writes k = none then s.view committed k else t.view committed k := by
  unfold Session.view
  cases t.writes k <;> simp

/-- A commit that keeps what is committed makes nothing known and loses nothing. -/
theorem knows_commit (hat : w.At i s)
    (h : (w.committed k).any q = true → (s.view w.committed k).any q = true) :
    (w.commit i s).Knows k q ↔ w.Knows k q := by
  unfold Server.Knows
  rw [some_commit, some_iff hat]
  constructor
  · rintro (hs | ⟨j, t, hji, ht, hq⟩)
    · exact .inr (.inl hs)
    · rw [Server.commit, view_view] at hq
      split at hq
      · exact .inr (.inl hq)
      · exact .inr (.inr ⟨j, t, hji, ht, hq⟩)
  · rintro (hc | hs | ⟨j, t, hji, ht, hq⟩)
    · exact .inl (h hc)
    · exact .inl hs
    · by_cases hwrites : t.writes k = none
      · refine .inl (h ?_)
        rwa [Session.view, hwrites, Option.none_or] at hq
      · refine .inr ⟨j, t, hji, ht, ?_⟩
        show (t.view (s.view w.committed) k).any q = true
        rw [view_view, if_neg hwrites]
        exact hq

end Known

end Runs.ReadCommitted
