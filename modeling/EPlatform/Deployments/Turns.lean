import Mathlib.Data.List.Nodup
import EPlatform.Deployments.Exclusion

/-!
# The deploys one after another

What a deploy migrates it has read once, after the lock was granted, so that nothing comes between its plan and the last of
its records. A turn is a deploy together with how far it came. The records of a run are those of its turns taken one by
one, in the order in which the lock was granted.
-/

namespace EPlatform.Deployments

open Runs

/-- The deploy `number` has applied so many of what was pending of its release. -/
structure Turn where
  number : Nat
  release : Release
  count : Nat
  deriving DecidableEq, Repr

section Executor

variable (executor : Executor)

def Turn.take (applied : List Migration) (turn : Turn) : List Migration :=
  applied ++ (executor.migrationPlan turn.release applied).take turn.count

/-- No two deploys at a time, and none of them stopped by anything but the end of its turn. -/
def serial (applied : List Migration) (turns : List Turn) : List Migration := turns.foldl (Turn.take executor) applied

/-- What an outcome says of the records. -/
def Outcome.IsTrue (release : Release) (applied : List Migration) : Outcome → Prop
  | .noMigrationsToApply => executor.migrationPlan release applied = []
  | .migrationsApplied => release.migrations ⊆ applied
  | _ => True

/-- What a stage says of them, which says nothing before its deploy is over. -/
def Stage.IsTrue (release : Release) (applied : List Migration) : Stage → Prop
  | .unlocking outcome | .finished outcome => outcome.IsTrue executor release applied
  | _ => True

end Executor

/-- It comes out of `migrate`. -/
def Outcome.hasMigrated : Outcome → Bool
  | .migrationsApplied | .migrationFailed => true
  | _ => false

namespace Stage

/-- What is left of the plan. -/
def remaining : Stage → Option (List Migration)
  | .migrating plan => some plan
  | .recording migration plan => some (migration :: plan)
  | _ => none

/-- A deploy that has no plan yet is not at such a stage. -/
def hasLoaded : Stage → Bool
  | .migrating _ | .recording _ _ | .stopped => true
  | .unlocking outcome | .finished outcome => outcome.hasMigrated
  | _ => false

theorem isInside_of_remaining {stage : Stage} {rest : List Migration} (h : stage.remaining = some rest) :
    stage.isInside = true := by
  cases stage with
  | migrating _ | recording _ _ => rfl
  | _ => cases h

end Stage

variable {executor : Executor} {s : System} {db : Database} {d : Deploy} {number : Nat} {env : Env} {stage : Stage}
  {release : Release} {applied applied' applied₀ : List Migration} {turns : List Turn}

/-- What was said of the records is so of more of them. -/
theorem Stage.IsTrue.mono (h : stage.IsTrue executor release applied) (hexecutor : executor.IsSound)
    (hsubset : applied ⊆ applied') :
    stage.IsTrue executor release applied' := by
  have houtcome : ∀ {outcome : Outcome}, outcome.IsTrue executor release applied → outcome.IsTrue executor release applied' := by
    intro outcome h
    cases outcome with
    | noMigrationsToApply => exact hexecutor.mono release applied applied' h hsubset
    | migrationsApplied => exact List.Subset.trans h hsubset
    | _ => trivial
  cases stage with
  | unlocking outcome => exact houtcome h
  | finished outcome => exact houtcome h
  | _ => trivial

/-! ### Turns -/

theorem serial_append_singleton (turn : Turn) :
    serial executor applied (turns ++ [turn]) = Turn.take executor (serial executor applied turns) turn :=
  List.foldl_append

/-- A turn goes on for one more migration. -/
theorem take_succ {count : Nat} {migration : Migration} {rest : List Migration}
    (h : (executor.migrationPlan release applied).drop count = migration :: rest) :
    Turn.take executor applied ⟨number, release, count + 1⟩ =
      Turn.take executor applied ⟨number, release, count⟩ ++ [migration] := by
  have hget : (executor.migrationPlan release applied)[count]? = some migration := by
    rw [← List.head?_drop, h, List.head?_cons]
  rw [Turn.take, Turn.take, List.append_assoc, List.take_add_one, hget, Option.toList_some]

/-- A turn that went through the plan for a consistent history has applied the release. -/
theorem subset_take_of_drop_eq_nil (hexecutor : executor.IsSound) (hconsistent : release.IsConsistent applied) {count : Nat}
    (h : (executor.migrationPlan release applied).drop count = []) :
    release.migrations ⊆ Turn.take executor applied ⟨number, release, count⟩ := by
  intro migration hmigration
  have htake : (executor.migrationPlan release applied).take count = executor.migrationPlan release applied :=
    List.take_of_length_le (List.drop_eq_nil_iff.mp h)
  rw [Turn.take, htake, List.mem_append]
  by_cases happlied : migration ∈ applied
  · exact .inl happlied
  · exact .inr (hexecutor.complete release applied hconsistent migration hmigration happlied)

theorem prefix_take (turn : Turn) : applied <+: Turn.take executor applied turn := List.prefix_append _ _

theorem prefix_serial (applied : List Migration) (turns : List Turn) : applied <+: serial executor applied turns := by
  induction turns generalizing applied with
  | nil => exact List.prefix_rfl
  | cons turn turns ih => exact (prefix_take turn).trans (ih (Turn.take executor applied turn))

/-- No turn records what is recorded already. -/
theorem nodup_take (hexecutor : executor.IsSound) (h : applied.Nodup) (turn : Turn) : (Turn.take executor applied turn).Nodup := by
  have hplan : ((executor.migrationPlan turn.release applied).take turn.count).Nodup :=
    (hexecutor.nodup turn.release applied).sublist (List.take_sublist _ _)
  refine List.nodup_append.mpr ⟨h, hplan, fun migration hmigration other hother heq => ?_⟩
  subst heq
  exact (hexecutor.mem turn.release applied migration (List.mem_of_mem_take hother)).2 hmigration

theorem nodup_serial (hexecutor : executor.IsSound) (h : applied.Nodup) (turns : List Turn) :
    (serial executor applied turns).Nodup := by
  induction turns generalizing applied with
  | nil => exact h
  | cons turn turns ih => exact ih (nodup_take hexecutor h turn)

/-! ### A step of a deploy -/

/-- What a step does to the records and to the plan, and whether what the deploy says then is so. -/
inductive Moves (executor : Executor) (d : Deploy) (db db' : Database) (stage : Stage) : Prop
  | keeps (happlied : db'.applied = db.applied) (hremaining : ∀ rest, stage.remaining = some rest → d.stage.remaining = some rest)
      (hloaded : d.stage.hasLoaded = true → stage.hasLoaded = true)
      (htrue : (d.stage.remaining = some [] → d.release.migrations ⊆ db.applied) →
        d.stage.IsTrue executor d.release db.applied → stage.IsTrue executor d.release db.applied)
  | loads (happlied : db'.applied = db.applied) (hstage : d.stage = .loading)
      (hconsistent : d.release.IsConsistent db.applied)
      (hnext : stage = .migrating (executor.migrationPlan d.release db.applied))
  | records (migration : Migration) (rest : List Migration) (happlied : db'.applied = db.applied ++ [migration])
      (hremaining : d.stage.remaining = some (migration :: rest)) (hnext : stage = .migrating rest)

theorem moves_quiet {d : Deploy} {db db' : Database} (happlied : db'.applied = db.applied)
    (hremaining : stage.remaining = none) (hloaded : d.stage.hasLoaded = true → stage.hasLoaded = true)
    (htrue : d.stage.IsTrue executor d.release db.applied → stage.IsTrue executor d.release db.applied) :
    Moves executor d db db' stage := by
  refine .keeps happlied (fun rest hrest => ?_) hloaded fun _ => htrue
  rw [hremaining] at hrest
  cases hrest

theorem act_moves (executor : Executor) (d : Deploy) (number : Nat) (env : Env) (db : Database) :
    Moves executor d db (d.act executor number env db).1 (d.act executor number env db).2 := by
  unfold Deploy.act
  cases hstage : d.stage with
  | connecting deadline attempt =>
    have hloaded : ¬ d.stage.hasLoaded = true := by simp [hstage, Stage.hasLoaded]
    simp only [waitForDatabase]
    split_ifs <;> exact moves_quiet rfl rfl (fun h => absurd h hloaded) fun _ => trivial
  | planning =>
    have hloaded : ¬ d.stage.hasLoaded = true := by simp [hstage, Stage.hasLoaded]
    simp only [plan]
    split_ifs with hpending hcheck
    · exact moves_quiet rfl rfl (fun h => absurd h hloaded) fun _ => hpending
    · exact moves_quiet rfl rfl (fun h => absurd h hloaded) fun _ => trivial
    · exact moves_quiet rfl rfl (fun h => absurd h hloaded) fun _ => trivial
  | locking deadline =>
    have hloaded : ¬ d.stage.hasLoaded = true := by simp [hstage, Stage.hasLoaded]
    simp only [tryAdvisoryLock]
    split
    · exact moves_quiet rfl rfl (fun h => absurd h hloaded) fun _ => trivial
    · split_ifs <;> exact moves_quiet rfl rfl (fun h => absurd h hloaded) fun _ => trivial
  | confirming =>
    have hloaded : ¬ d.stage.hasLoaded = true := by simp [hstage, Stage.hasLoaded]
    simp only [requireARealSession]
    split_ifs <;> exact moves_quiet rfl rfl (fun h => absurd h hloaded) fun _ => trivial
  | loading =>
    simp only [load]
    split_ifs with hgood
    · exact .loads rfl hstage hgood.2 rfl
    · exact moves_quiet rfl rfl (fun _ => rfl) fun _ => trivial
  | migrating next =>
    simp only [migrate]
    by_cases hsucceeds : env.succeeds = true
    · rw [if_neg (not_not.mpr hsucceeds)]
      cases next with
      | nil =>
        exact .keeps rfl (by simp [Stage.remaining]) (fun _ => rfl) fun hdone _ => hdone (by rw [hstage]; rfl)
      | cons migration rest =>
        have hremaining : d.stage.remaining = some (migration :: rest) := by rw [hstage]; rfl
        dsimp only
        split_ifs
        · exact .records migration rest rfl hremaining rfl
        · exact .keeps rfl (fun _ hrest => hremaining.trans hrest) (fun _ => rfl) fun _ _ => trivial
    · rw [if_pos hsucceeds]
      exact moves_quiet rfl rfl (fun _ => rfl) fun _ => trivial
  | recording migration rest =>
    simp only [recordApplied]
    split_ifs
    · exact .records migration rest rfl (by rw [hstage]; rfl) rfl
    · exact moves_quiet rfl rfl (fun _ => rfl) fun _ => trivial
  | unlocking outcome => exact moves_quiet rfl rfl (by rw [hstage]; exact id) (by rw [hstage]; exact id)
  | finished outcome => exact moves_quiet rfl rfl (by rw [hstage]; exact id) (by rw [hstage]; exact id)
  | stopped => exact moves_quiet rfl rfl (fun _ => rfl) fun _ => trivial

/-! ### The turns of a run -/

/-- What is recorded is what the turns have left, a deploy with a plan is at the last of them, and what the deploys say of the
records is so. -/
structure Serialised (executor : Executor) (applied₀ : List Migration) (s : System) (turns : List Turn) : Prop where
  applied_eq : s.database.applied = serial executor applied₀ turns
  nodup : (turns.map Turn.number).Nodup
  loaded : ∀ turn ∈ turns, ∃ d, s.deploys[turn.number]? = some d ∧ d.release = turn.release ∧ d.stage.hasLoaded = true
  ongoing : ∀ {number : Nat} {d : Deploy} {rest : List Migration}, s.deploys[number]? = some d →
    d.stage.remaining = some rest → ∃ earlier count, turns = earlier ++ [⟨number, d.release, count⟩] ∧
      d.release.IsConsistent (serial executor applied₀ earlier) ∧
      rest = (executor.migrationPlan d.release (serial executor applied₀ earlier)).drop count
  isTrue : ∀ {number : Nat} {d : Deploy}, s.deploys[number]? = some d →
    d.stage.IsTrue executor d.release s.database.applied

theorem Locked.eq_of_isInside (h : Locked s) {other : Nat} {e : Deploy} (hnumber : s.deploys[number]? = some d)
    (hother : s.deploys[other]? = some e) (hd : d.stage.isInside = true) (he : e.stage.isInside = true) : other = number :=
  h.exclusive number ((h.held number).mpr ⟨d, hnumber, hd⟩) other ((h.held other).mpr ⟨e, hother, he⟩)

theorem getElem?_put {other : Nat} (hnumber : s.deploys[number]? = some d) :
    (s.put number d db stage).deploys[other]? = if number = other then some { d with stage } else s.deploys[other]? := by
  have hlength : number < s.deploys.length := (List.getElem?_eq_some_iff.mp hnumber).1
  simp only [System.put, List.getElem?_set]
  split_ifs with hother
  · rfl
  · rfl

theorem getElem?_put_self (hnumber : s.deploys[number]? = some d) :
    (s.put number d db stage).deploys[number]? = some { d with stage } := by
  rw [getElem?_put hnumber, if_pos rfl]

/-- Only the deploy that takes its step has a plan left, since it is the one inside. -/
theorem Locked.eq_of_remaining (h : Locked s) {other : Nat} {e : Deploy} {rest : List Migration}
    (hnumber : s.deploys[number]? = some d) (hinside : d.stage.isInside = true)
    (hother : (s.put number d db stage).deploys[other]? = some e) (hrest : e.stage.remaining = some rest) :
    number = other ∧ { d with stage } = e := by
  rw [getElem?_put hnumber] at hother
  split_ifs at hother with heq
  · exact ⟨heq, Option.some.inj hother⟩
  · exact absurd (h.eq_of_isInside hnumber hother hinside (Stage.isInside_of_remaining hrest)).symm heq

theorem deploys_start {options : Options} {now : Int}
    (h : (step executor s (.start release options now)).deploys[number]? = some d) :
    s.deploys[number]? = some d ∨ d = ⟨release, options, .connecting (now + options.dbWait) 0⟩ := by
  have hmem : (s.deploys ++ [⟨release, options, .connecting (now + options.dbWait) 0⟩])[number]? = some d := h
  rw [List.getElem?_append] at hmem
  split_ifs at hmem
  · exact .inl hmem
  · exact .inr (List.mem_singleton.mp (List.mem_of_getElem? hmem))

namespace Serialised

variable {turn : Turn}

/-- The deploys of the turns are past their loading, whatever one of them has come to. -/
theorem loaded_put (h : Serialised executor applied₀ s turns) (hnumber : s.deploys[number]? = some d)
    (hloaded : d.stage.hasLoaded = true → stage.hasLoaded = true) (hturn : turn ∈ turns) :
    ∃ d', (s.put number d db stage).deploys[turn.number]? = some d' ∧ d'.release = turn.release ∧
      d'.stage.hasLoaded = true := by
  obtain ⟨d', hd', hrelease, hpast⟩ := h.loaded turn hturn
  rw [getElem?_put hnumber]
  split_ifs with heq
  · obtain rfl : d = d' := Option.some.inj (hnumber.symm.trans (heq ▸ hd'))
    exact ⟨_, rfl, hrelease, hloaded hpast⟩
  · exact ⟨d', hd', hrelease, hpast⟩

/-- What the deploys say stays so while nothing recorded is lost. -/
theorem isTrue_put (h : Serialised executor applied₀ s turns) (hexecutor : executor.IsSound)
    (hnumber : s.deploys[number]? = some d) (hsubset : s.database.applied ⊆ db.applied) {other : Nat} {e : Deploy}
    (hother : (s.put number d db stage).deploys[other]? = some e) (htrue : stage.IsTrue executor d.release db.applied) :
    e.stage.IsTrue executor e.release db.applied := by
  rw [getElem?_put hnumber] at hother
  split_ifs at hother
  · cases hother
    exact htrue
  · exact (h.isTrue hother).mono hexecutor hsubset

theorem keeps (h : Serialised executor applied₀ s turns) (hexecutor : executor.IsSound) (hnumber : s.deploys[number]? = some d)
    (happlied : db.applied = s.database.applied)
    (hremaining : ∀ rest, stage.remaining = some rest → d.stage.remaining = some rest)
    (hloaded : d.stage.hasLoaded = true → stage.hasLoaded = true)
    (htrue : stage.IsTrue executor d.release s.database.applied) :
    Serialised executor applied₀ (s.put number d db stage) turns := by
  refine ⟨happlied.trans h.applied_eq, h.nodup, fun turn hturn => h.loaded_put hnumber hloaded hturn, ?_,
    fun hother => h.isTrue_put hexecutor hnumber (happlied ▸ List.Subset.refl _) hother (happlied ▸ htrue)⟩
  · intro other e rest hother hrest
    rw [getElem?_put hnumber] at hother
    split_ifs at hother with heq
    · cases hother
      obtain ⟨earlier, count, hturns, hplan⟩ := h.ongoing hnumber (hremaining rest hrest)
      exact ⟨earlier, count, heq ▸ hturns, hplan⟩
    · exact h.ongoing hother hrest

theorem loads (h : Serialised executor applied₀ s turns) (hexecutor : executor.IsSound) (hlocked : Locked s)
    (hnumber : s.deploys[number]? = some d) (hstage : d.stage = .loading) (hconsistent : d.release.IsConsistent s.database.applied)
    (happlied : db.applied = s.database.applied) :
    Serialised executor applied₀ (s.put number d db (.migrating (executor.migrationPlan d.release s.database.applied)))
      (turns ++ [⟨number, d.release, 0⟩]) := by
  have hnew : ∀ turn ∈ turns, turn.number ≠ number := by
    intro turn hturn heq
    obtain ⟨d', hd', -, hpast⟩ := h.loaded turn hturn
    rw [heq, hnumber] at hd'
    cases hd'
    rw [hstage] at hpast
    cases hpast
  have hfresh : number ∉ turns.map Turn.number := by
    intro hmem
    obtain ⟨turn, hturn, heq⟩ := List.mem_map.mp hmem
    exact hnew turn hturn heq
  refine ⟨?_, ?_, ?_, ?_,
    fun hother => h.isTrue_put hexecutor hnumber (happlied ▸ List.Subset.refl _) hother trivial⟩
  · rw [serial_append_singleton, Turn.take, List.take_zero, List.append_nil]
    exact happlied.trans h.applied_eq
  · rw [List.map_append, List.nodup_append_comm]
    exact List.nodup_cons.mpr ⟨hfresh, h.nodup⟩
  · intro turn hturn
    obtain hturn | hturn := List.mem_append.mp hturn
    · exact h.loaded_put hnumber (fun _ => rfl) hturn
    · rw [List.mem_singleton] at hturn
      subst hturn
      exact ⟨_, getElem?_put_self hnumber, rfl, rfl⟩
  · intro other e rest hother hrest
    have hinside : d.stage.isInside = true := by rw [hstage]; rfl
    obtain ⟨rfl, rfl⟩ := hlocked.eq_of_remaining hnumber hinside hother hrest
    cases hrest
    rw [h.applied_eq] at hconsistent ⊢
    exact ⟨turns, 0, rfl, hconsistent, by rw [List.drop_zero]⟩

theorem records (h : Serialised executor applied₀ s turns) (hexecutor : executor.IsSound) (hlocked : Locked s)
    (hnumber : s.deploys[number]? = some d) {migration : Migration} {rest : List Migration}
    (hremaining : d.stage.remaining = some (migration :: rest)) (happlied : db.applied = s.database.applied ++ [migration]) :
    ∃ turns', Serialised executor applied₀ (s.put number d db (.migrating rest)) turns' := by
  obtain ⟨earlier, count, hturns, hconsistent, hplan⟩ := h.ongoing hnumber hremaining
  have hmap : (earlier ++ [(⟨number, d.release, count + 1⟩ : Turn)]).map Turn.number = turns.map Turn.number := by
    rw [hturns, List.map_append, List.map_append]
    rfl
  have hsubset : s.database.applied ⊆ db.applied := happlied ▸ List.subset_append_left _ _
  refine ⟨earlier ++ [⟨number, d.release, count + 1⟩], ?_, ?_, ?_, ?_,
    fun hother => h.isTrue_put hexecutor hnumber hsubset hother trivial⟩
  · rw [serial_append_singleton, take_succ hplan.symm, ← serial_append_singleton, ← hturns, ← h.applied_eq]
    exact happlied
  · rw [hmap]
    exact h.nodup
  · intro turn hturn
    obtain hturn | hturn := List.mem_append.mp hturn
    · exact h.loaded_put hnumber (fun _ => rfl) (hturns ▸ List.mem_append_left _ hturn)
    · rw [List.mem_singleton] at hturn
      subst hturn
      exact ⟨_, getElem?_put_self hnumber, rfl, rfl⟩
  · intro other e rest' hother hrest
    obtain ⟨rfl, rfl⟩ := hlocked.eq_of_remaining hnumber (Stage.isInside_of_remaining hremaining) hother hrest
    cases hrest
    refine ⟨earlier, count + 1, rfl, hconsistent, ?_⟩
    rw [← List.drop_drop, ← hplan]
    rfl

/-- A deploy with nothing left of its plan has applied its release. -/
theorem subset_of_remaining_nil (h : Serialised executor applied₀ s turns) (hexecutor : executor.IsSound)
    (hnumber : s.deploys[number]? = some d) (hremaining : d.stage.remaining = some []) :
    d.release.migrations ⊆ s.database.applied := by
  obtain ⟨earlier, count, hturns, hconsistent, hplan⟩ := h.ongoing hnumber hremaining
  rw [h.applied_eq, hturns, serial_append_singleton]
  exact subset_take_of_drop_eq_nil hexecutor hconsistent hplan.symm

theorem step (h : Serialised executor applied₀ s turns) (hexecutor : executor.IsSound) (hlocked : Locked s) (event : Event) :
    ∃ turns', Serialised executor applied₀ (step executor s event) turns' := by
  cases event with
  | start release options now =>
    refine ⟨turns, h.applied_eq, h.nodup, fun turn hturn => ?_, fun hnumber hrest => ?_, fun hnumber => ?_⟩
    · obtain ⟨d, hd, hrelease, hpast⟩ := h.loaded turn hturn
      exact ⟨d, List.getElem?_append_left (List.getElem?_eq_some_iff.mp hd).1 ▸ hd, hrelease, hpast⟩
    · obtain hold | rfl := deploys_start hnumber
      · exact h.ongoing hold hrest
      · cases hrest
    · obtain hold | rfl := deploys_start hnumber
      · exact h.isTrue hold
      · trivial
  | act number env =>
    rw [Deployments.step]
    cases hnumber : s.deploys[number]? with
    | none => exact ⟨turns, h⟩
    | some d =>
      cases act_moves executor d number env s.database with
      | keeps happlied hremaining hloaded htrue =>
        exact ⟨turns, h.keeps hexecutor hnumber happlied hremaining hloaded
          (htrue (h.subset_of_remaining_nil hexecutor hnumber) (h.isTrue hnumber))⟩
      | loads happlied hstage hconsistent hnext =>
        dsimp only
        rw [hnext]
        exact ⟨_, h.loads hexecutor hlocked hnumber hstage hconsistent happlied⟩
      | records migration rest happlied hremaining hnext =>
        dsimp only
        rw [hnext]
        exact h.records hexecutor hlocked hnumber hremaining happlied
  | stop number =>
    rw [Deployments.step]
    cases hnumber : s.deploys[number]? with
    | none => exact ⟨turns, h⟩
    | some d =>
      dsimp only
      split_ifs
      · exact ⟨turns, h⟩
      · refine ⟨turns, h.keeps hexecutor hnumber rfl (fun rest hrest => ?_) (fun _ => rfl) trivial⟩
        cases hrest

end Serialised

/-! ### Runs -/

/-- Nothing is under way. -/
def idle (applied : List Migration) : System := ⟨{ applied }, []⟩

theorem locked_idle (applied : List Migration) : Locked (idle applied) := by
  refine ⟨fun session hsession => ?_, fun number => ?_⟩
  · cases hsession
  · simp [idle]

theorem serialised_idle (applied : List Migration) : Serialised executor applied (idle applied) [] :=
  ⟨rfl, List.nodup_nil, fun _ h => absurd h (by simp), fun h => absurd h (by simp [idle]),
    fun h => absurd h (by simp [idle])⟩

theorem locked_and_serialised (hexecutor : executor.IsSound) (applied : List Migration) {run : List Event}
    (hdirect : ∀ event ∈ run, event.IsDirect) : Locked (final (step executor) (idle applied) run) ∧
      ∃ turns, Serialised executor applied (final (step executor) (idle applied) run) turns := by
  induction run using List.reverseRecOn with
  | nil => exact ⟨locked_idle applied, [], serialised_idle applied⟩
  | append_singleton run event ih =>
    obtain ⟨hlocked, turns, hserialised⟩ := ih fun event hevent => hdirect event (List.mem_append_left _ hevent)
    rw [final_append]
    exact ⟨hlocked.step executor (hdirect event (List.mem_append_right _ List.mem_cons_self)),
      hserialised.step hexecutor hlocked event⟩

end EPlatform.Deployments
