import EPlatform.Deployments.Turns

/-!
# What the deploys of a run have done

That they take turns, how often a migration was executed, what a deploy that has ended says of the database, and when the
lock is to be had.
-/

namespace EPlatform.Deployments

open Runs

variable {executor : Executor} {s : System} {db : Database} {d : Deploy} {number : Nat} {env : Env} {stage : Stage}
  {migration : Migration} {applied : List Migration} {turns : List Turn} {run : List Event}

/-! ### Executions -/

/-- The operations of the migration have run, and its record has not been written. -/
def Stage.isRecording (migration : Migration) : Stage → Bool
  | .recording recorded _ => recorded = migration
  | _ => false

def Stage.recordings (migration : Migration) (stage : Stage) : Nat := if stage.isRecording migration then 1 else 0

def System.recordings (migration : Migration) (s : System) : Nat :=
  s.deploys.countP fun d => d.stage.isRecording migration

/-- Whether the deploy is between the operations of the migration and its record. -/
def System.recordingsOf (migration : Migration) (s : System) (number : Nat) : Nat :=
  match s.deploys[number]? with
  | none => 0
  | some d => d.stage.recordings migration

/-- A deploy is stopped between the operations of the migration and its record, or fails to write the record. -/
def System.interruptions (migration : Migration) (s : System) : Event → Nat
  | .start _ _ _ => 0
  | .act number env => if env.succeeds then 0 else s.recordingsOf migration number
  | .stop number => s.recordingsOf migration number

theorem recordings_recording (recorded : Migration) (rest : List Migration) :
    (Stage.recording recorded rest).recordings migration = if recorded = migration then 1 else 0 := by
  simp [Stage.recordings, Stage.isRecording]

theorem recordings_migrating (rest : List Migration) : (Stage.migrating rest).recordings migration = 0 := rfl

theorem count_append_singleton (l : List Migration) (added : Migration) :
    (l ++ [added]).count migration = l.count migration + if added = migration then 1 else 0 := by
  rw [List.count_append, List.count_singleton]
  simp [beq_iff_eq]

theorem act_recordings (executor : Executor) (d : Deploy) (number : Nat) (env : Env) (db : Database) (migration : Migration) :
    (d.act executor number env db).1.executed.count migration + db.applied.count migration + d.stage.recordings migration =
      db.executed.count migration + (d.act executor number env db).1.applied.count migration +
        (d.act executor number env db).2.recordings migration +
          if env.succeeds then 0 else d.stage.recordings migration := by
  have hquiet : (if env.succeeds = true then 0 else 0) = 0 := ite_self 0
  unfold Deploy.act
  cases hstage : d.stage with
  | connecting deadline attempt =>
    refine Eq.trans ?_ (congrArg (_ + ·) hquiet.symm)
    simp only [waitForDatabase]
    split_ifs <;> rfl
  | planning =>
    refine Eq.trans ?_ (congrArg (_ + ·) hquiet.symm)
    simp only [plan]
    split_ifs <;> rfl
  | locking deadline =>
    refine Eq.trans ?_ (congrArg (_ + ·) hquiet.symm)
    simp only [tryAdvisoryLock]
    split
    · rfl
    · split_ifs <;> rfl
  | confirming =>
    refine Eq.trans ?_ (congrArg (_ + ·) hquiet.symm)
    simp only [requireARealSession]
    split_ifs <;> rfl
  | loading =>
    refine Eq.trans ?_ (congrArg (_ + ·) hquiet.symm)
    simp only [load]
    split_ifs <;> rfl
  | migrating next =>
    refine Eq.trans ?_ (congrArg (_ + ·) hquiet.symm)
    simp only [migrate]
    by_cases hsucceeds : env.succeeds = true
    · rw [if_neg (not_not.mpr hsucceeds)]
      cases next with
      | nil => rfl
      | cons next rest =>
        dsimp only
        split_ifs
        · simp only [Database.execute, Database.record, count_append_singleton, recordings_migrating]
          omega
        · simp only [Database.execute, count_append_singleton, recordings_migrating, recordings_recording]
          omega
    · rw [if_pos hsucceeds]
      rfl
  | recording recorded rest =>
    simp only [recordApplied]
    by_cases hsucceeds : env.succeeds = true
    · rw [if_pos hsucceeds, if_pos hsucceeds]
      simp only [Database.record, count_append_singleton, recordings_migrating, recordings_recording]
      omega
    · rw [if_neg hsucceeds, if_neg hsucceeds]
      have hunlocking : (Stage.unlocking .migrationFailed).recordings migration = 0 := rfl
      dsimp only
      omega
  | unlocking outcome => exact congrArg (_ + ·) hquiet.symm
  | finished outcome => exact congrArg (_ + ·) hquiet.symm
  | stopped => exact congrArg (_ + ·) hquiet.symm

theorem recordings_put (hnumber : s.deploys[number]? = some d) (db : Database) (stage : Stage) (migration : Migration) :
    (s.put number d db stage).recordings migration + d.stage.recordings migration =
      s.recordings migration + stage.recordings migration := by
  obtain ⟨hlength, hget⟩ := List.getElem?_eq_some_iff.mp hnumber
  have hle : d.stage.recordings migration ≤ s.recordings migration := by
    rw [Stage.recordings]
    split_ifs with hrecording
    · exact List.countP_pos_iff.mpr ⟨d, List.mem_of_getElem? hnumber, hrecording⟩
    · exact Nat.zero_le _
  rw [System.recordings, System.put, List.countP_set hlength, hget]
  rw [Stage.recordings, System.recordings] at *
  simp only [Stage.recordings]
  omega

/-- What is executed is recorded, or is about to be, or the deploy was stopped before it could be. -/
theorem step_recordings (executor : Executor) (s : System) (event : Event) (migration : Migration) :
    (step executor s event).database.executed.count migration + s.database.applied.count migration + s.recordings migration =
      s.database.executed.count migration + (step executor s event).database.applied.count migration +
        (step executor s event).recordings migration + s.interruptions migration event := by
  cases event with
  | start release options now =>
    have hdeploys : (step executor s (.start release options now)).recordings migration = s.recordings migration := by
      simp [System.recordings, step, Stage.isRecording]
    rw [hdeploys]
    rfl
  | act number env =>
    rw [step]
    cases hnumber : s.deploys[number]? with
    | none => simp [System.interruptions, System.recordingsOf, hnumber]
    | some d =>
      have hact := act_recordings executor d number env s.database migration
      have hput := recordings_put hnumber (d.act executor number env s.database).1 (d.act executor number env s.database).2
        migration
      simp only [System.put] at hput ⊢
      simp only [System.interruptions, System.recordingsOf, hnumber]
      omega
  | stop number =>
    rw [step]
    cases hnumber : s.deploys[number]? with
    | none => simp [System.interruptions, System.recordingsOf, hnumber]
    | some d =>
      have hput := recordings_put hnumber (s.database.endSession number) .stopped migration
      have hstopped : Stage.stopped.recordings migration = 0 := rfl
      simp only [System.interruptions, System.recordingsOf, hnumber]
      split_ifs with hover
      · have hzero : d.stage.recordings migration = 0 := by
          cases hstage : d.stage with
          | recording recorded rest =>
            rw [hstage] at hover
            cases hover
          | _ => rfl
        omega
      · simp only [System.put, Database.endSession] at hput ⊢
        omega

theorem executed_final (executor : Executor) (applied : List Migration) (run : List Event) (migration : Migration) :
    (final (step executor) (idle applied) run).database.executed.count migration + applied.count migration =
      (final (step executor) (idle applied) run).database.applied.count migration +
        (final (step executor) (idle applied) run).recordings migration +
          total (step executor) (System.interruptions migration) (idle applied) run := by
  let m (s : System) := s.database.executed.count migration
  let k (s : System) := s.database.applied.count migration + s.recordings migration
  have hstep : ∀ s event,
      m (step executor s event) + k s = m s + k (step executor s event) + System.interruptions migration s event := by
    intro s event
    have h := step_recordings executor s event migration
    dsimp only [m, k]
    omega
  have hbalance := balance_final hstep (idle applied) run
  dsimp only [m, k] at hbalance
  have hexecuted : (idle applied).database.executed.count migration = 0 := rfl
  have hrecordings : (idle applied).recordings migration = 0 := rfl
  have happlied : (idle applied).database.applied = applied := rfl
  rw [hexecuted, hrecordings, happlied] at hbalance
  omega

/-! ### Stages -/

/-- A record on its own is not one that is written with the operations; a deploy unlocks when it has migrated; and the check of
the session never fails. -/
def Stage.IsSound (executor : Executor) : Stage → Prop
  | .recording migration _ => executor.recordsWithin migration = false
  | .unlocking outcome => outcome.hasMigrated = true
  | .finished outcome => outcome ≠ .lockNotHeldHere
  | _ => True

theorem act_isSound (h : d.stage.IsSound executor) (hconfirming : d.stage = .confirming → env.backend ∈ db.lock) :
    (d.act executor number env db).2.IsSound executor := by
  unfold Deploy.act
  cases hstage : d.stage with
  | connecting deadline attempt =>
    simp only [waitForDatabase]
    split_ifs <;> simp [leave, Stage.IsSound]
  | planning =>
    simp only [plan]
    split_ifs <;> simp [leave, Stage.IsSound]
  | locking deadline =>
    simp only [tryAdvisoryLock]
    split
    · trivial
    · split_ifs <;> simp [leave, Stage.IsSound]
  | confirming =>
    simp only [requireARealSession, if_pos (hconfirming hstage)]
    trivial
  | loading =>
    simp only [load]
    split_ifs
    · trivial
    · rfl
  | migrating next =>
    simp only [migrate]
    by_cases hsucceeds : env.succeeds = true
    · rw [if_neg (not_not.mpr hsucceeds)]
      cases next with
      | nil => rfl
      | cons migration rest =>
        dsimp only
        split_ifs with hwithin
        · trivial
        · exact eq_false_of_ne_true hwithin
    · rw [if_pos hsucceeds]
      rfl
  | recording migration rest =>
    simp only [recordApplied]
    split_ifs
    · trivial
    · rfl
  | unlocking outcome =>
    rw [hstage] at h
    intro heq
    subst heq
    cases h
  | finished outcome =>
    rw [hstage] at h
    exact h
  | stopped => trivial

/-- Every deploy is at a stage that is sound. -/
def System.IsSound (executor : Executor) (s : System) : Prop :=
  ∀ (number : Nat) (d : Deploy), s.deploys[number]? = some d → d.stage.IsSound executor

theorem System.IsSound.put (h : s.IsSound executor) (hnumber : s.deploys[number]? = some d) (hstage : stage.IsSound executor) :
    (s.put number d db stage).IsSound executor := by
  intro other e hother
  rw [getElem?_put hnumber] at hother
  split_ifs at hother
  · rw [← Option.some.inj hother]
    exact hstage
  · exact h other e hother

theorem System.IsSound.step (h : s.IsSound executor) (hlocked : Locked s) {event : Event} (hdirect : event.IsDirect) :
    (step executor s event).IsSound executor := by
  cases event with
  | start release options now =>
    intro number d hnumber
    obtain hold | rfl := deploys_start hnumber
    · exact h number d hold
    · trivial
  | act number env =>
    rw [Deployments.step]
    cases hnumber : s.deploys[number]? with
    | none => exact h
    | some d =>
      refine h.put hnumber (act_isSound (h number d hnumber) fun hconfirming => ?_)
      have hinside : d.stage.isInside = true := by rw [hconfirming]; rfl
      have hbackend : env.backend = number := hdirect
      rw [hbackend]
      exact (hlocked.held number).mpr ⟨d, hnumber, hinside⟩
  | stop number =>
    rw [Deployments.step]
    cases hnumber : s.deploys[number]? with
    | none => exact h
    | some d =>
      dsimp only
      split_ifs
      · exact h
      · exact h.put hnumber trivial

theorem isSound_idle (applied : List Migration) : (idle applied).IsSound executor := by
  intro number d hnumber
  simp [idle] at hnumber

theorem isSound_final (hexecutor : executor.IsSound) (applied : List Migration) (hdirect : ∀ event ∈ run, event.IsDirect) :
    (final (step executor) (idle applied) run).IsSound executor := by
  induction run using List.reverseRecOn with
  | nil => exact isSound_idle applied
  | append_singleton run event ih =>
    have hearlier : ∀ event ∈ run, event.IsDirect := fun event hevent => hdirect event (List.mem_append_left _ hevent)
    rw [final_append]
    exact (ih hearlier).step (locked_and_serialised hexecutor applied hearlier).1
      (hdirect event (List.mem_append_right _ List.mem_cons_self))

theorem recordings_eq_zero {recorded : Migration} (h : stage.IsSound executor) (hwithin : executor.recordsWithin recorded = true) :
    stage.recordings recorded = 0 := by
  cases stage with
  | recording migration rest =>
    rw [recordings_recording, if_neg]
    intro heq
    rw [heq] at h
    exact absurd (hwithin.symm.trans h) (by simp)
  | _ => rfl

theorem interruptions_eq_zero (h : s.IsSound executor) (hwithin : executor.recordsWithin migration = true) (event : Event) :
    s.interruptions migration event = 0 := by
  have hnone : ∀ number, s.recordingsOf migration number = 0 := by
    intro number
    rw [System.recordingsOf]
    cases hnumber : s.deploys[number]? with
    | none => rfl
    | some d => exact recordings_eq_zero (h number d hnumber) hwithin
  cases event with
  | start release options now => rfl
  | act number env => rw [System.interruptions, hnone, ite_self]
  | stop number => exact hnone number

theorem System.IsSound.recordings_eq_zero (h : s.IsSound executor) (hwithin : executor.recordsWithin migration = true) :
    s.recordings migration = 0 := by
  rw [System.recordings, List.countP_eq_zero]
  intro d hd hrecording
  obtain ⟨number, hnumber⟩ := List.mem_iff_getElem?.mp hd
  have hzero := Deployments.recordings_eq_zero (h number d hnumber) hwithin
  rw [Stage.recordings, if_pos hrecording] at hzero
  cases hzero

theorem total_interruptions (hlocked : Locked s) (hsound : s.IsSound executor) (hdirect : ∀ event ∈ run, event.IsDirect)
    (hwithin : executor.recordsWithin migration = true) : total (step executor) (System.interruptions migration) s run = 0 := by
  induction run generalizing s with
  | nil => rfl
  | cons event run ih =>
    have hfirst : event.IsDirect := hdirect event List.mem_cons_self
    rw [total, interruptions_eq_zero hsound hwithin, Nat.zero_add]
    exact ih (hlocked.step executor hfirst) (hsound.step hlocked hfirst)
      fun event hevent => hdirect event (List.mem_cons_of_mem _ hevent)

/-! ### Runs -/

/-- However the steps of the deploys are interleaved, and wherever they are stopped: no two of them are ever inside, and the
records are those of their turns, one after another. -/
theorem deploys_take_turns (hexecutor : executor.IsSound) (applied : List Migration) (run : List Event)
    (hdirect : ∀ event ∈ run, event.IsDirect) :
    Throughout (step executor) (fun s => ∀ (number other : Nat) (d e : Deploy), s.deploys[number]? = some d →
      s.deploys[other]? = some e → d.stage.isInside = true → e.stage.isInside = true → other = number) (idle applied) run ∧
    ∃ turns : List Turn, (final (step executor) (idle applied) run).database.applied = serial executor applied turns ∧
      (turns.map Turn.number).Nodup ∧ ∀ turn ∈ turns, ∃ d,
        (final (step executor) (idle applied) run).deploys[turn.number]? = some d ∧ d.release = turn.release := by
  obtain ⟨-, turns, h⟩ := locked_and_serialised hexecutor applied hdirect
  refine ⟨?_, turns, h.applied_eq, h.nodup, fun turn hturn => ?_⟩
  · rw [throughout_iff_earlier]
    intro earlier hearlier number other d e hnumber hother hd he
    have hlocked := (locked_and_serialised hexecutor applied fun event hevent => hdirect event (hearlier.subset hevent)).1
    exact hlocked.eq_of_isInside hnumber hother hd he
  · obtain ⟨d, hd, hrelease, -⟩ := h.loaded turn hturn
    exact ⟨d, hd, hrelease⟩

/-- A plan in the order of the release, where the index of the search is made outside a transaction. -/
def listed : Executor where
  migrationPlan release applied := release.migrations.filter fun migration => migration ∉ applied
  recordsWithin migration := decide (migration ≠ ⟨"catalog", "0005_search_vector"⟩)

theorem listed_isSound : listed.IsSound where
  mem release applied migration h := by
    have hmem := List.mem_filter.mp h
    exact ⟨hmem.1, of_decide_eq_true hmem.2⟩
  nodup release _ := release.nodup.filter _
  mono release applied applied' h hsubset := by
    rw [listed, List.filter_eq_nil_iff] at h ⊢
    intro migration hmigration hnew
    refine h migration hmigration (decide_eq_true fun happlied => ?_)
    exact of_decide_eq_true hnew (hsubset happlied)
  complete release applied _ migration hmigration hnew := List.mem_filter.mpr ⟨hmigration, decide_eq_true hnew⟩

/-- What an earlier release of the catalogue has applied. -/
def earlierMigrations : List Migration :=
  [⟨"catalog", "0001_initial"⟩, ⟨"catalog", "0002_coursereviewevent"⟩, ⟨"catalog", "0003_section_lesson_and_more"⟩]

def searchable : Release where
  migrations := earlierMigrations ++
    [⟨"catalog", "0004_review_events_record_submissions"⟩, ⟨"catalog", "0005_search_vector"⟩]
  dependencies :=
    [(⟨"catalog", "0002_coursereviewevent"⟩, ⟨"catalog", "0001_initial"⟩),
      (⟨"catalog", "0003_section_lesson_and_more"⟩, ⟨"catalog", "0002_coursereviewevent"⟩),
      (⟨"catalog", "0004_review_events_record_submissions"⟩, ⟨"catalog", "0003_section_lesson_and_more"⟩),
      (⟨"catalog", "0005_search_vector"⟩, ⟨"catalog", "0004_review_events_record_submissions"⟩)]
  nodup := by decide

/-- The statements of a deploy, each of which succeeds. -/
def acts (number count : Nat) : List Event := List.replicate count (.act number { backend := number })

/-- Two deploys of it. The first is stopped when it has come half way, and the second does the rest. -/
def takenOver : List Event :=
  [.start searchable {} 0, .start searchable {} 0] ++ acts 0 2 ++ acts 1 2 ++ acts 0 4 ++ [.stop 0] ++ acts 1 7

theorem deploys_take_turns_takenOver : ∃ turns : List Turn,
    (final (step listed) (idle earlierMigrations) takenOver).database.applied = serial listed earlierMigrations turns ∧
      (turns.map Turn.number).Nodup ∧ ∀ turn ∈ turns, ∃ d,
        (final (step listed) (idle earlierMigrations) takenOver).deploys[turn.number]? = some d ∧ d.release = turn.release :=
  (deploys_take_turns listed_isSound earlierMigrations takenOver (by decide)).2

/-- Behind a pooler that gives both the same backend they are inside together: the lock is granted to it twice, and the check
finds it held. -/
example : ((final (step listed) (idle earlierMigrations) ([.start searchable {} 0, .start searchable {} 0] ++
    [0, 0, 0, 0, 0, 1, 1, 1, 1, 1].map fun number => .act number { backend := 7 })).deploys.map fun d => d.stage.remaining) =
      [some (searchable.migrations.drop 3), some (searchable.migrations.drop 3)] := by decide

/-- A migration is executed when it is recorded, and once more for each time a deploy came to an end between the two; one that
is recorded in the transaction of its operations leaves nothing between them. -/
theorem executions (hexecutor : executor.IsSound) (hnodup : applied.Nodup) (run : List Event)
    (hdirect : ∀ event ∈ run, event.IsDirect) (migration : Migration) :
    (final (step executor) (idle applied) run).database.executed.count migration =
        (if migration ∈ (final (step executor) (idle applied) run).database.applied ∧ migration ∉ applied then 1 else 0) +
          (final (step executor) (idle applied) run).recordings migration +
            total (step executor) (System.interruptions migration) (idle applied) run ∧
      (executor.recordsWithin migration = true → (final (step executor) (idle applied) run).recordings migration = 0 ∧
        total (step executor) (System.interruptions migration) (idle applied) run = 0) := by
  obtain ⟨-, turns, h⟩ := locked_and_serialised hexecutor applied hdirect
  have hprefix : applied <+: (final (step executor) (idle applied) run).database.applied := by
    rw [h.applied_eq]
    exact prefix_serial applied turns
  have hnodup' : (final (step executor) (idle applied) run).database.applied.Nodup := by
    rw [h.applied_eq]
    exact nodup_serial hexecutor hnodup turns
  refine ⟨?_, fun hwithin => ?_⟩
  · have hcount := executed_final executor applied run migration
    have hmono : migration ∈ applied → migration ∈ (final (step executor) (idle applied) run).database.applied :=
      fun hmem => hprefix.subset hmem
    rw [hnodup.count, hnodup'.count] at hcount
    by_cases hbefore : migration ∈ applied
    · rw [if_pos hbefore, if_pos (hmono hbefore)] at hcount
      rw [if_neg fun h => h.2 hbefore]
      omega
    · rw [if_neg hbefore] at hcount
      simp only [hbefore, not_false_eq_true, and_true]
      omega
  · exact ⟨(isSound_final hexecutor applied hdirect).recordings_eq_zero hwithin,
      total_interruptions (locked_idle applied) (isSound_idle applied) hdirect hwithin⟩

/-- The first deploy is stopped when the column is added and not recorded, and the second fails where it adds it again. -/
def addedTwice : List Event :=
  [.start searchable {} 0, .start searchable {} 0] ++ acts 0 2 ++ acts 1 2 ++ acts 0 5 ++ [.stop 0] ++ acts 1 3 ++
    [.act 1 { backend := 1, succeeds := false }] ++ acts 1 1

theorem executions_addedTwice : (final (step listed) (idle earlierMigrations) addedTwice).database.executed.count
    ⟨"catalog", "0005_search_vector"⟩ = 1 :=
  (executions listed_isSound (by decide) addedTwice (by decide) ⟨"catalog", "0005_search_vector"⟩).1.trans (by decide)

/-- What a deploy has said stays true: that nothing was left to plan for it, that its release is applied, or that it has not come
to migrate. It never finds its lock with another session. -/
theorem finished_means (hexecutor : executor.IsSound) (applied : List Migration) (run : List Event)
    (hdirect : ∀ event ∈ run, event.IsDirect) :
    ∃ turns : List Turn, (final (step executor) (idle applied) run).database.applied = serial executor applied turns ∧
      ∀ (number : Nat) (d : Deploy) (outcome : Outcome),
        (final (step executor) (idle applied) run).deploys[number]? = some d → d.stage = .finished outcome →
          outcome ≠ .lockNotHeldHere ∧
          (outcome = .noMigrationsToApply → executor.migrationPlan d.release
            (final (step executor) (idle applied) run).database.applied = []) ∧
          (outcome = .migrationsApplied →
            d.release.migrations ⊆ (final (step executor) (idle applied) run).database.applied) ∧
          (outcome.hasMigrated = false → number ∉ turns.map Turn.number) := by
  obtain ⟨-, turns, h⟩ := locked_and_serialised hexecutor applied hdirect
  refine ⟨turns, h.applied_eq, fun number d outcome hnumber hstage => ?_⟩
  have hsaid := h.isTrue hnumber
  rw [hstage] at hsaid
  refine ⟨?_, fun hnothing => ?_, fun happlied => ?_, fun hmigrated hmem => ?_⟩
  · have hsound := isSound_final hexecutor applied hdirect number d hnumber
    rw [hstage] at hsound
    exact hsound
  · subst hnothing
    exact hsaid
  · subst happlied
    exact hsaid
  · obtain ⟨turn, hturn, heq⟩ := List.mem_map.mp hmem
    obtain ⟨d', hd', -, hloaded⟩ := h.loaded turn hturn
    rw [heq, hnumber] at hd'
    rw [← Option.some.inj hd', hstage] at hloaded
    exact absurd (hloaded.symm.trans hmigrated) (by simp)

theorem finished_means_takenOver :
    searchable.migrations ⊆ (final (step listed) (idle earlierMigrations) takenOver).database.applied := by
  obtain ⟨_, _, h⟩ := finished_means listed_isSound earlierMigrations takenOver (by decide)
  exact (h 1 ⟨searchable, {}, .finished .migrationsApplied⟩ .migrationsApplied (by decide) rfl).2.2.1 rfl

/-- A deploy that is stopped or fails leaves no lock behind: who tries for it gets it, except while another is inside. -/
theorem lock_granted_iff (hexecutor : executor.IsSound) (applied : List Migration) (run : List Event)
    (hdirect : ∀ event ∈ run, event.IsDirect) {deadline : Int}
    (hnumber : (final (step executor) (idle applied) run).deploys[number]? = some d) (hstage : d.stage = .locking deadline)
    (hbackend : env.backend = number) :
    (d.act executor number env (final (step executor) (idle applied) run).database).2 = .confirming ↔
      ∀ (other : Nat) (e : Deploy),
        (final (step executor) (idle applied) run).deploys[other]? = some e → e.stage.isInside = false := by
  have hlocked := (locked_and_serialised hexecutor applied hdirect).1
  have houtside : number ∉ (final (step executor) (idle applied) run).database.lock := by
    rw [hlocked.held number]
    intro hheld
    obtain ⟨d', hd', hinside⟩ := hheld
    rw [hnumber] at hd'
    rw [← Option.some.inj hd', hstage] at hinside
    cases hinside
  have honly : SessionLock.OnlyOf number (final (step executor) (idle applied) run).database.lock ↔
      ∀ other, other ∉ (final (step executor) (idle applied) run).database.lock :=
    ⟨fun h other hother => houtside (h other hother ▸ hother), fun h other hother => absurd hother (h other)⟩
  calc (d.act executor number env (final (step executor) (idle applied) run).database).2 = .confirming
      ↔ SessionLock.OnlyOf number (final (step executor) (idle applied) run).database.lock := by
        simp only [Deploy.act, hstage, tryAdvisoryLock, hbackend]
        by_cases h : SessionLock.OnlyOf number (final (step executor) (idle applied) run).database.lock
        · rw [SessionLock.tryLock_of_onlyOf h]
          exact iff_of_true rfl h
        · rw [SessionLock.tryLock_of_not_onlyOf h]
          refine iff_of_false ?_ h
          dsimp only
          split_ifs <;> simp [leave]
    _ ↔ ∀ other, other ∉ (final (step executor) (idle applied) run).database.lock := honly
    _ ↔ _ := by
        refine forall_congr' fun other => ?_
        rw [hlocked.held other]
        simp

theorem lock_granted_iff_takenOver : (Deploy.act listed ⟨searchable, {}, .locking 300⟩ 1 { backend := 1 }
      (final (step listed) (idle earlierMigrations) (takenOver.take 11)).database).2 = .confirming ↔
    ∀ (other : Nat) (e : Deploy),
      (final (step listed) (idle earlierMigrations) (takenOver.take 11)).deploys[other]? = some e → e.stage.isInside = false :=
  lock_granted_iff listed_isSound earlierMigrations (takenOver.take 11) (by decide) (by decide) rfl rfl

end EPlatform.Deployments
