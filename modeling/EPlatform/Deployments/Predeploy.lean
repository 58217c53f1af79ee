import EPlatform.Runs.Run
import EPlatform.Runs.SessionLocks

/-!
# The pre-deploy step

`manage.py predeploy`: wait for the database, see what is pending, take the lock, migrate. Several deploys run it at the
same time, each statement of theirs is a step of its own, and any of them may be stopped between two steps.

A deploy has its number for the session of its direct connection, and a session ends with the process that opened it. The
session a statement reaches is part of the step, so that a pooler may send it to another.
-/

namespace EPlatform.Deployments

open Runs

structure Migration where
  appLabel : String
  name : String
  deriving DecidableEq, Repr

def DEFAULT_DB_WAIT_SECONDS : Int := 60

def DEFAULT_LOCK_WAIT_SECONDS : Int := 300

structure Options where
  check : Bool := false
  dbWait : Int := DEFAULT_DB_WAIT_SECONDS
  lockWait : Int := DEFAULT_LOCK_WAIT_SECONDS
  deriving DecidableEq, Repr

/-- How the command ends. All but the first and the third are errors. -/
inductive Outcome
  | noMigrationsToApply
  | migrationsPending
  | migrationsApplied
  | databaseUnreachable (seconds : Int) (attempts : Nat)
  | lockHeldByAnother (seconds : Int)
  | lockNotHeldHere
  | migrationFailed
  deriving DecidableEq, Repr

/-- The statement that comes next. `recording` stands between the operations of a migration and its record, where the two are
not one transaction. -/
inductive Stage
  | connecting (deadline : Int) (attempt : Nat)
  | planning
  | locking (deadline : Int)
  | confirming
  | loading
  | migrating (plan : List Migration)
  | recording (migration : Migration) (plan : List Migration)
  | unlocking (outcome : Outcome)
  | finished (outcome : Outcome)
  | stopped
  deriving DecidableEq, Repr

/-- Everything an image comes with, and what depends on what of it. -/
structure Release where
  migrations : List Migration
  dependencies : List (Migration × Migration)
  nodup : migrations.Nodup
  deriving DecidableEq, Repr

/-- Nothing is recorded before what it depends on. -/
def Release.IsConsistent (release : Release) (applied : List Migration) : Prop :=
  ∀ dependency ∈ release.dependencies, dependency.1 ∈ applied → dependency.2 ∈ applied

instance (release : Release) (applied : List Migration) : Decidable (release.IsConsistent applied) :=
  inferInstanceAs (Decidable (∀ dependency ∈ release.dependencies, dependency.1 ∈ applied → dependency.2 ∈ applied))

/-- What the command uses of the executor: the plan to the leaves of a release where so much is recorded, and which migrations
are recorded in the transaction of their operations. -/
structure Executor where
  migrationPlan : Release → List Migration → List Migration
  recordsWithin : Migration → Bool

/-- What is known of a plan. It names each unapplied migration once at most; there is none once everything it leads to is
recorded; and a consistent history leaves nothing out of it. -/
structure Executor.IsSound (executor : Executor) : Prop where
  mem : ∀ release applied, ∀ migration ∈ executor.migrationPlan release applied,
    migration ∈ release.migrations ∧ migration ∉ applied
  nodup : ∀ release applied, (executor.migrationPlan release applied).Nodup
  mono : ∀ release applied applied', executor.migrationPlan release applied = [] → applied ⊆ applied' →
    executor.migrationPlan release applied' = []
  complete : ∀ release applied, release.IsConsistent applied → ∀ migration ∈ release.migrations, migration ∉ applied →
    migration ∈ executor.migrationPlan release applied

structure Deploy where
  release : Release
  options : Options
  stage : Stage
  deriving DecidableEq, Repr

/-- `applied` is what is recorded as applied, `executed` the migrations whose operations have run to their end, each as often as
they have, and `lock` the advisory lock. -/
structure Database where
  applied : List Migration := []
  executed : List Migration := []
  lock : SessionLock Nat := []
  deriving DecidableEq, Repr

/-- The database and the deploys, by number. -/
structure System where
  database : Database
  deploys : List Deploy := []
  deriving DecidableEq, Repr

/-- What a step finds: whether the database answers, the clock, the session its statement reaches, and whether `migrate` gets
through what it does. -/
structure Env where
  answers : Bool := true
  now : Int := 0
  backend : Nat
  succeeds : Bool := true
  deriving DecidableEq, Repr

namespace Database

variable (db : Database)

def endSession (session : Nat) : Database := { db with lock := SessionLock.endSession session db.lock }

def execute (migration : Migration) : Database := { db with executed := db.executed ++ [migration] }

def record (migration : Migration) : Database := { db with applied := db.applied ++ [migration] }

end Database

/-- The process ends, and its session with it. -/
def leave (number : Nat) (outcome : Outcome) (db : Database) : Database × Stage :=
  (db.endSession number, .finished outcome)

/-- One attempt of `_wait_for_database`. -/
def waitForDatabase (number : Nat) (options : Options) (deadline : Int) (attempt : Nat) (env : Env) (db : Database) :
    Database × Stage :=
  if env.answers then (db, .planning)
  else if deadline ≤ env.now then leave number (.databaseUnreachable options.dbWait (attempt + 1)) db
  else (db, .connecting deadline (attempt + 1))

section Executor

variable (executor : Executor)

/-- `_pending_migrations`, and what `handle` makes of them. -/
def plan (number : Nat) (release : Release) (options : Options) (env : Env) (db : Database) : Database × Stage :=
  if executor.migrationPlan release db.applied = [] then leave number .noMigrationsToApply db
  else if options.check then leave number .migrationsPending db
  else (db, .locking (env.now + options.lockWait))

/-- One attempt of `_Lock.__enter__`. -/
def tryAdvisoryLock (number : Nat) (options : Options) (deadline : Int) (env : Env) (db : Database) : Database × Stage :=
  match SessionLock.tryLock env.backend db.lock with
  | (true, lock) => ({ db with lock }, .confirming)
  | (false, _) =>
    if deadline ≤ env.now then leave number (.lockHeldByAnother options.lockWait) db else (db, .locking deadline)

/-- `_require_a_real_session`. It raises inside `__enter__`, so that nothing is unlocked. -/
def requireARealSession (number : Nat) (env : Env) (db : Database) : Database × Stage :=
  if env.backend ∈ db.lock then (db, .loading) else leave number .lockNotHeldHere db

/-- `migrate` looks at what is recorded, which it refuses where it is not consistent, and makes its plan. -/
def load (release : Release) (env : Env) (db : Database) : Database × Stage :=
  if env.succeeds ∧ release.IsConsistent db.applied then (db, .migrating (executor.migrationPlan release db.applied))
  else (db, .unlocking .migrationFailed)

/-- The next migration of the plan. -/
def migrate (next : List Migration) (env : Env) (db : Database) : Database × Stage :=
  if ¬ env.succeeds then (db, .unlocking .migrationFailed)
  else
    match next with
    | [] => (db, .unlocking .migrationsApplied)
    | migration :: rest =>
      if executor.recordsWithin migration then ((db.execute migration).record migration, .migrating rest)
      else (db.execute migration, .recording migration rest)

/-- The record of a migration whose operations are committed. -/
def recordApplied (migration : Migration) (rest : List Migration) (env : Env) (db : Database) : Database × Stage :=
  if env.succeeds then (db.record migration, .migrating rest) else (db, .unlocking .migrationFailed)

/-- The next step of a deploy. -/
def Deploy.act (d : Deploy) (number : Nat) (env : Env) (db : Database) : Database × Stage :=
  match d.stage with
  | .connecting deadline attempt => waitForDatabase number d.options deadline attempt env db
  | .planning => plan executor number d.release d.options env db
  | .locking deadline => tryAdvisoryLock number d.options deadline env db
  | .confirming => requireARealSession number env db
  | .loading => load executor d.release env db
  | .migrating next => migrate executor next env db
  | .recording migration rest => recordApplied migration rest env db
  | .unlocking outcome => leave number outcome { db with lock := SessionLock.unlock env.backend db.lock }
  | .finished outcome => (db, .finished outcome)
  | .stopped => (db, .stopped)

end Executor

inductive Event
  | start (release : Release) (options : Options) (now : Int)
  | act (number : Nat) (env : Env)
  | stop (number : Nat)
  deriving DecidableEq, Repr

def Stage.isOver : Stage → Bool
  | .finished _ | .stopped => true
  | _ => false

/-- A deploy is in place of what it was. -/
def System.put (s : System) (number : Nat) (d : Deploy) (database : Database) (stage : Stage) : System :=
  ⟨database, s.deploys.set number { d with stage }⟩

def step (executor : Executor) (s : System) : Event → System
  | .start release options now =>
    { s with deploys := s.deploys ++ [⟨release, options, .connecting (now + options.dbWait) 0⟩] }
  | .act number env =>
    match s.deploys[number]? with
    | none => s
    | some d => s.put number d (d.act executor number env s.database).1 (d.act executor number env s.database).2
  | .stop number =>
    match s.deploys[number]? with
    | none => s
    | some d => if d.stage.isOver then s else s.put number d (s.database.endSession number) .stopped

/-- Every statement of a deploy reaches the session the deploy has opened. -/
def Event.IsDirect : Event → Prop
  | .act number env => env.backend = number
  | _ => True

instance : DecidablePred Event.IsDirect
  | .start _ _ _ => inferInstanceAs (Decidable True)
  | .act number env => inferInstanceAs (Decidable (env.backend = number))
  | .stop _ => inferInstanceAs (Decidable True)

end EPlatform.Deployments
