import EPlatform.Catalog.Services
import EPlatform.Runs.Interleaving

/-!
# Publication under concurrency

Any number of edits and transitions of one course, each acting on a copy loaded earlier by its caller. The store keeps,
beside the rows, every committed change of the status and the operation that made it.
-/

namespace EPlatform.Catalog

open Runs
open Notifications (Notice)

inductive Operation
  | update (edit : CourseEdit)
  | submitForReview
  | approve (decision : Decision)
  | reject (decision : Decision)
  | requestChanges (decision : Decision)
  | archive
  deriving DecidableEq, Repr

def Operation.isApproval : Operation → Bool
  | .approve _ => true
  | _ => false

structure Request where
  operation : Operation
  actor : User
  deriving DecidableEq, Repr

/-- An operation on the copy its caller loaded. -/
structure Flight where
  operation : Operation
  course : Course
  actor : User
  deriving DecidableEq, Repr

/-- The clock, the other courses' slugs and the instructor's address at a commit. -/
structure Env where
  now : Instant
  takenSlugs : List String
  instructorEmail : String
  deriving DecidableEq, Repr

/-- What the service writes, and what it registers for after the commit. -/
def Flight.call (env : Env) (rows : Rows) (flight : Flight) : Except Error (Rows × Option Notice) :=
  match flight.operation with
  | .update edit => (updateCourse flight.course flight.actor edit env.takenSlugs env.now rows).map (·, none)
  | .submitForReview =>
    (Catalog.submitForReview flight.course flight.actor env.instructorEmail env.now rows).map (Prod.map id some)
  | .approve decision =>
    (Catalog.approve flight.course flight.actor env.instructorEmail decision env.now rows).map (Prod.map id some)
  | .reject decision =>
    (Catalog.reject flight.course flight.actor env.instructorEmail decision env.now rows).map (Prod.map id some)
  | .requestChanges decision =>
    (Catalog.requestChanges flight.course flight.actor env.instructorEmail decision env.now rows).map (Prod.map id some)
  | .archive => (Catalog.archive flight.course flight.actor env.now rows).map (·, none)

def Flight.transaction (env : Env) (rows : Rows) (flight : Flight) : Except Error Rows :=
  (flight.call env rows).map Prod.fst

/-- A committed change of the status: what made it, and the review events it wrote. -/
structure Change where
  source : CourseStatus
  target : CourseStatus
  operation : Operation
  events : List CourseReviewEvent
  deriving DecidableEq, Repr

structure Trail where
  db : Database
  changes : List Change
  deriving DecidableEq

def commit (env : Env) (flight : Flight) (s : Trail) : Trail :=
  let db := s.db.settle (flight.transaction env s.db.rows)
  let change : Change :=
    { source := s.db.rows.course.status
      target := db.rows.course.status
      operation := flight.operation
      events := db.rows.reviewEvents.drop s.db.rows.reviewEvents.length }
  ⟨db, if change.target = change.source then s.changes else s.changes ++ [change]⟩

def publishing : Protocol Trail Flight Request Env where
  load request s := some ⟨request.operation, s.db.rows.course, request.actor⟩
  act env flight s := (commit env flight s, none)

/-- Every change of status is a legal move, and a published course was put there by an approval that is on record. -/
structure PublishedThroughReview (s : Trail) : Prop where
  moves : ∀ change ∈ s.changes, (change.source, change.target) ∈ ALLOWED_TRANSITIONS
  publication : s.db.rows.course.status = .published → ∃ change, s.changes.getLast? = some change ∧
    change.operation.isApproval ∧ ∃ event ∈ change.events, event.action = .approved ∧ event ∈ s.db.rows.reviewEvents

instance : DecidablePred PublishedThroughReview := fun s =>
  decidable_of_iff
    ((∀ change ∈ s.changes, (change.source, change.target) ∈ ALLOWED_TRANSITIONS) ∧
      (s.db.rows.course.status = .published → ∃ change ∈ s.changes.getLast?, change.operation.isApproval ∧
        ∃ event ∈ change.events, event.action = .approved ∧ event ∈ s.db.rows.reviewEvents))
    ⟨fun ⟨hmoves, hpublication⟩ => ⟨hmoves, hpublication⟩, fun ⟨hmoves, hpublication⟩ => ⟨hmoves, hpublication⟩⟩

/-- The status an operation writes. The editor writes back the one it loaded. -/
def Flight.target (flight : Flight) : CourseStatus :=
  match flight.operation with
  | .update _ => flight.course.status
  | .submitForReview => .inReview
  | .approve _ => .published
  | .reject _ => .draft
  | .requestChanges _ => .draft
  | .archive => .archived

/-- The service returns and the constraints accept what it wrote. -/
def Accepted (env : Env) (flight : Flight) : Prop :=
  match flight.operation with
  | .update edit =>
    flight.course.instructor = flight.actor.pk ∧ (edit.apply flight.course).slug ∉ env.takenSlugs ∧
      (edit.apply flight.course).Valid
  | .submitForReview =>
    flight.course.instructor = flight.actor.pk ∧ (flight.course.status, flight.target) ∈ ALLOWED_TRANSITIONS
  | .archive => flight.actor.role = .admin ∧ (flight.course.status, flight.target) ∈ ALLOWED_TRANSITIONS
  | _ =>
    flight.actor.role = .admin ∧ (flight.course.status, flight.target) ∈ ALLOWED_TRANSITIONS ∧
      flight.actor.email ≠ ""

/-- An operation accepted on a copy whose status is no longer the stored one writes the stored status, or one that is a
legal move away and not `published` unless it is an approval. -/
def HarmlessWhenStale (env : Env) (flight : Flight) (s : Trail) : Prop :=
  Accepted env flight → flight.course.status ≠ s.db.rows.course.status →
    flight.target = s.db.rows.course.status ∨
      (s.db.rows.course.status, flight.target) ∈ ALLOWED_TRANSITIONS ∧
        (flight.target = .published → flight.operation.isApproval)

/-! ### What a commit does to the status -/

/-- A service that returns has written its target status and added its own review events. -/
structure Wrote (flight : Flight) (rows rows' : Rows) : Prop where
  status : rows'.course.status = flight.target
  events : ∃ written, rows'.reviewEvents = rows.reviewEvents ++ written ∧
    (flight.operation.isApproval → ∃ event ∈ written, event.action = .approved)

/-- The rows of a service that registers a notice. -/
theorem map_fst_noted (x : Except Error (Rows × Notice)) : (x.map (Prod.map id some)).map Prod.fst = x.map Prod.fst := by
  cases x <;> rfl

theorem map_fst_quiet (x : Except Error Rows) : (x.map (·, (none : Option Notice))).map Prod.fst = x := by
  cases x <;> rfl

theorem transaction_wrote {env : Env} {flight : Flight} {rows rows' : Rows}
    (h : flight.transaction env rows = .ok rows') : Wrote flight rows rows' := by
  obtain ⟨operation, course, actor⟩ := flight
  cases operation with
  | update edit =>
    rw [Flight.transaction, Flight.call, map_fst_quiet] at h
    obtain ⟨-, -, rfl⟩ := updateCourse_ok.mp h
    exact ⟨rfl, [], (List.append_nil _).symm, by simp [Operation.isApproval]⟩
  | submitForReview =>
    rw [Flight.transaction, Flight.call, map_fst_noted] at h
    obtain ⟨_, hok, rfl⟩ := map_eq_ok.mp h
    obtain ⟨-, -, rfl⟩ := submitForReview_ok.mp hok
    exact ⟨rfl, _, rfl, by simp [Operation.isApproval]⟩
  | approve decision =>
    rw [Flight.transaction, Flight.call, map_fst_noted] at h
    obtain ⟨_, hok, rfl⟩ := map_eq_ok.mp h
    obtain ⟨-, -, hrecord, -⟩ := approve_ok.mp hok
    obtain ⟨-, -, hwritten⟩ := recordReview_ok.mp hrecord
    rw [hwritten]
    exact ⟨rfl, _, rfl, by simp⟩
  | reject decision | requestChanges decision =>
    rw [Flight.transaction, Flight.call, map_fst_noted] at h
    obtain ⟨_, hok, rfl⟩ := map_eq_ok.mp h
    obtain ⟨-, -, hrecord, -⟩ := returnToDraft_ok.mp hok
    obtain ⟨-, -, hwritten⟩ := recordReview_ok.mp hrecord
    rw [hwritten]
    exact ⟨rfl, _, rfl, by simp [Operation.isApproval]⟩
  | archive =>
    rw [Flight.transaction, Flight.call, map_fst_quiet] at h
    obtain ⟨-, -, rfl⟩ := archive_ok.mp h
    exact ⟨rfl, [], (List.append_nil _).symm, by simp [Operation.isApproval]⟩

theorem savePublication_valid {rows : Rows} {status : CourseStatus} {publishedAt : Option Instant} (now : Instant)
    (hrows : rows.Valid) (hdate : status = .published → publishedAt.isSome) :
    (rows.savePublication status publishedAt now).Valid :=
  ⟨hdate, hrows.slug, hrows.title⟩

theorem saveStatus_valid {rows : Rows} {status : CourseStatus} (now : Instant) (hrows : rows.Valid)
    (hstatus : status ≠ .published) : (rows.saveStatus status now).Valid :=
  ⟨fun h => absurd h hstatus, hrows.slug, hrows.title⟩

@[simp] theorem addReviewEvent_valid {rows : Rows} {actor : User} {action : ReviewEventAction} {notes : String}
    {now : Instant} : (rows.addReviewEvent actor action notes now).Valid ↔ rows.Valid := Iff.rfl

theorem saveCourse_valid {rows : Rows} {course : Course} {now : Instant} :
    (refreshSearchVector (rows.saveCourse course now)).Valid ↔ course.Valid := by
  constructor
  · rintro ⟨hdate, hslug, htitle⟩
    exact ⟨hdate, hslug, htitle⟩
  · rintro ⟨hdate, hslug, htitle⟩
    exact ⟨hdate, hslug, htitle⟩

theorem commits_noted {x : Except Error (Rows × Notice)} :
    Database.Commits Rows.Valid (x.map Prod.fst) ↔ ∃ written, x = .ok written ∧ written.1.Valid := by
  cases x with
  | error e => simp [Except.map, Database.Commits]
  | ok written => simp [Except.map, Database.Commits]

/-- A review decision always finds a reason to record. -/
theorem returnToDraft_commits {course : Course} {actor : User} {instructorEmail : String} {action : ReturnAction}
    {decision : Decision} {now : Instant} {rows : Rows} (hrows : rows.Valid) :
    Database.Commits Rows.Valid ((returnToDraft course actor instructorEmail action decision now rows).map Prod.fst) ↔
      actor.role = .admin ∧ (course.status, .draft) ∈ ALLOWED_TRANSITIONS ∧ actor.email ≠ "" := by
  have hdraft : (rows.savePublication .draft none now).Valid := savePublication_valid now hrows (by simp)
  rw [commits_noted]
  constructor
  · rintro ⟨written, hok, -⟩
    obtain ⟨hadmin, hmove, hrecord, -⟩ := returnToDraft_ok.mp hok
    exact ⟨hadmin, hmove, (recordReview_ok.mp hrecord).1⟩
  · rintro ⟨hadmin, hmove, hlabel⟩
    have hreason : strip (reasonOr decision.notes "Returned to draft with no notes recorded") ≠ "" :=
      strip_reasonOr (by decide)
    exact ⟨(_, _), returnToDraft_ok.mpr ⟨hadmin, hmove, recordReview_ok.mpr ⟨hlabel, hreason, rfl⟩, rfl⟩, hdraft⟩

theorem approve_commits {course : Course} {actor : User} {instructorEmail : String} {decision : Decision} {now : Instant}
    {rows : Rows} (hrows : rows.Valid) :
    Database.Commits Rows.Valid ((approve course actor instructorEmail decision now rows).map Prod.fst) ↔
      actor.role = .admin ∧ (course.status, .published) ∈ ALLOWED_TRANSITIONS ∧ actor.email ≠ "" := by
  have hpublished : (rows.savePublication .published (some now) now).Valid := savePublication_valid now hrows (by simp)
  rw [commits_noted]
  constructor
  · rintro ⟨written, hok, -⟩
    obtain ⟨hadmin, hmove, hrecord, -⟩ := approve_ok.mp hok
    exact ⟨hadmin, hmove, (recordReview_ok.mp hrecord).1⟩
  · rintro ⟨hadmin, hmove, hlabel⟩
    have hreason : strip (reasonOr decision.notes "Approved with no notes recorded") ≠ "" := strip_reasonOr (by decide)
    exact ⟨(_, _), approve_ok.mpr ⟨hadmin, hmove, recordReview_ok.mpr ⟨hlabel, hreason, rfl⟩, rfl⟩, hpublished⟩

theorem submitForReview_commits {course : Course} {actor : User} {instructorEmail : String} {now : Instant} {rows : Rows}
    (hrows : rows.Valid) :
    Database.Commits Rows.Valid ((submitForReview course actor instructorEmail now rows).map Prod.fst) ↔
      course.instructor = actor.pk ∧ (course.status, .inReview) ∈ ALLOWED_TRANSITIONS := by
  have hvalid : (rows.saveStatus .inReview now).Valid := saveStatus_valid now hrows (by decide)
  rw [commits_noted]
  constructor
  · rintro ⟨written, hok, -⟩
    obtain ⟨howner, hmove, -⟩ := submitForReview_ok.mp hok
    exact ⟨howner, hmove⟩
  · rintro ⟨howner, hmove⟩
    exact ⟨_, submitForReview_ok.mpr ⟨howner, hmove, rfl⟩, addReviewEvent_valid.mpr hvalid⟩

/-- An operation commits when it is accepted, whatever valid rows it finds. -/
theorem transaction_commits {env : Env} {flight : Flight} {rows : Rows} (hrows : rows.Valid) :
    Database.Commits Rows.Valid (flight.transaction env rows) ↔ Accepted env flight := by
  obtain ⟨operation, course, actor⟩ := flight
  cases operation with
  | update edit =>
    rw [Flight.transaction, Flight.call, map_fst_quiet]
    simp only [updateCourse, requireOwner, Database.commits_require_bind, Database.commits_pure, saveCourse_valid, Accepted]
  | submitForReview =>
    rw [Flight.transaction, Flight.call, map_fst_noted]
    exact submitForReview_commits hrows
  | approve decision =>
    rw [Flight.transaction, Flight.call, map_fst_noted]
    exact approve_commits hrows
  | reject decision | requestChanges decision =>
    rw [Flight.transaction, Flight.call, map_fst_noted]
    exact returnToDraft_commits hrows
  | archive =>
    have hvalid : (rows.savePublication .archived none env.now).Valid := savePublication_valid env.now hrows (by simp)
    rw [Flight.transaction, Flight.call, map_fst_quiet]
    simp only [archive, requireAdmin, requireTransition, Database.commits_require_bind, Database.commits_pure, hvalid,
      and_true, Accepted, Flight.target]

/-- On a copy whose status is the stored one, an accepted operation makes a legal move or none. -/
theorem accepted_current {env : Env} {flight : Flight} (haccepted : Accepted env flight) :
    flight.target = flight.course.status ∨ (flight.course.status, flight.target) ∈ ALLOWED_TRANSITIONS ∧
      (flight.target = .published → flight.operation.isApproval) := by
  obtain ⟨operation, course, actor⟩ := flight
  cases operation with
  | update edit => exact .inl rfl
  | submitForReview => exact .inr ⟨haccepted.2, by simp [Flight.target]⟩
  | approve decision => exact .inr ⟨haccepted.2.1, fun _ => rfl⟩
  | reject decision => exact .inr ⟨haccepted.2.1, by simp [Flight.target]⟩
  | requestChanges decision => exact .inr ⟨haccepted.2.1, by simp [Flight.target]⟩
  | archive => exact .inr ⟨haccepted.2, by simp [Flight.target]⟩

/-- Read off the stored status alone, an accepted operation is harmless when it moves legally or not at all. -/
theorem harmlessWhenStale_iff {env : Env} {flight : Flight} {s : Trail} (haccepted : Accepted env flight) :
    HarmlessWhenStale env flight s ↔
      flight.target = s.db.rows.course.status ∨
        (s.db.rows.course.status, flight.target) ∈ ALLOWED_TRANSITIONS ∧
          (flight.target = .published → flight.operation.isApproval) := by
  constructor
  · intro h
    by_cases hcurrent : flight.course.status = s.db.rows.course.status
    · rw [← hcurrent]
      exact accepted_current haccepted
    · exact h haccepted hcurrent
  · intro h _ _
    exact h

/-- A commit that changes the status keeps the story straight when the change is a legal move, and an approval if it
publishes. -/
theorem change_publishedThroughReview {s : Trail} (hs : PublishedThroughReview s) {flight : Flight} {db : Database}
    (hwrote : Wrote flight s.db.rows db.rows) :
    PublishedThroughReview ⟨db, s.changes ++ [⟨s.db.rows.course.status, db.rows.course.status, flight.operation,
        db.rows.reviewEvents.drop s.db.rows.reviewEvents.length⟩]⟩ ↔
      (s.db.rows.course.status, flight.target) ∈ ALLOWED_TRANSITIONS ∧
        (flight.target = .published → flight.operation.isApproval) := by
  obtain ⟨hstatus, written, hevents, happroved⟩ := hwrote
  have hwritten : db.rows.reviewEvents.drop s.db.rows.reviewEvents.length = written := by
    rw [hevents, List.drop_left]
  rw [hstatus, hwritten]
  constructor
  · intro h
    refine ⟨h.moves _ (List.mem_append_right _ (List.mem_singleton.mpr rfl)), fun htarget => ?_⟩
    obtain ⟨change, hlast, hchange, -⟩ := h.publication (hstatus.trans htarget)
    rw [List.getLast?_concat, Option.some.injEq] at hlast
    subst hlast
    exact hchange
  · rintro ⟨hallowed, hpublished⟩
    refine ⟨?_, fun hstored => ?_⟩
    · intro change hchange
      rcases List.mem_append.mp hchange with hold | hnew
      · exact hs.moves change hold
      · rw [List.mem_singleton.mp hnew]
        exact hallowed
    · have happroval := hpublished (hstatus.symm.trans hstored)
      obtain ⟨event, hevent, haction⟩ := happroved happroval
      refine ⟨_, List.getLast?_concat, happroval, event, hevent, haction, ?_⟩
      rw [hevents]
      exact List.mem_append_right _ hevent

/-- A commit keeps the story straight exactly when it is harmless on a stale copy. -/
theorem commit_publishedThroughReview (env : Env) (flight : Flight) {s : Trail} (hs : PublishedThroughReview s) :
    PublishedThroughReview (commit env flight s) ↔ HarmlessWhenStale env flight s := by
  by_cases hcommits : Database.Commits Rows.Valid (flight.transaction env s.db.rows)
  · have haccepted := (transaction_commits s.db.valid).mp hcommits
    have hwrote := transaction_wrote (Database.settle_of_commits s.db hcommits)
    rw [harmlessWhenStale_iff haccepted]
    by_cases hsame : flight.target = s.db.rows.course.status
    · simp only [commit, hwrote.status, hsame, if_true, true_or, iff_true]
      refine ⟨hs.moves, fun hpublished => ?_⟩
      obtain ⟨change, hlast, hchange, event, hevent, haction, hmem⟩ :=
        hs.publication (hsame.symm.trans (hwrote.status.symm.trans hpublished))
      obtain ⟨written, hevents, -⟩ := hwrote.events
      refine ⟨change, hlast, hchange, event, hevent, haction, ?_⟩
      rw [hevents]
      exact List.mem_append_left _ hmem
    · have hchanged : (s.db.settle (flight.transaction env s.db.rows)).rows.course.status ≠
          s.db.rows.course.status := by
        rw [hwrote.status]
        exact hsame
      simp only [commit, hchanged, if_false, hsame, false_or]
      exact change_publishedThroughReview hs hwrote
  · simp only [commit, Database.settle_of_not_commits hcommits, if_true]
    apply iff_of_true hs
    intro haccepted
    exact absurd ((transaction_commits s.db.valid).mpr haccepted) hcommits

/-- A course is published only through review in every committed state of exactly the runs that start so and whose
commits are harmless when stale. -/
theorem throughout_publishedThroughReview_iff (s : Trail) (run : List (Move Request Env)) :
    Throughout publishing.step (fun w => PublishedThroughReview w.store) (World.idle s) run ↔
      PublishedThroughReview s ∧ Along publishing.step (Protocol.Guarded HarmlessWhenStale) (World.idle s) run := by
  apply Protocol.throughout_iff_of_step
  intro s env flight hs
  exact commit_publishedThroughReview env flight hs

/-- A submitted course. -/
def submittedCourse : Trail where
  db :=
    { rows :=
        { course :=
            { pk := 3, slug := "spanish-a1", title := "Spanish A1", description := "", language := 1, level := .a1,
              skillAreas := [], instructor := 7, status := .inReview, publishedAt := none, searchVector := none,
              updatedAt := 0 }
          reviewEvents := [⟨3, 7, .submitted, "", 0⟩]
          auditLog := [] }
      valid := by decide }
  changes := [⟨.draft, .inReview, .submitForReview, [⟨3, 7, .submitted, "", 0⟩]⟩]

def titleEdit : CourseEdit := ⟨none, some "Spanish for beginners", none, none, none, none⟩

/-- The instructor opens the editor on a live course, an administrator archives it, and the edit is saved. -/
theorem stale_edit_republishes :
    ¬ Throughout publishing.step (fun w => PublishedThroughReview w.store) (World.idle submittedCourse)
      [.load ⟨.approve ⟨"", none⟩, ⟨8, "admin@example.test", .admin, false⟩⟩, .act 0 ⟨100, [], "teacher@example.test"⟩,
        .load ⟨.update titleEdit, ⟨7, "teacher@example.test", .instructor, false⟩⟩,
        .load ⟨.archive, ⟨8, "admin@example.test", .admin, false⟩⟩, .act 1 ⟨101, [], "teacher@example.test"⟩,
        .act 0 ⟨102, [], "teacher@example.test"⟩] := by
  decide

end EPlatform.Catalog
