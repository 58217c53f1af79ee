import EPlatform.Catalog.Publication
import EPlatform.Runs.Log
import EPlatform.Runs.Table

/-!
# The review trail of a catalogue

Every course with its status, its publication date, its review events and the administrative trail: four records of one
protocol. Calls are made one after the other, by anybody, on any course, and send their notices once they have committed.
-/

namespace EPlatform.Catalog

open Runs
open Notifications (Mail Notice NoticeError)

structure Catalogue where
  courses : List Course
  reviewEvents : List CourseReviewEvent
  auditLog : List AuditLog
  deriving DecidableEq, Repr

structure Catalogue.Valid (s : Catalogue) : Prop where
  courses : ∀ course ∈ s.courses, course.Valid
  primaryKeys : Table.Unique (·.pk) s.courses
  slugs : Table.Unique (·.slug) s.courses
  reviewedCourses : ∀ event ∈ s.reviewEvents, ∃ course ∈ s.courses, course.pk = event.course

instance Catalogue.Valid.decidable (s : Catalogue) : Decidable s.Valid :=
  decidable_of_iff
    ((∀ course ∈ s.courses, course.Valid) ∧ Table.Unique (·.pk) s.courses ∧ Table.Unique (·.slug) s.courses ∧
      ∀ event ∈ s.reviewEvents, ∃ course ∈ s.courses, course.pk = event.course)
    ⟨fun ⟨h₁, h₂, h₃, h₄⟩ => ⟨h₁, h₂, h₃, h₄⟩, fun ⟨h₁, h₂, h₃, h₄⟩ => ⟨h₁, h₂, h₃, h₄⟩⟩

/-- What an instructor says of a new course. -/
structure NewCourse where
  slug : String
  title : String
  description : String
  language : Nat
  level : Level
  skillAreas : List String
  deriving DecidableEq, Repr

/-- `create_course`, with the search vector refreshed. -/
def createCourse (pk : Uuid) (instructor : User) (new : NewCourse) (now : Instant) (s : Catalogue) : Catalogue :=
  { s with
    courses := s.courses ++
      [{ pk
         slug := new.slug
         title := new.title
         description := new.description
         language := new.language
         level := new.level
         skillAreas := new.skillAreas
         instructor := instructor.pk
         status := .draft
         publishedAt := none
         searchVector := some ⟨new.title, new.skillAreas, new.description⟩
         updatedAt := now }] }

/-- `instructorEmail` is `course.instructor.email`. -/
inductive Call
  | create (pk : Uuid) (instructor : User) (new : NewCourse) (now : Instant)
  | change (pk : Uuid) (request : Request) (now : Instant) (instructorEmail : String)
  deriving DecidableEq, Repr

inductive CallError
  | noSuchCourse
  | refused (e : Error)
  | integrityError
  | notice (e : NoticeError)
  deriving DecidableEq, Repr

def Catalogue.takenSlugs (s : Catalogue) (pk : Uuid) : List String := (s.courses.filter (·.pk ≠ pk)).map (·.slug)

/-- The course with both trails, as a service finds them. -/
def Catalogue.rowsOf (s : Catalogue) (course : Course) : Rows := ⟨course, s.reviewEvents, s.auditLog⟩

def Catalogue.put (s : Catalogue) (rows : Rows) : Catalogue :=
  ⟨Table.save (·.pk) rows.course s.courses, rows.reviewEvents, rows.auditLog⟩

/-- What the block of a service writes, and what it registers. A service acts on the course as it is stored. -/
def Call.block (s : Catalogue) : Call → Except CallError (Catalogue × Option Notice)
  | .create pk instructor new now => .ok (createCourse pk instructor new now s, none)
  | .change pk request now instructorEmail =>
    match Table.find (·.pk) pk s.courses with
    | none => .error .noSuchCourse
    | some course =>
      let flight : Flight := ⟨request.operation, course, request.actor⟩
      ((flight.call ⟨now, s.takenSlugs pk, instructorEmail⟩ (s.rowsOf course)).mapError .refused).map (Prod.map s.put id)

abbrev Catalogue.Database := Runs.Database Catalogue.Valid

/-- A call by itself: its block commits or leaves nothing, and the notice is sent after the commit. -/
def perform (mail : Mail) (call : Call) (db : Catalogue.Database) : Except CallError Unit × Catalogue.Database :=
  match call.block db.rows with
  | .error e => (.error e, db)
  | .ok (s, notice) =>
    if h : s.Valid then (notice.elim (.ok ()) fun notice => (notice.notify mail).mapError .notice, ⟨s, h⟩)
    else (.error .integrityError, db)

def operate (db : Catalogue.Database) (step : Call × Mail) : Catalogue.Database := (perform step.2 step.1 db).2

/-! ### One story -/

def Catalogue.trailOf (s : Catalogue) (pk : Uuid) : List CourseReviewEvent := about (·.course) pk s.reviewEvents

/-- The administrative action a decision is recorded as. A submission is not one. -/
def ReviewEventAction.audit : ReviewEventAction → Option AdminAction
  | .submitted => none
  | .approved => some .courseApproved
  | .rejected => some .courseRejected
  | .changesRequested => some .courseChangesRequested

/-- Who did what to which course, as the audit row of a decision has it. -/
structure Deed where
  actor : Uuid
  action : AdminAction
  targetType : String
  targetId : Uuid
  deriving DecidableEq, Repr

def AuditLog.deed (entry : AuditLog) : Deed := ⟨entry.actor, entry.action, entry.targetType, entry.targetId⟩

def CourseReviewEvent.deed (event : CourseReviewEvent) : Option Deed :=
  event.action.audit.map fun action => ⟨event.actor, action, "course", event.course⟩

def IsSubmission (event : CourseReviewEvent) : Prop := event.action = .submitted

instance : DecidablePred IsSubmission := fun event => inferInstanceAs (Decidable (event.action = .submitted))

def AwaitsDecision (trail : List CourseReviewEvent) : Prop := ∃ event ∈ trail.getLast?, IsSubmission event

instance : DecidablePred AwaitsDecision := fun trail => inferInstanceAs (Decidable (∃ event ∈ trail.getLast?, _))

/-- A trail starts with a submission, and every decision directly follows one. -/
structure DecidesSubmissions (trail : List CourseReviewEvent) : Prop where
  first : ∀ event ∈ trail.head?, IsSubmission event
  next : trail.IsChain fun earlier later => ¬ IsSubmission later → IsSubmission earlier

instance (trail : List CourseReviewEvent) : Decidable (DecidesSubmissions trail) :=
  decidable_of_iff
    ((∀ event ∈ trail.head?, IsSubmission event) ∧
      trail.IsChain fun earlier later => ¬ IsSubmission later → IsSubmission earlier)
    ⟨fun ⟨hfirst, hnext⟩ => ⟨hfirst, hnext⟩, fun ⟨hfirst, hnext⟩ => ⟨hfirst, hnext⟩⟩

structure CourseTellsOneStory (trail : List CourseReviewEvent) (course : Course) : Prop where
  dated : course.publishedAt.isSome ↔ course.status = .published
  submitted : course.status = .inReview ↔ AwaitsDecision trail
  decisions : DecidesSubmissions trail

instance (trail : List CourseReviewEvent) (course : Course) : Decidable (CourseTellsOneStory trail course) :=
  decidable_of_iff
    ((course.publishedAt.isSome ↔ course.status = .published) ∧ (course.status = .inReview ↔ AwaitsDecision trail) ∧
      DecidesSubmissions trail)
    ⟨fun ⟨h₁, h₂, h₃⟩ => ⟨h₁, h₂, h₃⟩, fun ⟨h₁, h₂, h₃⟩ => ⟨h₁, h₂, h₃⟩⟩

/-- Every course tells one story, and the audit rows are those of the decisions, one for each and in their order. -/
structure TellsOneStory (s : Catalogue) : Prop where
  courses : ∀ course ∈ s.courses, CourseTellsOneStory (s.trailOf course.pk) course
  audited : s.auditLog.map AuditLog.deed = s.reviewEvents.filterMap CourseReviewEvent.deed

instance (s : Catalogue) : Decidable (TellsOneStory s) :=
  decidable_of_iff
    ((∀ course ∈ s.courses, CourseTellsOneStory (s.trailOf course.pk) course) ∧
      s.auditLog.map AuditLog.deed = s.reviewEvents.filterMap CourseReviewEvent.deed)
    ⟨fun ⟨h₁, h₂⟩ => ⟨h₁, h₂⟩, fun ⟨h₁, h₂⟩ => ⟨h₁, h₂⟩⟩

def Operation.returnsToDraft : Operation → Bool
  | .reject _ => true
  | .requestChanges _ => true
  | _ => false

/-- No administrator rejects an archived course or requests changes to one. -/
def ReturnsUnarchived (s : Catalogue) : Call → Prop
  | .create .. => True
  | .change pk request .. =>
    request.operation.returnsToDraft → request.actor.role = .admin → request.actor.email ≠ "" →
      ∀ course ∈ Table.find (·.pk) pk s.courses, course.status ≠ .archived

/-- A call that raises changes no row. -/
def RaisesQuietly (db : Catalogue.Database) (step : Call × Mail) : Prop :=
  ∀ e, (perform step.2 step.1 db).1 = .error e → operate db step = db

/-- Every course tells one story in every state of the run, and no call of it raises after a change. -/
def TellsOneStoryThroughout (db : Catalogue.Database) (run : List (Call × Mail)) : Prop :=
  Throughout operate (fun db => TellsOneStory db.rows) db run ∧ Along operate RaisesQuietly db run

/-- Who is told what about an operation on a course. -/
def Operation.notice (course : Course) (instructorEmail : String) : Operation → Option Notice
  | .submitForReview => some (.submitted course.title instructorEmail)
  | .approve decision => some (.reviewed ⟨instructorEmail, course.title, "Approved", strip decision.notes⟩)
  | .reject decision => some (.reviewed ⟨instructorEmail, course.title, "Rejected", strip decision.notes⟩)
  | .requestChanges decision =>
    some (.reviewed ⟨instructorEmail, course.title, "Changes requested", strip decision.notes⟩)
  | .update _ | .archive => none

/-- The notice of an operation that its service accepts does not raise. -/
def ToldQuietly (s : Catalogue) : Call × Mail → Prop
  | (.create .., _) => True
  | (.change pk request now instructorEmail, mail) =>
    ∀ course ∈ Table.find (·.pk) pk s.courses,
      Accepted ⟨now, s.takenSlugs pk, instructorEmail⟩ ⟨request.operation, course, request.actor⟩ →
        ∀ notice ∈ request.operation.notice course instructorEmail, notice.Heard mail

/-! ### What a service writes -/

theorem decidesSubmissions_concat {trail : List CourseReviewEvent} {event : CourseReviewEvent} :
    DecidesSubmissions (trail ++ [event]) ↔
      DecidesSubmissions trail ∧ (¬ IsSubmission event → AwaitsDecision trail) := by
  cases hlast : trail.getLast? with
  | none =>
    rw [List.getLast?_eq_none_iff] at hlast
    subst hlast
    constructor
    · intro h
      have hsubmission : IsSubmission event := h.first event rfl
      exact ⟨⟨by simp, List.isChain_nil⟩, fun hnot => absurd hsubmission hnot⟩
    · intro ⟨_, hfollows⟩
      have hsubmission : IsSubmission event := by
        by_contra hnot
        simpa [AwaitsDecision] using hfollows hnot
      exact ⟨by simpa using hsubmission, List.isChain_singleton event⟩
  | some last =>
    have hne : trail ≠ [] := by
      rintro rfl
      cases hlast
    have hhead : (trail ++ [event]).head? = trail.head? := List.head?_append_of_ne_nil _ hne
    have hawaits : AwaitsDecision trail ↔ IsSubmission last := by simp [AwaitsDecision, hlast]
    rw [hawaits]
    constructor
    · intro ⟨hfirst, hnext⟩
      obtain ⟨hbefore, -, hjoin⟩ := List.isChain_append.mp hnext
      exact ⟨⟨hhead ▸ hfirst, hbefore⟩, hjoin last hlast event rfl⟩
    · intro ⟨⟨hfirst, hnext⟩, hfollows⟩
      refine ⟨hhead ▸ hfirst, List.isChain_append.mpr ⟨hnext, List.isChain_singleton event, ?_⟩⟩
      intro earlier hearlier later hlater
      rw [Option.mem_def, hlast, Option.some.injEq] at hearlier
      rw [List.head?_cons, Option.mem_def, Option.some.injEq] at hlater
      rw [← hearlier, ← hlater]
      exact hfollows

@[simp] theorem awaitsDecision_concat {trail : List CourseReviewEvent} {event : CourseReviewEvent} :
    AwaitsDecision (trail ++ [event]) ↔ IsSubmission event := by
  simp [AwaitsDecision]

/-- One more event keeps the story when it fits the new status and what it follows. -/
theorem CourseTellsOneStory.concat_iff {trail : List CourseReviewEvent} {before after : Course}
    {event : CourseReviewEvent} (h : CourseTellsOneStory trail before) :
    CourseTellsOneStory (trail ++ [event]) after ↔
      (after.publishedAt.isSome ↔ after.status = .published) ∧ (after.status = .inReview ↔ IsSubmission event) ∧
        (¬ IsSubmission event → before.status = .inReview) := by
  constructor
  · intro ⟨hdated, hsubmitted, hdecisions⟩
    rw [awaitsDecision_concat] at hsubmitted
    refine ⟨hdated, hsubmitted, fun hnot => ?_⟩
    exact h.submitted.mpr ((decidesSubmissions_concat.mp hdecisions).2 hnot)
  · intro ⟨hdated, hsubmitted, hfollows⟩
    refine ⟨hdated, hsubmitted.trans awaitsDecision_concat.symm, decidesSubmissions_concat.mpr ⟨h.decisions, ?_⟩⟩
    exact fun hnot => h.submitted.mp (hfollows hnot)

/-- The rows a service leaves: events of its own course, and an audit row for each of them that is a decision. -/
structure Writes (rows rows' : Rows) (written : List CourseReviewEvent) : Prop where
  course : rows'.course.pk = rows.course.pk
  events : rows'.reviewEvents = rows.reviewEvents ++ written
  ownEvents : ∀ event ∈ written, event.course = rows.course.pk
  auditLog : ∃ entries, rows'.auditLog = rows.auditLog ++ entries ∧
    entries.map AuditLog.deed = written.filterMap CourseReviewEvent.deed

/-- A service continues the course's story under the condition, and breaks it otherwise. -/
def ContinuesIf (condition : Prop) (rows rows' : Rows) : Prop :=
  ∃ written, Writes rows rows' written ∧ ∀ trail, CourseTellsOneStory trail rows.course →
    (CourseTellsOneStory (trail ++ written) rows'.course ↔ condition)

theorem writes_nothing {rows rows' : Rows} (hcourse : rows'.course.pk = rows.course.pk)
    (hevents : rows'.reviewEvents = rows.reviewEvents) (haudit : rows'.auditLog = rows.auditLog) :
    Writes rows rows' [] where
  course := hcourse
  events := by rw [hevents, List.append_nil]
  ownEvents := by simp
  auditLog := ⟨[], by rw [haudit, List.append_nil], rfl⟩

theorem updateCourse_continues {actor : User} {edit : CourseEdit} {takenSlugs : List String} {now : Instant}
    {rows rows' : Rows} (h : updateCourse rows.course actor edit takenSlugs now rows = .ok rows') :
    ContinuesIf True rows rows' := by
  obtain ⟨-, -, rfl⟩ := updateCourse_ok.mp h
  refine ⟨[], writes_nothing rfl rfl rfl, fun trail htrail => iff_of_true ?_ trivial⟩
  rw [List.append_nil]
  exact ⟨htrail.dated, htrail.submitted, htrail.decisions⟩

theorem submitForReview_continues {actor : User} {instructorEmail : String} {now : Instant} {rows : Rows}
    {written : Rows × Notice} (h : submitForReview rows.course actor instructorEmail now rows = .ok written) :
    ContinuesIf True rows written.1 := by
  obtain ⟨-, hmove, rfl⟩ := submitForReview_ok.mp h
  have hdraft : rows.course.status = .draft := by simpa [ALLOWED_TRANSITIONS] using hmove
  refine ⟨[_], ⟨rfl, rfl, ?_, [], (List.append_nil _).symm, rfl⟩, ?_⟩
  · intro event hevent
    rw [List.mem_singleton.mp hevent]
    rfl
  · intro trail htrail
    have hundated : ¬ rows.course.publishedAt.isSome := by
      rw [htrail.dated, hdraft]
      decide
    rw [htrail.concat_iff]
    simp [Rows.saveStatus, Rows.addReviewEvent, IsSubmission, hundated]

theorem archive_continues {actor : User} {now : Instant} {rows rows' : Rows}
    (h : archive rows.course actor now rows = .ok rows') : ContinuesIf True rows rows' := by
  obtain ⟨-, hmove, rfl⟩ := archive_ok.mp h
  have hpublished : rows.course.status = .published := by simpa [ALLOWED_TRANSITIONS] using hmove
  refine ⟨[], writes_nothing rfl rfl rfl, fun trail htrail => iff_of_true ?_ trivial⟩
  have hdecided : ¬ AwaitsDecision trail := by
    rw [← htrail.submitted, hpublished]
    decide
  rw [List.append_nil]
  exact ⟨by simp [Rows.savePublication], by simp [Rows.savePublication, hdecided], htrail.decisions⟩

/-- A decision that is recorded continues the story exactly when the course was under review. -/
theorem decision_continues {actor : User} {action : ReviewEventAction} {audit : AdminAction} {decision : Decision}
    {reason : String} {status : CourseStatus} {publishedAt : Option Instant} {now : Instant} {rows rows' : Rows}
    (haudit : action.audit = some audit) (hstatus : status ≠ .inReview)
    (hdated : publishedAt.isSome ↔ status = .published)
    (h : recordReview rows.course actor audit reason decision now
      ((rows.savePublication status publishedAt now).addReviewEvent actor action decision.notes now) = .ok rows') :
    ContinuesIf (rows.course.status = .inReview) rows rows' := by
  obtain ⟨-, -, rfl⟩ := recordReview_ok.mp h
  refine ⟨[_], ⟨rfl, rfl, ?_, [_], rfl, ?_⟩, ?_⟩
  · intro event hevent
    rw [List.mem_singleton.mp hevent]
    rfl
  · simp [CourseReviewEvent.deed, haudit, AuditLog.deed, auditEntry, Rows.savePublication]
  · intro trail htrail
    have hdecision : action ≠ .submitted := by
      rintro rfl
      cases haudit
    rw [htrail.concat_iff]
    simp [Rows.savePublication, Rows.addReviewEvent, IsSubmission, hdecision, hstatus, hdated]

theorem approve_continues {actor : User} {instructorEmail : String} {decision : Decision} {now : Instant} {rows : Rows}
    {written : Rows × Notice} (h : approve rows.course actor instructorEmail decision now rows = .ok written) :
    ContinuesIf True rows written.1 := by
  obtain ⟨-, hmove, hrecord, -⟩ := approve_ok.mp h
  have hreview : rows.course.status = .inReview := by simpa [ALLOWED_TRANSITIONS] using hmove
  have hcontinues := decision_continues rfl (by decide) (by simp) hrecord
  rwa [eq_true hreview] at hcontinues

/-- The table has two ways back to draft, and only one of them leaves a review. -/
theorem returnToDraft_continues {actor : User} {instructorEmail : String} {action : ReturnAction} {decision : Decision}
    {now : Instant} {rows : Rows} {written : Rows × Notice}
    (h : returnToDraft rows.course actor instructorEmail action decision now rows = .ok written) :
    ContinuesIf (rows.course.status ≠ .archived) rows written.1 := by
  obtain ⟨-, hmove, hrecord, -⟩ := returnToDraft_ok.mp h
  have hsource : rows.course.status = .inReview ∨ rows.course.status = .archived := by
    simpa [ALLOWED_TRANSITIONS] using hmove
  have haudit : action.event.audit = some action.audit := by cases action <;> rfl
  have hcontinues := decision_continues haudit (by decide) (by simp) hrecord
  have hreview : rows.course.status = .inReview ↔ rows.course.status ≠ .archived := by
    rcases hsource with hsource | hsource <;> simp [hsource]
  rwa [propext hreview] at hcontinues

/-- A service that returns registers the notice of its operation. -/
theorem call_eq_ok {env : Env} {flight : Flight} {rows rows' : Rows} {notice : Option Notice} :
    flight.call env rows = .ok (rows', notice) ↔
      flight.transaction env rows = .ok rows' ∧ notice = flight.operation.notice flight.course env.instructorEmail := by
  have hnotice : ∀ written, flight.call env rows = .ok written →
      written.2 = flight.operation.notice flight.course env.instructorEmail := by
    intro written h
    obtain ⟨operation, course, actor⟩ := flight
    cases operation with
    | update edit | archive =>
      obtain ⟨_, -, rfl⟩ := map_eq_ok.mp h
      rfl
    | submitForReview =>
      obtain ⟨_, hok, rfl⟩ := map_eq_ok.mp h
      obtain ⟨-, -, rfl⟩ := submitForReview_ok.mp hok
      rfl
    | approve decision =>
      obtain ⟨_, hok, rfl⟩ := map_eq_ok.mp h
      exact congrArg some (approve_ok.mp hok).2.2.2
    | reject decision | requestChanges decision =>
      obtain ⟨_, hok, rfl⟩ := map_eq_ok.mp h
      exact congrArg some (returnToDraft_ok.mp hok).2.2.2
  constructor
  · intro h
    exact ⟨map_eq_ok.mpr ⟨_, h, rfl⟩, hnotice _ h⟩
  · rintro ⟨h, rfl⟩
    obtain ⟨written, hcall, rfl⟩ := map_eq_ok.mp h
    rw [hcall, ← hnotice written hcall]

/-- A service that returns continues the course's story, unless it decides on a course that nobody submitted. -/
theorem transaction_continues {env : Env} {operation : Operation} {actor : User} {rows rows' : Rows}
    (h : (⟨operation, rows.course, actor⟩ : Flight).transaction env rows = .ok rows') :
    ContinuesIf (operation.returnsToDraft → rows.course.status ≠ .archived) rows rows' := by
  cases operation with
  | update edit =>
    rw [Flight.transaction, Flight.call, map_fst_quiet] at h
    simpa [Operation.returnsToDraft] using updateCourse_continues h
  | submitForReview =>
    rw [Flight.transaction, Flight.call, map_fst_noted] at h
    obtain ⟨_, hok, rfl⟩ := map_eq_ok.mp h
    simpa [Operation.returnsToDraft] using submitForReview_continues hok
  | approve decision =>
    rw [Flight.transaction, Flight.call, map_fst_noted] at h
    obtain ⟨_, hok, rfl⟩ := map_eq_ok.mp h
    simpa [Operation.returnsToDraft] using approve_continues hok
  | reject decision | requestChanges decision =>
    rw [Flight.transaction, Flight.call, map_fst_noted] at h
    obtain ⟨_, hok, rfl⟩ := map_eq_ok.mp h
    simpa [Operation.returnsToDraft] using returnToDraft_continues hok
  | archive =>
    rw [Flight.transaction, Flight.call, map_fst_quiet] at h
    simpa [Operation.returnsToDraft] using archive_continues h

/-! ### What a call does to the catalogue -/

theorem trailOf_put_self {s : Catalogue} {course : Course} {rows' : Rows} {written : List CourseReviewEvent}
    (h : Writes (s.rowsOf course) rows' written) : (s.put rows').trailOf course.pk = s.trailOf course.pk ++ written := by
  have hevents : (s.put rows').reviewEvents = s.reviewEvents ++ written := h.events
  rw [Catalogue.trailOf, hevents]
  exact about_append_self h.ownEvents

theorem trailOf_put_other {s : Catalogue} {course : Course} {rows' : Rows} {written : List CourseReviewEvent}
    (h : Writes (s.rowsOf course) rows' written) {pk : Uuid} (hother : pk ≠ course.pk) :
    (s.put rows').trailOf pk = s.trailOf pk := by
  have hevents : (s.put rows').reviewEvents = s.reviewEvents ++ written := h.events
  rw [Catalogue.trailOf, hevents]
  exact about_append_other h.ownEvents hother

/-- What is left of a catalogue's story is that of the course a service acted on. -/
theorem put_tellsOneStory_iff {s : Catalogue} (hstory : TellsOneStory s) {course : Course} (hcourse : course ∈ s.courses)
    {rows' : Rows} {written : List CourseReviewEvent} (h : Writes (s.rowsOf course) rows' written) :
    TellsOneStory (s.put rows') ↔ CourseTellsOneStory (s.trailOf course.pk ++ written) rows'.course := by
  have hpk : rows'.course.pk = course.pk := h.course
  constructor
  · intro hafter
    have hsaved : rows'.course ∈ (s.put rows').courses := Table.mem_save.mpr (.inr ⟨rfl, course, hcourse, hpk.symm⟩)
    have htold := hafter.courses rows'.course hsaved
    rwa [hpk, trailOf_put_self h] at htold
  · intro htold
    constructor
    · intro saved hsaved
      rcases Table.mem_save.mp hsaved with ⟨hbefore, hother⟩ | ⟨rfl, -⟩
      · rw [hpk] at hother
        rw [trailOf_put_other h hother]
        exact hstory.courses saved hbefore
      · rwa [hpk, trailOf_put_self h]
    · obtain ⟨entries, hlog, hentries⟩ := h.auditLog
      have haudit : (s.put rows').auditLog = s.auditLog ++ entries := hlog
      have hevents : (s.put rows').reviewEvents = s.reviewEvents ++ written := h.events
      rw [haudit, hevents, List.map_append, List.filterMap_append, hstory.audited, hentries]

/-- A new course starts with an empty trail: the events there are belong to other courses. -/
theorem createCourse_tellsOneStory {s : Catalogue} (hs : s.Valid) (hstory : TellsOneStory s) {pk : Uuid}
    {instructor : User} {new : NewCourse} {now : Instant} (hafter : (createCourse pk instructor new now s).Valid) :
    TellsOneStory (createCourse pk instructor new now s) := by
  refine ⟨?_, hstory.audited⟩
  intro course hcourse
  rcases List.mem_append.mp hcourse with hold | hnew
  · exact hstory.courses course hold
  · obtain rfl := List.mem_singleton.mp hnew
    have htrail : s.trailOf pk = [] := by
      refine about_eq_nil fun event hevent hpk => ?_
      obtain ⟨reviewed, hreviewed, hsame⟩ := hs.reviewedCourses event hevent
      have hkeys := hafter.primaryKeys
      simp only [createCourse, Table.Unique, List.map_append, List.map_cons, List.map_nil] at hkeys
      have hfresh := (List.nodup_append.mp hkeys).2.2 reviewed.pk (List.mem_map_of_mem hreviewed) pk (by simp)
      exact hfresh (hsame.trans hpk)
    have hstart : (createCourse pk instructor new now s).trailOf pk = [] := htrail
    rw [hstart]
    exact ⟨by simp, by simp [AwaitsDecision], ⟨by simp, List.isChain_nil⟩⟩

theorem operate_eq (db : Catalogue.Database) (step : Call × Mail) :
    operate db step = db.settle ((step.1.block db.rows).map Prod.fst) := by
  unfold operate perform
  cases step.1.block db.rows with
  | error e => rfl
  | ok written =>
    by_cases hvalid : written.1.Valid
    · simp only [dif_pos hvalid, Except.map, Database.settle_ok hvalid]
    · simp only [dif_neg hvalid, Except.map, Database.settle_refused hvalid]

theorem block_change_eq_ok {s s' : Catalogue} {pk : Uuid} {request : Request} {now : Instant} {instructorEmail : String}
    {notice : Option Notice} :
    (Call.change pk request now instructorEmail).block s = .ok (s', notice) ↔
      ∃ course, Table.find (·.pk) pk s.courses = some course ∧ ∃ rows',
        (⟨request.operation, (s.rowsOf course).course, request.actor⟩ : Flight).transaction
          ⟨now, s.takenSlugs pk, instructorEmail⟩ (s.rowsOf course) = .ok rows' ∧
            s' = s.put rows' ∧ notice = request.operation.notice course instructorEmail := by
  simp only [Call.block]
  cases hfind : Table.find (·.pk) pk s.courses with
  | none => simp
  | some course =>
    simp only [map_eq_ok, mapError_eq_ok, Option.some.injEq, exists_eq_left']
    constructor
    · rintro ⟨⟨rows', notice'⟩, hcall, hput⟩
      obtain ⟨rfl, rfl⟩ := Prod.mk.inj hput
      obtain ⟨htransaction, rfl⟩ := call_eq_ok.mp hcall
      exact ⟨rows', htransaction, rfl, rfl⟩
    · rintro ⟨rows', htransaction, rfl, rfl⟩
      exact ⟨(rows', _), call_eq_ok.mpr ⟨htransaction, rfl⟩, rfl⟩

/-- The two operations that send a course back are one service with two names. -/
theorem transaction_of_returnsToDraft {operation : Operation} (h : operation.returnsToDraft) :
    ∃ action decision, ∀ course actor env rows,
      (⟨operation, course, actor⟩ : Flight).transaction env rows =
        (returnToDraft course actor env.instructorEmail action decision env.now rows).map Prod.fst := by
  cases operation with
  | reject decision => exact ⟨.rejected, decision, fun _ _ _ _ => map_fst_noted _⟩
  | requestChanges decision => exact ⟨.changesRequested, decision, fun _ _ _ _ => map_fst_noted _⟩
  | _ => simp [Operation.returnsToDraft] at h

/-- A call keeps the story when no archived course is sent back. -/
theorem operate_tellsOneStory {db : Catalogue.Database} {step : Call × Mail} (hstory : TellsOneStory db.rows)
    (hreturns : ReturnsUnarchived db.rows step.1) : TellsOneStory (operate db step).rows := by
  obtain ⟨call, mail⟩ := step
  rw [operate_eq]
  refine Database.settle_induction hstory fun after hok hvalid => ?_
  obtain ⟨⟨after, notice⟩, hblock, rfl⟩ := map_eq_ok.mp hok
  cases call with
  | create pk instructor new now =>
    cases hblock
    exact createCourse_tellsOneStory db.valid hstory hvalid
  | change pk request now instructorEmail =>
    obtain ⟨course, hfind, rows', htransaction, rfl, -⟩ := block_change_eq_ok.mp hblock
    obtain ⟨hcourse, -⟩ := Table.find_eq_some hfind
    obtain ⟨written, hwrites, hcontinues⟩ := transaction_continues htransaction
    rw [put_tellsOneStory_iff hstory hcourse hwrites, hcontinues _ (hstory.courses course hcourse)]
    intro hdraft
    obtain ⟨action, decision, hservice⟩ := transaction_of_returnsToDraft hdraft
    rw [hservice] at htransaction
    obtain ⟨_, hreturn, -⟩ := map_eq_ok.mp htransaction
    obtain ⟨hadmin, -, hrecord, -⟩ := returnToDraft_ok.mp hreturn
    exact hreturns hdraft hadmin (recordReview_ok.mp hrecord).1 course hfind

/-- The service acts on the course of the rows it is given. -/
theorem continues {s : Catalogue} {course : Course} {env : Env} {operation : Operation} {actor : User} {rows' : Rows}
    (h : (⟨operation, course, actor⟩ : Flight).transaction env (s.rowsOf course) = .ok rows') :
    ContinuesIf (operation.returnsToDraft → course.status ≠ .archived) (s.rowsOf course) rows' :=
  transaction_continues h

/-- Writing a course over itself keeps the tables' constraints when its row keeps its own and its slug. -/
theorem put_valid {s : Catalogue} (hs : s.Valid) {course : Course} (hcourse : course ∈ s.courses) {rows' : Rows}
    {written : List CourseReviewEvent} (h : Writes (s.rowsOf course) rows' written) (hrow : rows'.Valid)
    (hslug : rows'.course.slug = course.slug) : (s.put rows').Valid := by
  have hpk : rows'.course.pk = course.pk := h.course
  have hslugs : (s.put rows').courses.map (·.slug) = s.courses.map (·.slug) := by
    simp only [Catalogue.put, Table.save, List.map_map]
    apply List.map_congr_left
    intro old hold
    simp only [Function.comp_apply]
    split
    · rename_i hsame
      rw [hslug, hs.primaryKeys.eq hold hcourse (hsame.trans hpk)]
    · rfl
  have hsaved : ∃ saved ∈ (s.put rows').courses, saved.pk = course.pk :=
    ⟨rows'.course, Table.mem_save.mpr (.inr ⟨rfl, course, hcourse, hpk.symm⟩), hpk⟩
  constructor
  · intro saved hsaved
    rcases Table.mem_save.mp hsaved with ⟨hbefore, -⟩ | ⟨rfl, -⟩
    · exact hs.courses saved hbefore
    · exact hrow
  · exact Table.unique_save.mpr hs.primaryKeys
  · rw [Table.Unique, hslugs]
    exact hs.slugs
  · intro event hevent
    have hevents : (s.put rows').reviewEvents = s.reviewEvents ++ written := h.events
    rw [hevents] at hevent
    rcases List.mem_append.mp hevent with hold | hnew
    · obtain ⟨reviewed, hreviewed, hsame⟩ := hs.reviewedCourses event hold
      by_cases hself : reviewed.pk = course.pk
      · obtain ⟨saved, hsaved, hsavedPk⟩ := hsaved
        exact ⟨saved, hsaved, hsavedPk.trans (hself.symm.trans hsame)⟩
      · exact ⟨reviewed, Table.mem_save.mpr (.inl ⟨hreviewed, by rwa [hpk]⟩), hsame⟩
    · obtain ⟨saved, hsaved, hsavedPk⟩ := hsaved
      exact ⟨saved, hsaved, hsavedPk.trans (h.ownEvents event hnew).symm⟩

/-- A service that registers a notice keeps the slug and adds a review event. -/
theorem noticed_writes {env : Env} {flight : Flight} {rows rows' : Rows} {notice : Notice}
    (h : flight.transaction env rows = .ok rows')
    (hnotice : flight.operation.notice flight.course env.instructorEmail = some notice) :
    rows'.course.slug = rows.course.slug ∧ rows'.reviewEvents.length ≠ rows.reviewEvents.length := by
  obtain ⟨operation, course, actor⟩ := flight
  cases operation with
  | update edit | archive => cases hnotice
  | submitForReview =>
    rw [Flight.transaction, Flight.call, map_fst_noted] at h
    obtain ⟨_, hok, rfl⟩ := map_eq_ok.mp h
    obtain ⟨-, -, rfl⟩ := submitForReview_ok.mp hok
    simp [Rows.saveStatus, Rows.addReviewEvent]
  | approve decision =>
    rw [Flight.transaction, Flight.call, map_fst_noted] at h
    obtain ⟨_, hok, rfl⟩ := map_eq_ok.mp h
    obtain ⟨-, -, hrecord, -⟩ := approve_ok.mp hok
    obtain ⟨-, -, hwritten⟩ := recordReview_ok.mp hrecord
    simp [hwritten, Rows.savePublication, Rows.addReviewEvent]
  | reject decision | requestChanges decision =>
    rw [Flight.transaction, Flight.call, map_fst_noted] at h
    obtain ⟨_, hok, rfl⟩ := map_eq_ok.mp h
    obtain ⟨-, -, hrecord, -⟩ := returnToDraft_ok.mp hok
    obtain ⟨-, -, hwritten⟩ := recordReview_ok.mp hrecord
    simp [hwritten, Rows.savePublication, Rows.addReviewEvent]

/-- What a service writes keeps the catalogue's constraints if it keeps its own, and it does so when it registers a
notice. -/
theorem block_of_noticed {s : Catalogue} (hs : s.Valid) {pk : Uuid} {request : Request} {now : Instant}
    {instructorEmail : String} {course : Course} (hfind : Table.find (·.pk) pk s.courses = some course)
    {notice : Notice} (hnotice : request.operation.notice course instructorEmail = some notice)
    (haccepted : Accepted ⟨now, s.takenSlugs pk, instructorEmail⟩ ⟨request.operation, course, request.actor⟩) :
    ∃ after, (Call.change pk request now instructorEmail).block s = .ok (after, some notice) ∧ after.Valid ∧ after ≠ s := by
  obtain ⟨hcourse, -⟩ := Table.find_eq_some hfind
  have hrows : (s.rowsOf course).Valid := hs.courses course hcourse
  obtain ⟨rows', hok, hvalid⟩ := Database.commits_iff.mp ((transaction_commits hrows).mpr haccepted)
  obtain ⟨written, hwrites, -⟩ := continues hok
  have hnoted := noticed_writes hok hnotice
  refine ⟨s.put rows', block_change_eq_ok.mpr ⟨course, hfind, rows', hok, rfl, hnotice.symm⟩,
    put_valid hs hcourse hwrites hvalid hnoted.1, ?_⟩
  intro hsame
  have hevents := congrArg (fun s : Catalogue => s.reviewEvents.length) hsame
  exact hnoted.2 hevents

/-- Sending an archived course back records a decision nobody asked for. -/
theorem not_operate_tellsOneStory {db : Catalogue.Database} {step : Call × Mail} (hstory : TellsOneStory db.rows)
    (hreturns : ¬ ReturnsUnarchived db.rows step.1) : ¬ TellsOneStory (operate db step).rows := by
  obtain ⟨call, mail⟩ := step
  cases call with
  | create pk instructor new now => exact absurd trivial hreturns
  | change pk request now instructorEmail =>
    simp only [ReturnsUnarchived] at hreturns
    push Not at hreturns
    obtain ⟨hdraft, hadmin, hlabel, course, hfind, harchived⟩ := hreturns
    obtain ⟨hcourse, hpk⟩ := Table.find_eq_some hfind
    obtain ⟨action, decision, hservice⟩ := transaction_of_returnsToDraft hdraft
    have hrows : (db.rows.rowsOf course).Valid := db.valid.courses course hcourse
    have hmove : (course.status, CourseStatus.draft) ∈ ALLOWED_TRANSITIONS := by
      rw [harchived]
      decide
    let flight : Flight := ⟨request.operation, course, request.actor⟩
    let env : Env := ⟨now, db.rows.takenSlugs pk, instructorEmail⟩
    have hcommits : Database.Commits Rows.Valid (flight.transaction env (db.rows.rowsOf course)) := by
      rw [hservice]
      exact (returnToDraft_commits hrows).mpr ⟨hadmin, hmove, hlabel⟩
    obtain ⟨rows', hok, hvalid⟩ := Database.commits_iff.mp hcommits
    have hslug : rows'.course.slug = course.slug := by
      rw [hservice] at hok
      obtain ⟨_, hreturn, rfl⟩ := map_eq_ok.mp hok
      obtain ⟨-, -, hrecord, -⟩ := returnToDraft_ok.mp hreturn
      obtain ⟨-, -, hwritten⟩ := recordReview_ok.mp hrecord
      rw [hwritten]
      rfl
    obtain ⟨written, hwrites, hcontinues⟩ := continues hok
    have hblock := block_change_eq_ok.mpr ⟨course, hfind, rows', hok, rfl, rfl⟩
    rw [operate_eq, hblock]
    show ¬ TellsOneStory (db.settle (Except.ok (db.rows.put rows') : Except CallError Catalogue)).rows
    rw [Database.settle_ok (put_valid db.valid hcourse hwrites hvalid hslug),
      put_tellsOneStory_iff hstory hcourse hwrites, hcontinues _ (hstory.courses course hcourse)]
    exact fun hstays => hstays hdraft harchived

/-- What commits has been accepted, so that its notice is heard. -/
theorem heard_of_told {s after : Catalogue} (hs : s.Valid) {call : Call} {mail : Mail} (htold : ToldQuietly s (call, mail))
    {notice : Option Notice} (hblock : call.block s = .ok (after, notice)) (hvalid : after.Valid) (e : CallError) :
    notice.elim (.ok ()) (fun notice => (notice.notify mail).mapError .notice) ≠ Except.error e := by
  cases call with
  | create pk instructor new now =>
    cases hblock
    simp
  | change pk request now instructorEmail =>
    obtain ⟨course, hfind, rows', hok, rfl, rfl⟩ := block_change_eq_ok.mp hblock
    obtain ⟨hcourse, hpk⟩ := Table.find_eq_some hfind
    obtain ⟨written, hwrites, -⟩ := continues hok
    have hsaved : rows'.course ∈ (s.put rows').courses :=
      Table.mem_save.mpr (.inr ⟨rfl, course, hcourse, hwrites.course.symm⟩)
    have hrows : rows'.Valid := hvalid.courses rows'.course hsaved
    have hbefore : (s.rowsOf course).Valid := hs.courses course hcourse
    have haccepted := (transaction_commits hbefore).mp (Database.commits_iff.mpr ⟨rows', hok, hrows⟩)
    cases hnotice : request.operation.notice course instructorEmail with
    | none => simp
    | some notice =>
      have hheard := htold course hfind haccepted notice hnotice
      simp [Notifications.notify_eq_ok.mpr hheard, Except.mapError]

/-- A call that raises has changed nothing exactly when the notice of what it committed does not raise. -/
theorem raisesQuietly_iff (db : Catalogue.Database) (step : Call × Mail) :
    RaisesQuietly db step ↔ ToldQuietly db.rows step := by
  obtain ⟨call, mail⟩ := step
  constructor
  · intro hquiet
    cases call with
    | create pk instructor new now => trivial
    | change pk request now instructorEmail =>
      intro course hfind haccepted notice hnotice
      obtain ⟨after, hblock, hvalid, hchanged⟩ := block_of_noticed db.valid hfind hnotice haccepted
      have hperform : perform mail (.change pk request now instructorEmail) db =
          ((notice.notify mail).mapError .notice, ⟨after, hvalid⟩) := by
        simp only [perform, hblock, dif_pos hvalid, Option.elim_some]
      apply Notifications.notify_eq_ok.mp
      cases hnotify : notice.notify mail with
      | ok u => rfl
      | error e =>
        have hraised : (perform mail (.change pk request now instructorEmail) db).1 = .error (.notice e) := by
          rw [hperform, hnotify]
          rfl
        have hsame := congrArg (fun db : Catalogue.Database => db.rows) (hquiet (.notice e) hraised)
        simp only [operate, hperform] at hsame
        exact absurd hsame hchanged
  · intro htold e hraised
    cases hblock : call.block db.rows with
    | error refused => simp only [operate, perform, hblock]
    | ok written =>
      by_cases hvalid : written.1.Valid
      · simp only [perform, hblock, dif_pos hvalid] at hraised
        exact absurd hraised (heard_of_told db.valid htold hblock hvalid e)
      · simp only [operate, perform, hblock, dif_neg hvalid]

/-! ### Runs -/

def emptyCatalogue : Catalogue.Database where
  rows := ⟨[], [], []⟩
  valid := by decide

/-- The catalogue tells one story in every state, and no call raises after a change, in exactly the runs in which no archived
course is sent back and the notices of what is accepted do not raise. -/
theorem throughout_tellsOneStory_iff (run : List (Call × Mail)) :
    TellsOneStoryThroughout emptyCatalogue run ↔
      Along operate (fun db step => ReturnsUnarchived db.rows step.1 ∧ ToldQuietly db.rows step) emptyCatalogue run := by
  have hempty : TellsOneStory emptyCatalogue.rows := ⟨by simp [emptyCatalogue], rfl⟩
  have hstory : Throughout operate (fun db => TellsOneStory db.rows) emptyCatalogue run ↔
      Along operate (fun db step => ReturnsUnarchived db.rows step.1) emptyCatalogue run := by
    apply throughout_iff_along (I := fun db => TellsOneStory db.rows)
    · exact fun _ _ hstory hreturns => operate_tellsOneStory hstory hreturns
    · exact fun _ _ hstory hreturns => not_operate_tellsOneStory hstory hreturns
    · exact fun _ hstory => hstory
    · exact hempty
  have htold : RaisesQuietly = fun db step => ToldQuietly db.rows step := by
    funext db step
    exact propext (raisesQuietly_iff db step)
  rw [TellsOneStoryThroughout, hstory, htold, along_and]

def spanishCourse : NewCourse := ⟨"spanish-a1", "Spanish A1", "", 1, .a1, []⟩

def instructor : User := ⟨7, "teacher@example.test", .instructor, false⟩

def administrator : User := ⟨8, "admin@example.test", .admin, false⟩

/-- Nobody has confirmed an address, and nothing fails. -/
def quietMail : Mail := ⟨[], true, fun _ => true⟩

/-- A course is submitted, approved and archived, and then rejected. -/
theorem archived_course_is_rejected :
    ¬ TellsOneStoryThroughout emptyCatalogue
      ([.create 3 instructor spanishCourse 90, .change 3 ⟨.submitForReview, instructor⟩ 91 "teacher@example.test",
        .change 3 ⟨.approve ⟨"", none⟩, administrator⟩ 92 "teacher@example.test",
        .change 3 ⟨.archive, administrator⟩ 93 "teacher@example.test",
        .change 3 ⟨.reject ⟨"", none⟩, administrator⟩ 94 "teacher@example.test"].map (·, quietMail)) := by
  intro htold
  have hstory := htold.1
  revert hstory
  decide

end EPlatform.Catalog
