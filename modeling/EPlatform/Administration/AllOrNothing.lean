import EPlatform.Administration.Acts

/-!
# All or nothing, with the record

An act is all or nothing wherever it is called from, with one exception: a decision on a course is told to the instructor
after it is committed, and what raises there comes too late.
-/

namespace EPlatform.Administration

open Runs
open Accounts (Account)
open Catalog (Course ALLOWED_TRANSITIONS)
open Notifications (CourseReviewed GoesOut)

/-- What an act should be: done with its record or not at all, and the grant of nothing permanent. -/
structure Accountable (env : Env) (request : Request) (setting : Setting env.casing) : Prop where
  allOrNothing : Code.AllOrNothing (Answered env request) (request.call env) setting.connection
  bounded : ∀ override ∈ (request.call env setting.connection).2.rows.overrides,
    override ∈ setting.connection.rows.overrides ∨ override.IsBounded

variable {env : Env} {request : Request} {setting : Setting env.casing} {rows rows' : Rows}
  {s : Connection Rows CourseReviewed}

/-! ### The decisions on a course -/

/-- Nothing refuses the decision, up to its commit. -/
structure Taken (env : Env) (review : Review) (actor : Account) (rows : Rows) : Prop where
  admin : actor.role = .admin
  allowed : (review.course.status, review.verdict.target) ∈ ALLOWED_TRANSITIONS
  stored : ∃ row ∈ rows.courses, row.pk = review.course.pk
  label : actor.email ≠ ""
  length : actor.email.length ≤ 254
  known : rows.HasUser actor.pk
  answered : ∀ statement ∈ [Statement.updateCourse, .insertReviewEvent, .insertAuditLog, .commit],
    env.refusal statement = none

/-- What the instructor is to be told. -/
def Review.told (review : Review) (address : String) : CourseReviewed :=
  ⟨address, review.course.title, review.verdict.decision, strip review.notes⟩

/-- The verdicts, as the acts have them. -/
structure Verdict.IsSound (verdict : Verdict) : Prop where
  dated : verdict.target = .published → verdict.publishedAt.isSome
  noNotes : strip verdict.noNotes ≠ ""

theorem isSound_approved : env.approved.IsSound where
  dated _ := rfl
  noNotes := by
    show strip "Approved with no notes recorded" ≠ ""
    decide

theorem isSound_returned (action : Catalog.ReturnAction) : (Env.returned action).IsSound where
  dated htarget := by cases htarget
  noNotes := by
    show strip "Returned to draft with no notes recorded" ≠ ""
    decide

theorem isSound_of_review {act : Act} {review : Review} (h : act.review env = some review) : review.verdict.IsSound := by
  cases act with
  | approve course notes =>
    obtain rfl := Option.some.inj h
    exact isSound_approved
  | reject course notes | requestChanges course notes =>
    obtain rfl := Option.some.inj h
    exact isSound_returned _
  | grantAccessOverride | changeRole | issueInvitation | revokeInvitation => cases h

theorem call_of_review {review : Review} (h : request.act.review env = some review) :
    request.call env =
      env.atomic (env.review review.verdict request.actor review.course review.notes request.ipAddress) := by
  obtain ⟨actor, act, ipAddress⟩ := request
  cases act with
  | approve course notes | reject course notes | requestChanges course notes =>
    obtain rfl := Option.some.inj h
    rfl
  | grantAccessOverride | changeRole | issueInvitation | revokeInvitation => cases h

section Constraints

variable {course : CourseObject} {verdict : Verdict} {by_ : Account} {notes : String} {entry : AuditLog}

theorem checked_withDecision (h : rows.Checked env.casing) (hverdict : verdict.IsSound) :
    (env.withDecision course verdict rows).Checked env.casing := by
  refine { h with courses := ?_, courseKeys := ?_, slugs := ?_ }
  · intro row hrow
    obtain ⟨old, hold, rfl⟩ := List.mem_map.mp hrow
    have hvalid := h.courses old hold
    split
    · exact ⟨hverdict.dated, hvalid.slug, hvalid.title⟩
    · exact hvalid
  · refine (Table.unique_map_iff fun row => ?_).mpr h.courseKeys
    split <;> rfl
  · refine (Table.unique_map_iff fun row => ?_).mpr h.slugs
    split <;> rfl

theorem checked_record (h : rows.Checked env.casing) (hlabel : entry.actorLabel ≠ "") (htype : entry.targetType ≠ "") :
    (rows.record entry).Checked env.casing := by
  refine { h with auditNamesWhoActed := ?_, auditNamesWhatItHappenedTo := ?_ }
  · exact Table.forall_mem_insert h.auditNamesWhoActed hlabel
  · exact Table.forall_mem_insert h.auditNamesWhatItHappenedTo htype

theorem linked_reviewed (h : rows.Linked) (hstored : ∃ row ∈ rows.courses, row.pk = course.pk)
    (hknown : rows.HasUser by_.pk) : ((env.reviewed verdict by_ course notes rows).record entry).Linked := by
  have hcourse : ∀ pk, (∃ row ∈ rows.courses, row.pk = pk) →
      ∃ row ∈ (env.withDecision course verdict rows).courses, row.pk = pk := by
    intro pk h
    obtain ⟨row, hrow, hpk⟩ := h
    refine ⟨_, List.mem_map_of_mem hrow, ?_⟩
    split
    · exact hpk
    · exact hpk
  refine { h with instructors := ?_, reviewedCourses := ?_, reviewers := ?_ }
  · intro row hrow
    obtain ⟨old, hold, rfl⟩ := List.mem_map.mp hrow
    split <;> exact h.instructors old hold
  · have hreviewed : ∀ event ∈ rows.reviewEvents,
        ∃ row ∈ (env.withDecision course verdict rows).courses, row.pk = event.course :=
      fun event hevent => hcourse event.course (h.reviewedCourses event hevent)
    exact Table.forall_mem_insert hreviewed (hcourse course.pk hstored)
  · exact Table.forall_mem_insert h.reviewers hknown

end Constraints

/-- What is decided and committed is what nothing refuses. -/
theorem taken_iff (ipAddress : Option String) (db : Database env.casing) {review : Review}
    (hsound : review.verdict.IsSound) {by_ : Account} :
    (env.Decides review.verdict by_ review.course review.notes ipAddress db.rows ∧
        env.backend.commit ((env.reviewed review.verdict by_ review.course review.notes db.rows).record
          (env.reviewEntry review.verdict by_ review.course review.notes ipAddress)) = .ok ()) ↔
      Taken env review by_ db.rows := by
  rw [Env.commit_eq_ok]
  constructor
  · intro hdecided
    obtain ⟨h, hcommit, _⟩ := hdecided
    refine ⟨h.admin, h.allowed, h.stored, h.records.label, h.records.length, h.records.known, ?_⟩
    simp only [List.forall_mem_cons]
    exact ⟨h.updates, h.inserts, h.records.answered, hcommit, fun _ hnone => absurd hnone List.not_mem_nil⟩
  · intro h
    obtain ⟨hupdates, hinserts, hrecords, hcommit, _⟩ := by simpa only [List.forall_mem_cons] using h.answered
    have hupdated : (env.withDecision review.course review.verdict db.rows).Checked env.casing :=
      checked_withDecision db.valid.1 hsound
    have hinserted : (env.reviewed review.verdict by_ review.course review.notes db.rows).Checked env.casing :=
      { hupdated with }
    have hreason : strip (reasonOr review.notes review.verdict.noNotes) ≠ "" := strip_reasonOr hsound.noNotes
    have htype : (env.reviewEntry review.verdict by_ review.course review.notes ipAddress).targetType ≠ "" := by
      show "course" ≠ ""
      decide
    exact ⟨⟨h.admin, h.allowed, hupdates, h.stored, hupdated, hinserts, hinserted,
      ⟨h.label, hreason, hrecords, h.length, h.known, checked_record hinserted h.label htype⟩⟩, hcommit,
      linked_reviewed db.valid.2 h.stored h.known⟩

/-- What a decision does, inside a block. -/
theorem answered_of_review {review : Review} (hreview : request.act.review env = some review)
    {registered : List CourseReviewed} {u : Unit} {t : Connection Rows CourseReviewed}
    (h : env.review review.verdict request.actor review.course review.notes request.ipAddress ⟨rows, true, registered⟩ =
      (.ok u, t)) : Answered env request rows t.rows := by
  obtain ⟨by_, address, hactor, hdecides, _, rfl⟩ := Env.review_eq_ok.mp h
  exact .recorded hactor (.decided hreview hdecides.stored hdecides.allowed) (names_auditEntry hdecides.records)
    hdecides.records.checked

/-- After the commit the notice goes out, or is withheld. -/
def Heard (env : Env) (rows : Rows) (context : CourseReviewed) : Prop :=
  env.refusal .selectRecipient = none ∧
    ((rows.users.any fun user => user.email = context.recipient && user.isEmailVerified) →
      GoesOut env.takes context.render)

theorem perform_eq_ok {context : CourseReviewed} :
    env.backend.perform context rows = .ok () ↔ Heard env rows context := by
  have hsend : (∃ sent, Notifications.sendToAccount env.takes rows.users context.render = .ok sent) ↔
      ((rows.users.any fun user => user.email = context.recipient && user.isEmailVerified) →
        GoesOut env.takes context.render) := Notifications.exists_sendToAccount_ok
  simp only [Env.backend, bind_eq_ok, Env.answer_eq_ok, exists_const, mapError_eq_ok, pure_eq_ok,
    Notifications.sendCourseReviewedEmail]
  constructor
  · intro h
    obtain ⟨hanswered, sent, hsent, _⟩ := h
    exact ⟨hanswered, hsend.mp ⟨sent, hsent⟩⟩
  · intro h
    obtain ⟨hanswered, hgoes⟩ := h
    obtain ⟨sent, hsent⟩ := hsend.mpr hgoes
    exact ⟨hanswered, sent, hsent, trivial⟩

/-- A decision by itself is all or nothing if and only if the instructor's notice does not raise. -/
theorem review_allOrNothing_iff (db : Database env.casing) {review : Review}
    (hreview : request.act.review env = some review) :
    Code.AllOrNothing (Answered env request) (request.call env) ⟨db.rows, false, []⟩ ↔
      ∀ by_ address, request.actor = some by_ → Taken env review by_ db.rows →
        env.addressOf db.rows review.course = some address → Heard env db.rows (review.told address) := by
  have hsound := isSound_of_review hreview
  rw [call_of_review hreview]
  refine (Code.allOrNothing_iff (fun _ _ h => answered_of_review hreview h) fun _ t h _ hsame => ?_).trans ?_
  · obtain ⟨by_, address, _, _, _, rfl⟩ := Env.review_eq_ok.mp h
    have hlength := congrArg (fun rows : Rows => rows.auditLog.length) hsame
    simp [Rows.record, Env.reviewed, Env.withReviewEvent, Env.withDecision] at hlength
  · constructor
    · intro h by_ address hactor htaken haddress
      obtain ⟨hdecides, hcommit⟩ := (taken_iff request.ipAddress db hsound).mpr htaken
      have hperform := h () _ (Env.review_eq_ok.mpr ⟨by_, address, hactor, hdecides, haddress, rfl⟩) hcommit
      exact perform_eq_ok.mp (Code.performAll_singleton.mp hperform)
    · intro h _ t hreturns hcommit
      obtain ⟨by_, address, hactor, hdecides, haddress, rfl⟩ := Env.review_eq_ok.mp hreturns
      have htaken := (taken_iff request.ipAddress db hsound).mp ⟨hdecides, hcommit⟩
      exact Code.performAll_singleton.mpr (perform_eq_ok.mpr (h by_ address hactor htaken haddress))

/-! ### All acts, wherever they are called from -/

theorem registered_of_setting (setting : Setting env.casing) :
    setting.connection.inBlock = true ∨ setting.connection.registered = [] := by
  cases setting with
  | alone db => exact .inr rfl
  | nested rows registered => exact .inl rfl

theorem quiet_allOrNothing (hreview : request.act.review env = none) (hs : s.inBlock = true ∨ s.registered = []) :
    Code.AllOrNothing (Answered env request) (request.call env) s := by
  obtain ⟨actor, act, ipAddress⟩ := request
  cases act with
  | grantAccessOverride user days reason => exact grantAccessOverride_allOrNothing hs
  | approve | reject | requestChanges => cases hreview
  | changeRole user role reason => exact changeRole_allOrNothing hs
  | issueInvitation email reason => exact issueInvitation_allOrNothing hs
  | revokeInvitation email reason => exact revokeInvitation_allOrNothing hs

theorem review_allOrNothing_nested {review : Review} (hreview : request.act.review env = some review) (rows : Rows)
    (registered : List CourseReviewed) :
    Code.AllOrNothing (Answered env request) (request.call env) ⟨rows, true, registered⟩ := by
  rw [call_of_review hreview]
  exact Code.allOrNothing_nested fun _ _ h => answered_of_review hreview h

/-- A call leaves the rows as they were or as its act makes them, even when it raises after that. -/
theorem rows_cases (env : Env) (request : Request) (setting : Setting env.casing) :
    (request.call env setting.connection).2.rows = setting.connection.rows ∨
      Answered env request setting.connection.rows (request.call env setting.connection).2.rows := by
  cases hreview : request.act.review env with
  | none => exact (quiet_allOrNothing hreview (registered_of_setting setting)).rows_cases
  | some review =>
    cases setting with
    | nested rows registered => exact (review_allOrNothing_nested hreview rows registered).rows_cases
    | alone db =>
      rw [call_of_review hreview]
      exact Code.atomic_rows_cases env.backend fun _ _ h => answered_of_review hreview h

theorem Answered.bounded (h : Answered env request rows rows') :
    ∀ override ∈ rows'.overrides, override ∈ rows.overrides ∨ override.IsBounded := by
  have hsame : ∀ override ∈ rows.overrides, override ∈ rows.overrides ∨ override.IsBounded :=
    fun _ hoverride => .inl hoverride
  cases h with
  | alreadyRevoked => exact hsame
  | recorded _ hchanges =>
    generalize request.act = act at hchanges
    cases hchanges with
    | granted _ _ hbounded _ => exact Table.forall_mem_insert hsame (.inr hbounded)
    | decided | roleChanged | issued | reopened | revoked => exact hsame

/-- The condition under which an act is what it should be. -/
def ToldQuietly (env : Env) (request : Request) : Setting env.casing → Prop
  | .nested _ _ => True
  | .alone db => ∀ review by_ address, request.act.review env = some review → request.actor = some by_ →
      Taken env review by_ db.rows → env.addressOf db.rows review.course = some address →
      Heard env db.rows (review.told address)

/-- Every act is all or nothing with its record, and grants no more than it may, except for a decision that commits and
whose notice then raises. -/
theorem accountable_iff (env : Env) (request : Request) (setting : Setting env.casing) :
    Accountable env request setting ↔ ToldQuietly env request setting := by
  have hbounded : ∀ override ∈ (request.call env setting.connection).2.rows.overrides,
      override ∈ setting.connection.rows.overrides ∨ override.IsBounded := by
    rcases rows_cases env request setting with hsame | hanswered
    · rw [hsame]
      exact fun override hoverride => .inl hoverride
    · exact hanswered.bounded
  have hiff : Code.AllOrNothing (Answered env request) (request.call env) setting.connection ↔
      ToldQuietly env request setting := by
    cases hreview : request.act.review env with
    | none =>
      refine iff_of_true (quiet_allOrNothing hreview (registered_of_setting setting)) ?_
      cases setting with
      | nested rows registered => trivial
      | alone db =>
        intro review _ _ hsome
        rw [hreview] at hsome
        cases hsome
    | some review =>
      cases setting with
      | nested rows registered => exact iff_of_true (review_allOrNothing_nested hreview rows registered) trivial
      | alone db =>
        refine (review_allOrNothing_iff db hreview).trans ?_
        constructor
        · intro h review' by_ address hreview' hactor htaken haddress
          obtain rfl := Option.some.inj (hreview.symm.trans hreview')
          exact h by_ address hactor htaken haddress
        · intro h by_ address hactor htaken haddress
          exact h review by_ address hreview hactor htaken haddress
  constructor
  · intro h
    exact hiff.mp h.allOrNothing
  · intro h
    exact ⟨hiff.mpr h, hbounded⟩

/-! ### A title of two lines -/

def teacher : Account where
  pk := 7
  email := "teacher@example.test"
  role := .instructor
  isSuperuser := false
  password := "!"
  isEmailVerified := true
  isActive := true

def administrator : Account := { teacher with pk := 8, email := "admin@example.test", role := .admin }

def spanishBasics : Course where
  pk := 3
  slug := "spanish-basics"
  title := "Spanish\nBasics"
  description := ""
  language := 1
  level := .a1
  skillAreas := []
  instructor := 7
  status := .inReview
  publishedAt := none
  searchVector := none
  updatedAt := 90

/-- Nothing fails, and the broker takes everything. -/
def calm : Env where
  casing := Accounts.asciiCasing
  isoformat := toString
  now := 100
  pk := 50
  refusal _ := none
  takes _ := true

def awaitingReview : Database calm.casing where
  rows := ⟨[teacher, administrator], [spanishBasics], [], [], [], []⟩
  valid := by decide +kernel

def approval : Request := ⟨some administrator, .approve ⟨spanishBasics, none⟩ "", none⟩

/-- The course is published and recorded, and the approval raises. -/
theorem approval_raises_once_committed : ¬ Accountable calm approval (.alone awaitingReview) := by
  intro h
  have hraised : (approval.call calm ⟨awaitingReview.rows, false, []⟩).1 = .error (.email .valueError) := by decide +kernel
  have hpublished : (approval.call calm ⟨awaitingReview.rows, false, []⟩).2.rows ≠ awaitingReview.rows := by
    decide +kernel
  exact hpublished (h.allOrNothing.raises _ hraised)

end EPlatform.Administration
