import EPlatform.Notifications.Emails

/-!
# Notices about a review

A submission is told to every administrator and a decision to the instructor, from a hook that runs once the transaction has
committed. What raises there takes nothing back.
-/

namespace EPlatform.Notifications

open Runs Accounts

/-- What a reviewer is told about a submission. -/
structure CourseSubmitted where
  recipient : String
  courseTitle : String
  instructorName : String
  deriving DecidableEq, Repr

/-- `email/course_submitted/subject.txt` and `body.txt`, stripped. -/
def CourseSubmitted.render (context : CourseSubmitted) : OutboundEmail where
  recipient := context.recipient
  subject := strip ("Course submitted for review: " ++ context.courseTitle ++ "\n")
  body := strip (context.instructorName ++ " submitted a course for review:\n\n" ++ context.courseTitle ++
    "\n\nReview it in the admin site.\n")

def sendCourseSubmittedEmail (takes : OutboundEmail → Bool) (users : List Account) (context : CourseSubmitted) :
    Except EmailError Bool :=
  sendToAccount takes users context.render

/-- `administrator_emails`. Its order only decides who is written to first. -/
def administratorEmails (users : List Account) : List String :=
  (users.filter fun user => user.role = .admin && user.isActive).map (·.email)

/-- What the catalogue hands to `transaction.on_commit`. -/
inductive Notice
  | submitted (courseTitle instructorName : String)
  | reviewed (context : CourseReviewed)
  deriving DecidableEq, Repr

/-- What a hook finds: the accounts, whether the database still answers, and what the broker takes. -/
structure Mail where
  users : List Account
  answers : Bool
  takes : OutboundEmail → Bool

inductive NoticeError
  | unanswered
  | email (e : EmailError)
  deriving DecidableEq, Repr

/-- Whether it was sent is not asked. -/
def unlessRaised (sent : Except EmailError Bool) : Except NoticeError Unit := (sent.mapError .email).map fun _ => ()

/-- The function `notify` of `_notify_reviewers` and `_notify_instructor_of_review`. -/
def Notice.notify (mail : Mail) : Notice → Except NoticeError Unit
  | .submitted courseTitle instructorName => do
    require (mail.answers = true) .unanswered
    (administratorEmails mail.users).forM fun address =>
      unlessRaised (sendCourseSubmittedEmail mail.takes mail.users ⟨address, courseTitle, instructorName⟩)
  | .reviewed context => do
    require (mail.answers = true) .unanswered
    unlessRaised (sendCourseReviewedEmail mail.takes mail.users context)

def Notice.messages (users : List Account) : Notice → List OutboundEmail
  | .submitted courseTitle instructorName =>
    (administratorEmails users).map fun recipient => CourseSubmitted.render ⟨recipient, courseTitle, instructorName⟩
  | .reviewed context => [context.render]

/-- What keeps a notice from raising: an answer of the database, and messages to confirmed addresses that go out. -/
structure Notice.Heard (mail : Mail) (notice : Notice) : Prop where
  answered : mail.answers = true
  goOut : ∀ message ∈ notice.messages mail.users,
    (mail.users.any fun user => user.email = message.recipient && user.isEmailVerified) → GoesOut mail.takes message

theorem unlessRaised_eq_ok {mail : Mail} {message : OutboundEmail} :
    unlessRaised (sendToAccount mail.takes mail.users message) = .ok () ↔
      ((mail.users.any fun user => user.email = message.recipient && user.isEmailVerified) →
        GoesOut mail.takes message) := by
  rw [← exists_sendToAccount_ok, unlessRaised, map_eq_ok]
  simp only [mapError_eq_ok, and_true]

theorem notify_eq_ok {mail : Mail} {notice : Notice} : notice.notify mail = .ok () ↔ notice.Heard mail := by
  cases notice with
  | submitted courseTitle instructorName =>
    simp only [Notice.notify, bind_eq_ok, require_eq_ok, exists_const, forM_eq_ok]
    constructor
    · intro h
      refine ⟨h.1, ?_⟩
      intro message hmessage
      obtain ⟨address, haddress, rfl⟩ := List.mem_map.mp hmessage
      exact unlessRaised_eq_ok.mp (h.2 address haddress)
    · intro h
      refine ⟨h.answered, fun address haddress => unlessRaised_eq_ok.mpr ?_⟩
      exact h.goOut _ (List.mem_map_of_mem haddress)
  | reviewed context =>
    simp only [Notice.notify, bind_eq_ok, require_eq_ok, exists_const]
    constructor
    · intro h
      exact ⟨h.1, List.forall_mem_singleton.mpr (unlessRaised_eq_ok.mp h.2)⟩
    · intro h
      exact ⟨h.answered, unlessRaised_eq_ok.mpr (List.forall_mem_singleton.mp h.goOut)⟩

end EPlatform.Notifications
