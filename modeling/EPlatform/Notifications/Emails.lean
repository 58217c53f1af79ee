import EPlatform.Accounts.Services

/-!
# Transactional email

A message is rendered, checked when it is built, and handed to the queue. Nobody is written to at an address they have
not confirmed.
-/

namespace EPlatform.Notifications

open Runs Accounts

structure OutboundEmail where
  recipient : String
  subject : String
  body : String
  deriving DecidableEq, Repr

inductive EmailError
  | valueError
  | notQueued
  deriving DecidableEq, Repr

def NEWLINES : List Char := ['\n', '\r']

def hasNewline (s : String) : Bool := NEWLINES.any (· ∈ s.toList)

/-- `__post_init__`: a subject that could forge a header is refused. -/
def OutboundEmail.postInit (message : OutboundEmail) : Except EmailError Unit :=
  require (hasNewline message.subject = false) .valueError

/-- `takes` is whether the broker takes a message that `deliver_email.delay` hands it. -/
def sendTransactionalEmail (takes : OutboundEmail → Bool) (message : OutboundEmail) : Except EmailError Unit := do
  message.postInit
  require (takes message) .notQueued

/-- Whether it sent: the message is skipped, not refused, if no account has confirmed the address. -/
def sendToAccount (takes : OutboundEmail → Bool) (users : List Account) (message : OutboundEmail) :
    Except EmailError Bool := do
  if users.any fun user => user.email = message.recipient && user.isEmailVerified then
    sendTransactionalEmail takes message
    return true
  else return false

/-- What the instructor is told about a review. -/
structure CourseReviewed where
  recipient : String
  courseTitle : String
  decision : String
  notes : String
  deriving DecidableEq, Repr

/-- `email/course_reviewed/subject.txt` and `body.txt`, stripped. -/
def CourseReviewed.render (context : CourseReviewed) : OutboundEmail where
  recipient := context.recipient
  subject := strip ("Your course was reviewed: " ++ context.courseTitle ++ "\n")
  body := strip ("Your course \"" ++ context.courseTitle ++ "\" has been reviewed.\n\nDecision: " ++ context.decision ++
    "\n" ++ (if context.notes = "" then "\nThe reviewer recorded no notes.\n"
      else "\nNotes from the reviewer:\n\n" ++ context.notes ++ "\n") ++ "\n")

def sendCourseReviewedEmail (takes : OutboundEmail → Bool) (users : List Account) (context : CourseReviewed) :
    Except EmailError Bool :=
  sendToAccount takes users context.render

/-- What keeps a message from raising. -/
structure GoesOut (takes : OutboundEmail → Bool) (message : OutboundEmail) : Prop where
  oneLine : hasNewline message.subject = false
  queued : takes message

theorem sendTransactionalEmail_ok {takes : OutboundEmail → Bool} {message : OutboundEmail} :
    sendTransactionalEmail takes message = .ok () ↔ GoesOut takes message := by
  simp only [sendTransactionalEmail, OutboundEmail.postInit, bind_eq_ok, require_eq_ok, exists_const]
  constructor
  · intro h
    obtain ⟨honeLine, hqueued⟩ := h
    exact ⟨honeLine, hqueued⟩
  · intro h
    exact ⟨h.oneLine, h.queued⟩

theorem exists_sendToAccount_ok {takes : OutboundEmail → Bool} {users : List Account} {message : OutboundEmail} :
    (∃ sent, sendToAccount takes users message = .ok sent) ↔
      ((users.any fun user => user.email = message.recipient && user.isEmailVerified) → GoesOut takes message) := by
  rw [← sendTransactionalEmail_ok]
  unfold sendToAccount
  split
  · rename_i hconfirmed
    simp only [bind_eq_ok, pure_eq_ok, hconfirmed, true_imp_iff]
    constructor
    · intro h
      obtain ⟨_, _, hsent, _⟩ := h
      exact hsent
    · intro hsent
      exact ⟨true, (), hsent, rfl⟩
  · rename_i hunconfirmed
    exact iff_of_true ⟨false, rfl⟩ fun hconfirmed => absurd hconfirmed hunconfirmed

end EPlatform.Notifications
