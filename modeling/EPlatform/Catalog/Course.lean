import EPlatform.Core.Audit

/-!
# Courses as rows

One course, its review trail and the administrative trail beside it.
-/

namespace EPlatform.Catalog

open Runs

inductive CourseStatus
  | draft
  | inReview
  | published
  | archived
  deriving DecidableEq, Repr

inductive Level
  | a1
  | a2
  | b1
  | b2
  | c1
  | c2
  deriving DecidableEq, Repr

/-- What a stored `tsvector` was computed from: the fields of `SEARCH_WEIGHTS`. -/
structure SearchVector where
  title : String
  skillAreas : List String
  description : String
  deriving DecidableEq, Repr

structure Course where
  pk : Uuid
  slug : String
  title : String
  description : String
  language : Nat
  level : Level
  skillAreas : List String
  instructor : Uuid
  status : CourseStatus
  publishedAt : Option Instant
  searchVector : Option SearchVector
  updatedAt : Instant
  deriving DecidableEq, Repr

inductive ReviewEventAction
  | submitted
  | approved
  | rejected
  | changesRequested
  deriving DecidableEq, Repr

structure CourseReviewEvent where
  course : Uuid
  actor : Uuid
  action : ReviewEventAction
  notes : String
  createdAt : Instant
  deriving DecidableEq, Repr

structure Rows where
  course : Course
  reviewEvents : List CourseReviewEvent
  auditLog : List AuditLog
  deriving DecidableEq, Repr

/-! ### Constraints -/

structure Course.Valid (c : Course) : Prop where
  coursePublishedHasPublishedAt : c.status = .published → c.publishedAt.isSome
  slug : c.slug.length ≤ 140
  title : c.title.length ≤ 200

instance (c : Course) : Decidable c.Valid :=
  decidable_of_iff
    ((c.status = .published → c.publishedAt.isSome) ∧ c.slug.length ≤ 140 ∧ c.title.length ≤ 200)
    ⟨fun ⟨h₁, h₂, h₃⟩ => ⟨h₁, h₂, h₃⟩, fun ⟨h₁, h₂, h₃⟩ => ⟨h₁, h₂, h₃⟩⟩

def Rows.Valid (r : Rows) : Prop := r.course.Valid

instance : DecidablePred Rows.Valid := fun r => inferInstanceAs (Decidable r.course.Valid)

abbrev Database := Runs.Database Rows.Valid

inductive Error
  | notPermitted
  | invalidTransition (source target : CourseStatus)
  | slugTaken (slug : String)
  | notAuditable (reason : NotAuditable)
  deriving DecidableEq, Repr

end EPlatform.Catalog
