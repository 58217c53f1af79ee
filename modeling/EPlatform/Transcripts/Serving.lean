import EPlatform.Formats.Double
import EPlatform.Transcripts.Callback
import EPlatform.Transcripts.Captions
import Mathlib.Data.List.Sort

/-!
# Serving subtitles from a cache

What learners are answered while a transcript is reported, corrected and reviewed. A rendering is cached under the
transcript's `updated_at`, as the float that `timestamp()` makes of it, and the same version is the ETag.
-/

namespace EPlatform.Transcripts

open Formats Runs

/-- `datetime.timestamp()`: the float nearest to the seconds, as a multiple of the least one. -/
def timestampOf (t : Instant) : Nat := nearestDouble t 1000000

/-- `f'"{transcript.pk}:{transcript.updated_at.timestamp()}"'`. Different floats are written differently. -/
structure ETag where
  transcript : Uuid
  timestamp : Nat
  deriving DecidableEq, Repr

def etagOf (transcript : Transcript) : ETag := ⟨transcript.pk, timestampOf transcript.updatedAt⟩

/-- A response with a body, and the rows it was read from. -/
structure Served where
  version : ETag
  body : String
  segments : List TranscriptSegment
  deriving DecidableEq, Repr

/-- `clock` is the time of the last operation. -/
structure Serving where
  callbacks : Callbacks
  cache : List (ETag × String)
  served : List Served
  clock : Instant
  deriving DecidableEq

def Serving.rows (s : Serving) : Rows := s.callbacks.db.rows

/-- `approved_transcript_for` a lesson whose course is in this language. -/
def approvedTranscriptFor (language : String) (rows : Rows) : Option Transcript :=
  if rows.transcript.language = language ∧ rows.transcript.kind = .target ∧ rows.transcript.status = .approved then
    some rows.transcript
  else none

/-- `Meta.ordering` of the segments, and the prefetch's. -/
def inPositionOrder (segments : List TranscriptSegment) : List TranscriptSegment :=
  segments.insertionSort fun a b => a.position ≤ b.position

/-- The table's constraints let no cue raise. -/
theorem exists_renderVtt {segments : List TranscriptSegment} (hvalid : ∀ segment ∈ segments, segment.Valid) :
    ∃ body, renderVtt (inPositionOrder segments) = .ok body := by
  refine ⟨_, renderVtt_ok fun segment hsegment => ?_⟩
  have hsegment' := hvalid segment (List.mem_insertionSort _ |>.mp hsegment)
  have hstart := hsegment'.segmentStartsWithinTheMedia
  exact ⟨hstart, Int.le_trans hstart (Int.le_of_lt hsegment'.segmentEndsAfterItStarts)⟩

inductive SubtitleResponse
  | notFound
  | notModified
  | ok (version : ETag) (body : String)
  | raised (message : String)
  deriving DecidableEq, Repr

/-- `LessonTranscriptView.get` for a learner who may watch the lesson. -/
def getSubtitles (language : String) (ifNoneMatch : Option ETag) (s : Serving) : Serving × SubtitleResponse :=
  match approvedTranscriptFor language s.rows with
  | none => (s, .notFound)
  | some transcript =>
    let version := etagOf transcript
    if ifNoneMatch = some version then (s, .notModified)
    else
      match s.cache.lookup version with
      | some body => ({ s with served := s.served ++ [⟨version, body, s.rows.segments⟩] }, .ok version body)
      | none =>
        match renderVtt (inPositionOrder s.rows.segments) with
        | .error message => (s, .raised message)
        | .ok body =>
          ({ s with
              cache := (version, body) :: s.cache
              served := s.served ++ [⟨version, body, s.rows.segments⟩] }, .ok version body)

def Operation.now : Operation → Instant
  | .review _ now => now
  | .callback _ now => now

inductive ServingStep
  | handle (operation : Operation)
  | get (ifNoneMatch : Option ETag)
  | evict (version : ETag)
  deriving DecidableEq, Repr

def serve (provider language : String) (s : Serving) : ServingStep → Serving
  | .handle operation => { s with callbacks := operate provider s.callbacks operation, clock := operation.now }
  | .get ifNoneMatch => (getSubtitles language ifNoneMatch s).1
  | .evict version => { s with cache := s.cache.filter (·.1 ≠ version) }

/-! ### What is promised -/

/-- The clock of the operations strictly increases. -/
def Ticks (s : Serving) : ServingStep → Prop
  | .handle operation => s.clock < operation.now
  | _ => True

/-- A response is of the words there are, every response with its version has its body, and a body is called unchanged
only to those who were given it of the same rows. -/
def IsFresh (s : Serving) (ifNoneMatch : Option ETag) : SubtitleResponse → Prop
  | .ok version body =>
    s.rows.transcript.status = .approved ∧ renderVtt (inPositionOrder s.rows.segments) = .ok body ∧
      ∀ earlier ∈ s.served, earlier.version = version → earlier.body = body
  | .notModified =>
    s.rows.transcript.status = .approved ∧
      ∀ earlier ∈ s.served, ifNoneMatch = some earlier.version → earlier.segments = s.rows.segments
  | .notFound => True
  | .raised _ => False

def AnswersFresh (language : String) (s : Serving) : ServingStep → Prop
  | .get ifNoneMatch => IsFresh s ifNoneMatch (getSubtitles language ifNoneMatch s).2
  | _ => True

/-- Operations before this instant, in the year 2514, have floats of their own: two microseconds are told apart. -/
def FLOATS_DIFFER_BEFORE : Instant := 1000000 * 2 ^ 34

def InTime : ServingStep → Prop
  | .handle operation => operation.now < FLOATS_DIFFER_BEFORE
  | _ => True

instance (s : Serving) : DecidablePred (Ticks s)
  | .handle _ => inferInstanceAs (Decidable (_ < _))
  | .get _ => inferInstanceAs (Decidable True)
  | .evict _ => inferInstanceAs (Decidable True)

instance : DecidablePred InTime
  | .handle _ => inferInstanceAs (Decidable (_ < _))
  | .get _ => inferInstanceAs (Decidable True)
  | .evict _ => inferInstanceAs (Decidable True)

instance (s : Serving) (ifNoneMatch : Option ETag) : DecidablePred (IsFresh s ifNoneMatch)
  | .ok _ _ => inferInstanceAs (Decidable (_ ∧ _ ∧ ∀ earlier ∈ _, _))
  | .notModified => inferInstanceAs (Decidable (_ ∧ ∀ earlier ∈ _, _))
  | .notFound => inferInstanceAs (Decidable True)
  | .raised _ => inferInstanceAs (Decidable False)

instance (language : String) (s : Serving) : DecidablePred (AnswersFresh language s)
  | .handle _ => inferInstanceAs (Decidable True)
  | .get _ => inferInstanceAs (Decidable (IsFresh _ _ _))
  | .evict _ => inferInstanceAs (Decidable True)

/-- Nothing was served yet. -/
def Serving.start (db : Database) (events : List (WebhookEvent TranscriptionResult)) : Serving :=
  ⟨⟨db, events⟩, [], [], db.rows.transcript.updatedAt⟩

end EPlatform.Transcripts
