import EPlatform.Reading.Library
import EPlatform.Runs.Run

/-!
# The endpoints that read a lesson

Five routes in three apps, each with its own copy of the two gates: `LessonViewSet` and `LessonBySlugView` go through a
permission class, `LessonTranscriptView` and `LessonTranscriptPanelView` ask the resolver themselves, and
`LessonPlaybackTokenView` leaves it to `issue_playback_token`.
-/

namespace EPlatform.Reading

open Runs Runs.Query Entitlements Transcripts

/-! ### Answers -/

/-- The fields of `GatedLessonSerializer`. -/
structure GatedLesson where
  id : Uuid
  courseSlug : String
  sectionId : Uuid
  slug : String
  title : String
  body : String
  lessonType : Catalog.LessonType
  position : Int
  isPreview : Bool
  createdAt : Instant
  updatedAt : Instant
  deriving DecidableEq, Repr

def gatedLessonSerializer (loaded : LoadedLesson) : GatedLesson where
  id := loaded.lesson.pk
  courseSlug := loaded.course.slug
  sectionId := loaded.lesson.sectionId
  slug := loaded.lesson.slug
  title := loaded.lesson.title
  body := loaded.lesson.body
  lessonType := loaded.lesson.lessonType
  position := loaded.lesson.position
  isPreview := loaded.lesson.isPreview
  createdAt := loaded.lesson.createdAt
  updatedAt := loaded.lesson.updatedAt

/-- The fields of `LessonTranscriptSerializer`. -/
structure LessonTranscript where
  languageCode : String
  languageName : String
  segments : List Cue
  updatedAt : Instant
  deriving DecidableEq, Repr

def lessonTranscriptSerializer (transcript : LoadedTranscript) : LessonTranscript where
  languageCode := transcript.language.code
  languageName := transcript.language.name
  segments := (inPositionOrder transcript.row.segments).map TranscriptSegment.cue
  updatedAt := transcript.row.transcript.updatedAt

structure PlaybackToken where
  token : String
  playbackId : String
  expiresAt : Instant
  deriving DecidableEq, Repr

/-- `noTranscript` is a 404 without a body, `notFound` the one of `get_object_or_404`. -/
inductive Response
  | lesson (lesson : GatedLesson)
  | subtitles (version : ETag) (body : String)
  | panel (version : ETag) (transcript : LessonTranscript)
  | token (token : PlaybackToken)
  | notModified
  | notFound
  | noTranscript
  | entitlementDenied (reason : Reason) (cta : Option Cta)
  | notPlayable (status : Option MediaAssets.MediaAssetStatus)
  | serverError
  deriving DecidableEq, Repr

inductive Raised
  | http404
  | multipleObjectsReturned
  | entitlementDenied (decision : AccessDecision)
  | notPlayable (status : Option MediaAssets.MediaAssetStatus)
  | keyError (e : KeyError)
  | valueError (message : String)
  deriving DecidableEq, Repr

/-- The response to an exception that leaves a view. -/
def exceptionHandler : Raised → Response
  | .http404 => .notFound
  | .entitlementDenied decision => .entitlementDenied decision.reason decision.cta
  | _ => .serverError

/-! ### The two gates -/

structure Settings where
  entitlementGracePeriodDays : Int
  mediaPlaybackTokenTtlSeconds : Int
  deriving DecidableEq, Repr

/-- The two readings of the clock in the resolver, and the token the provider mints for a playback id and a lifetime. -/
structure Moment where
  now : Instant
  overridesNow : Instant
  getPlaybackToken : String → Int → PlaybackToken

def getObjectOr404 (lookup : LoadedLesson → Prop) [DecidablePred lookup] (queryset : List LoadedLesson) :
    Except Raised LoadedLesson :=
  match one lookup queryset with
  | .ok loaded => .ok loaded
  | .error .noRow => .error .http404
  | .error .severalRows => .error .multipleObjectsReturned

/-- `except NotPlayable`, around what mints a token. -/
def catchNotPlayable : Except Raised PlaybackToken → Except Raised Response
  | .error (.notPlayable status) => .ok (.notPlayable status)
  | .error raised => .error raised
  | .ok token => .ok (.token token)

section Views

variable (settings : Settings) (l : Library) (user : Caller) (moment : Moment)

/-- `resolve_access` on a loaded lesson. -/
def decisionOn (loaded : LoadedLesson) : Except KeyError AccessDecision :=
  resolveAccess settings.entitlementGracePeriodDays l.subscriptions l.overrides user
    ⟨loaded.lesson.isPreview, loaded.course.instructor⟩ moment.now moment.overridesNow

/-- `IsEntitledToLesson.has_object_permission`, and the same lines in the other views. -/
def isEntitledToLesson (loaded : LoadedLesson) : Except Raised Unit :=
  match decisionOn settings l user moment loaded with
  | .error e => .error (.keyError e)
  | .ok decision => if !decision.allowed then .error (.entitlementDenied decision) else .ok ()

/-! ### The views -/

def lessonViewSet (pk : Uuid) : Except Raised Response := do
  let loaded ← getObjectOr404 (·.lesson.pk = pk) (lessonsVisibleTo user l)
  isEntitledToLesson settings l user moment loaded
  return .lesson (gatedLessonSerializer loaded)

def lessonBySlugView (courseSlug lessonSlug : String) : Except Raised Response := do
  let loaded ← getObjectOr404 (fun loaded => loaded.course.slug = courseSlug ∧ loaded.lesson.slug = lessonSlug)
    (lessonsVisibleTo user l)
  isEntitledToLesson settings l user moment loaded
  return .lesson (gatedLessonSerializer loaded)

/-- `cache.get_or_set`. -/
def getOrSet (version : ETag) (render : Except String String) (cache : List (ETag × String)) :
    Except Raised (String × List (ETag × String)) :=
  match cache.lookup version with
  | some body => .ok (body, cache)
  | none =>
    match render with
    | .error message => .error (.valueError message)
    | .ok body => .ok (body, (version, body) :: cache)

/-- `LessonTranscriptView.get` on a lesson that passed the gates. -/
def sendSubtitles (loaded : LoadedLesson) (ifNoneMatch : Option ETag) (cache : List (ETag × String)) :
    Except Raised (Response × List (ETag × String)) :=
  match approvedTranscriptFor l loaded with
  | none => .ok (.noTranscript, cache)
  | some transcript =>
    let version := etagOf transcript.row.transcript
    if ifNoneMatch = some version then .ok (.notModified, cache)
    else do
      let (body, cache) ← getOrSet version (renderVtt (inPositionOrder transcript.row.segments)) cache
      return (.subtitles version body, cache)

def lessonTranscriptView (pk : Uuid) (ifNoneMatch : Option ETag) (cache : List (ETag × String)) :
    Except Raised (Response × List (ETag × String)) := do
  let loaded ← getObjectOr404 (·.lesson.pk = pk) (lessonsVisibleTo user l)
  isEntitledToLesson settings l user moment loaded
  sendSubtitles l loaded ifNoneMatch cache

/-- `LessonTranscriptPanelView.get` on a lesson that passed the gates. -/
def sendPanel (loaded : LoadedLesson) (ifNoneMatch : Option ETag) : Response :=
  match approvedTranscriptFor l loaded with
  | none => .noTranscript
  | some transcript =>
    let version := etagOf transcript.row.transcript
    if ifNoneMatch = some version then .notModified
    else .panel version (lessonTranscriptSerializer transcript)

def lessonTranscriptPanelView (pk : Uuid) (ifNoneMatch : Option ETag) : Except Raised Response := do
  let loaded ← getObjectOr404 (·.lesson.pk = pk) (lessonsVisibleTo user l)
  isEntitledToLesson settings l user moment loaded
  return sendPanel l loaded ifNoneMatch

/-- What `issue_playback_token` does once it has decided. -/
def mint (loaded : LoadedLesson) : Except Raised PlaybackToken :=
  match mediaAssetOf l loaded with
  | none => .error (.notPlayable none)
  | some asset =>
    if asset.status ≠ .ready then .error (.notPlayable (some asset.status))
    else .ok (moment.getPlaybackToken asset.providerPlaybackId settings.mediaPlaybackTokenTtlSeconds)

def issuePlaybackToken (loaded : LoadedLesson) : Except Raised PlaybackToken := do
  isEntitledToLesson settings l user moment loaded
  mint settings l moment loaded

def lessonPlaybackTokenView (pk : Uuid) : Except Raised Response := do
  let loaded ← getObjectOr404 (·.lesson.pk = pk) (lessonsVisibleTo user l)
  catchNotPlayable (issuePlaybackToken settings l user moment loaded)

end Views

/-! ### Requests -/

inductive Request
  | lesson (pk : Uuid)
  | lessonBySlug (courseSlug lessonSlug : String)
  | subtitles (pk : Uuid) (ifNoneMatch : Option ETag)
  | panel (pk : Uuid) (ifNoneMatch : Option ETag)
  | playbackToken (pk : Uuid)
  deriving DecidableEq, Repr

/-- The database, and the cache of rendered subtitles. -/
structure Site where
  db : Database
  cache : List (ETag × String)

def Site.library (s : Site) : Library := s.db.rows

theorem Site.valid (s : Site) : s.library.Valid := s.db.valid

/-- A view that leaves the cache alone. -/
def uncached (s : Site) (view : Except Raised Response) : Except Raised (Response × List (ETag × String)) :=
  view.map fun response => (response, s.cache)

def view (settings : Settings) (user : Caller) (s : Site) (moment : Moment) :
    Request → Except Raised (Response × List (ETag × String))
  | .lesson pk => uncached s (lessonViewSet settings s.library user moment pk)
  | .lessonBySlug courseSlug lessonSlug =>
    uncached s (lessonBySlugView settings s.library user moment courseSlug lessonSlug)
  | .subtitles pk ifNoneMatch => lessonTranscriptView settings s.library user moment pk ifNoneMatch s.cache
  | .panel pk ifNoneMatch => uncached s (lessonTranscriptPanelView settings s.library user moment pk ifNoneMatch)
  | .playbackToken pk => uncached s (lessonPlaybackTokenView settings s.library user moment pk)

def respond (settings : Settings) (user : Caller) (s : Site) (moment : Moment) (request : Request) : Site × Response :=
  match view settings user s moment request with
  | .ok (response, cache) => ({ s with cache := cache }, response)
  | .error raised => (s, exceptionHandler raised)

/-- Between the requests of a caller a cached rendering may expire. -/
inductive Event
  | request (moment : Moment) (request : Request)
  | expire (version : ETag)

def Site.handle (settings : Settings) (user : Caller) (s : Site) : Event → Site × Option Response
  | .request moment request =>
    ((respond settings user s moment request).1, some (respond settings user s moment request).2)
  | .expire version => ({ s with cache := s.cache.filter (·.1 ≠ version) }, none)

end EPlatform.Reading
