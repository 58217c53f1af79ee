import EPlatform.MediaAssets.Pipeline
import EPlatform.Transcripts.Tasks

/-!
# One lesson's media and subtitles

The two pipelines over one lesson: the asset's requests and tasks, and `request_transcription`, which reads the asset and
writes the transcript.
-/

namespace EPlatform.Lessons

open Runs MediaAssets Transcripts

structure Settings where
  media : MediaAssets.Settings
  transcriptionMaxRetries : Int
  deriving DecidableEq, Repr

structure Rows where
  media : Webhooks
  transcript : Option Transcripts.Database
  deriving DecidableEq

inductive Request
  | media (request : MediaAssets.Request)
  | requestTranscription (retries : Nat)
  deriving DecidableEq, Repr

/-- `request_transcription` after its read of the asset, after its guards on the transcript, and after the call. -/
inductive Flight
  | media (flight : MediaAssets.Flight)
  | requesting (asset : MediaAsset) (retries : Nat)
  | submitting (key : ObjectKey) (retries : Nat)
  | submitted (retries : Nat) (answer : Except Raised TranscriptionJob)

structure Env where
  media : MediaAssets.Env
  newTranscript : Uuid
  takenJobs : List (String × String)
  answer : Answer TranscriptionJob
  deriving DecidableEq, Repr

/-- The guards of `request_transcription` on the asset. -/
def planRequest (asset : Option MediaAsset) : Except RequestOutcome MediaAsset :=
  match asset with
  | none => .error .gone
  | some asset => if asset.status ≠ .ready then .error .notReady else .ok asset

theorem planRequest_ok {asset : Option MediaAsset} {found : MediaAsset} (h : planRequest asset = .ok found) :
    asset = some found := by
  cases asset with
  | none => cases h
  | some asset =>
    simp only [planRequest] at h
    split at h
    · cases h
    · cases h
      rfl

def load (settings : Settings) (request : Request) (s : Rows) : Option Flight :=
  match request with
  | .media request => (MediaAssets.load settings.media request s.media).map .media
  | .requestTranscription retries =>
    match planRequest s.media.db.rows.asset with
    | .error _ => none
    | .ok asset => some (.requesting asset retries)

/-- The transcript `get_or_create` answers with. -/
def transcriptFor (env : Env) (asset : MediaAsset) (s : Rows) : Transcripts.Database :=
  let lesson := s.media.db.rows.lesson
  getOrCreate env.newTranscript asset.pk lesson.instructor lesson.language env.media.now s.transcript

def act (settings : Settings) (env : Env) (flight : Flight) (s : Rows) : Rows × Option Flight :=
  match flight with
  | .media flight =>
    let (media, next) := MediaAssets.act settings.media env.media flight s.media
    ({ s with media }, next.map .media)
  | .requesting asset retries =>
    let db := transcriptFor env asset s
    match planSubmission db.rows.transcript with
    | .error _ => ({ s with transcript := some db }, none)
    | .ok _ => ({ s with transcript := some db }, some (.submitting asset.sourceObjectKey retries))
  | .submitting _ retries => (s, some (.submitted retries env.answer.result))
  | .submitted retries answer =>
    ({ s with
        transcript := s.transcript.map fun db =>
          db.settle (writeSubmission settings.transcriptionMaxRetries retries env.takenJobs answer db.rows) },
      none)

def lesson (settings : Settings) : Protocol Rows Flight Request Env where
  load := load settings
  act := act settings

/-! ### The stages of a request -/

/-- What a request has read when it comes to its first step. -/
inductive Loaded (settings : Settings) (s : Rows) : Request → Flight → Prop
  | media {request flight} (hmedia : MediaAssets.Loaded settings.media s.media request flight) :
    Loaded settings s (.media request) (.media flight)
  | requesting {retries asset} (hplan : planRequest s.media.db.rows.asset = .ok asset) :
    Loaded settings s (.requestTranscription retries) (.requesting asset retries)

theorem load_loaded {settings : Settings} {request : Request} {s : Rows} {flight : Flight}
    (h : load settings request s = some flight) : Loaded settings s request flight := by
  cases request with
  | media request =>
    obtain ⟨flight, hload, rfl⟩ := Option.map_eq_some_iff.mp h
    exact .media (MediaAssets.load_loaded hload)
  | requestTranscription retries =>
    simp only [load] at h
    split at h
    · cases h
    · rename_i hplan
      cases h
      exact .requesting hplan

/-- Each stage and the one after it. -/
inductive Next (env : Env) (s : Rows) : Flight → Flight → Prop
  | media {key retries} :
    Next env s (.media (.calling key retries)) (.media (.answered key retries env.media.answer.result))
  | requesting {asset retries transcript}
    (hplan : planSubmission (transcriptFor env asset s).rows.transcript = .ok transcript) :
    Next env s (.requesting asset retries) (.submitting asset.sourceObjectKey retries)
  | submitting {key retries} : Next env s (.submitting key retries) (.submitted retries env.answer.result)

theorem act_next {settings : Settings} {env : Env} {flight flight' : Flight} {s : Rows}
    (h : (act settings env flight s).2 = some flight') : Next env s flight flight' := by
  cases flight with
  | media flight =>
    obtain ⟨next, hnext, rfl⟩ := Option.map_eq_some_iff.mp h
    obtain ⟨key, retries, rfl, rfl⟩ := MediaAssets.act_next hnext
    exact .media
  | requesting asset retries =>
    simp only [act] at h
    split at h
    · cases h
    · rename_i hplan
      cases h
      exact .requesting hplan
  | submitting key retries =>
    cases h
    exact .submitting
  | submitted retries answer => cases h

end EPlatform.Lessons
