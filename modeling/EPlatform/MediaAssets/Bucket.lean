import EPlatform.MediaAssets.Pipeline
import EPlatform.Runs.History
import Mathlib.Logic.Function.Basic

/-!
# Masters in the bucket

Uploads with the object store in sight. A presigned URL may be used until it expires, and each PUT replaces the object
under its key. Completing an upload is four steps, the row, `head`, `read_prefix` and the write; handing a master over is
three, the row, the call and the write.
-/

namespace EPlatform.MediaAssets.Bucket

open Runs

/-- What `head` says of an object, and the bytes `read_prefix` returns. -/
structure Object where
  stored : StoredObject
  start : List UInt8
  deriving DecidableEq, Repr

/-- A presigned PUT. Its content type is signed and its size is not. -/
structure Upload where
  key : ObjectKey
  contentType : String
  expiresAt : Instant
  deriving DecidableEq, Repr

/-- What the holder of a URL chooses to send. -/
structure Body where
  sizeBytes : Nat
  etag : String
  start : List UInt8
  deriving DecidableEq, Repr

def Upload.object (upload : Upload) (body : Body) : Object where
  stored := ⟨body.sizeBytes, upload.contentType, body.etag⟩
  start := body.start

structure Settings where
  maxUploadBytes : Int
  uploadUrlTtl : Nat
  maxRetries : Int
  deriving DecidableEq, Repr

structure Store where
  db : Database
  objects : ObjectKey → Option Object
  uploads : List Upload

inductive Request
  | requestUpload (actor : User) (contentType : String)
  | put (upload : Upload) (body : Body)
  | completeUpload (actor : User)
  | processMediaAsset (retries : Nat)
  deriving DecidableEq, Repr

inductive Flight
  | uploading (actor : User) (contentType : String)
  | putting (upload : Upload) (body : Body)
  | completing (asset : MediaAsset) (actor : User)
  | reading (asset : MediaAsset) (stored : StoredObject)
  | discarding (key : ObjectKey) (message : String)
  | failing (message : String)
  | accepting (stored : StoredObject)
  | calling (key : ObjectKey) (retries : Nat)
  | answered (retries : Nat) (answer : Except Raised ProviderAsset)

/-- `storeRaises` says that a call to the object store fails. -/
structure Env where
  now : Instant
  token : String
  newPk : Uuid
  storeRaises : Bool
  answer : Answer ProviderAsset
  deriving DecidableEq, Repr

/-! ### Completing an upload, read by read -/

/-- The checks up to and with `head`. -/
def planHead (maxUploadBytes : Int) (lesson : Lesson) (asset : MediaAsset) (actor : User) (stored : Option StoredObject) :
    Except CompletionPlan StoredObject :=
  if ¬ mayManage lesson.instructor actor then .error (.refuse .notYours)
  else if asset.status ≠ .pending then .error (.refuse (.uploadNotAllowed asset.status))
  else
    match stored with
    | none => .error (.refuse .noUploadReceived)
    | some stored =>
      if stored.sizeBytes > maxUploadBytes then
        .error (.fail ("File is " ++ toString stored.sizeBytes ++ " bytes, over the limit.") .fileTooLarge)
      else .ok stored

/-- The check of what `read_prefix` returned. -/
def planPrefix (stored : StoredObject) (start : List UInt8) : CompletionPlan :=
  if ¬ looksLike start stored.contentType then
    .fail "File contents do not match the declared type." .contentsDoNotMatch
  else .accept stored

/-- With nothing between the two reads they decide what `planCompletion` does, which reads the object once. -/
theorem planCompletion_eq (maxUploadBytes : Int) (lesson : Lesson) (asset : MediaAsset) (actor : User) (landed : Landed) :
    planCompletion maxUploadBytes lesson asset actor landed =
      match planHead maxUploadBytes lesson asset actor landed.stored with
      | .error plan => plan
      | .ok stored => planPrefix stored landed.start := by
  by_cases hactor : mayManage lesson.instructor actor
  · by_cases hstatus : asset.status = .pending
    · cases hstored : landed.stored with
      | none => simp [planCompletion, planHead, hactor, hstatus, hstored]
      | some stored =>
        by_cases hsize : stored.sizeBytes > maxUploadBytes
        · simp [planCompletion, planHead, hactor, hstatus, hstored, hsize]
        · simp [planCompletion, planHead, planPrefix, hactor, hstatus, hstored, hsize]
    · simp [planCompletion, planHead, hactor, hstatus]
  · simp [planCompletion, planHead, hactor]

/-- `_fail` removes the object before it saves the row. -/
def follow (key : ObjectKey) : CompletionPlan → Option Flight
  | .refuse _ => none
  | .fail message _ => some (.discarding key message)
  | .accept stored => some (.accepting stored)

/-! ### The protocol -/

def load (request : Request) (s : Store) : Option Flight :=
  match request with
  | .requestUpload actor contentType => some (.uploading actor contentType)
  | .put upload body => some (.putting upload body)
  | .completeUpload actor => (assetsManageableBy s.db.rows actor).map fun asset => .completing asset actor
  | .processMediaAsset retries =>
    match planProcessing s.db.rows.asset with
    | .error _ => none
    | .ok key => some (.calling key retries)

/-- The URL an accepted request is answered with. -/
def issued (settings : Settings) (env : Env) (actor : User) (contentType : String) (rows : Rows) : List Upload :=
  match buildObjectKey rows.lesson.pk contentType env.token with
  | .error _ => []
  | .ok key =>
    if Database.Commits Rows.Valid (requestUpload actor contentType env.token env.newPk env.now rows) then
      [⟨key, contentType, env.now + settings.uploadUrlTtl⟩]
    else []

def Store.save (s : Store) (f : MediaAsset → MediaAsset) : Store :=
  { s with db := s.db.settle (.ok (s.db.rows.update f) : Except Error Rows) }

def act (settings : Settings) (env : Env) (flight : Flight) (s : Store) : Store × Option Flight :=
  match flight with
  | .uploading actor contentType =>
    ({ s with
      db := s.db.settle (requestUpload actor contentType env.token env.newPk env.now s.db.rows)
      uploads := s.uploads ++ issued settings env actor contentType s.db.rows }, none)
  | .putting upload body =>
    if upload ∈ s.uploads ∧ env.now ≤ upload.expiresAt then
      ({ s with objects := Function.update s.objects upload.key (some (upload.object body)) }, none)
    else (s, none)
  | .completing asset actor =>
    if env.storeRaises then (s, none)
    else
      let stored := (s.objects asset.sourceObjectKey).map (·.stored)
      match planHead settings.maxUploadBytes s.db.rows.lesson asset actor stored with
      | .error plan => (s, follow asset.sourceObjectKey plan)
      | .ok stored => (s, some (.reading asset stored))
  | .reading asset stored =>
    match s.objects asset.sourceObjectKey with
    | none => (s, none)
    | some object =>
      if env.storeRaises then (s, none)
      else (s, follow asset.sourceObjectKey (planPrefix stored object.start))
  | .discarding key message =>
    if env.storeRaises then (s, none)
    else ({ s with objects := Function.update s.objects key none }, some (.failing message))
  | .failing message => (s.save (saveFailure message env.now), none)
  | .accepting stored => (s.save (saveUpload stored env.now), none)
  | .calling _ retries => (s, some (.answered retries env.answer.result))
  | .answered retries answer => (s.save (writeProcessing settings.maxRetries retries answer), none)

def protocol (settings : Settings) : Protocol Store Flight Request Env where
  load := load
  act := act settings

/-- A lesson without media, and an empty bucket. -/
def Store.start (lesson : Lesson) : Store where
  db := (Webhooks.start lesson []).db
  objects := fun _ => none
  uploads := []

end EPlatform.MediaAssets.Bucket
