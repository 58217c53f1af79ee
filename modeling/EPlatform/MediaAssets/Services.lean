import EPlatform.MediaAssets.Storage

/-!
# Uploads

The three writes a person can cause. `requestUpload` locks the row it replaces; `completeUpload` and `retryProcessing` act
on an asset loaded earlier and write the columns their `save` names.
-/

namespace EPlatform.MediaAssets

open Runs

/-- States an upload may replace. -/
def REPLACEABLE : List MediaAssetStatus := [.pending, .uploaded, .failed]

def Rows.update (rows : Rows) (f : MediaAsset → MediaAsset) : Rows := { rows with asset := rows.asset.map f }

/-- `MediaAsset(lesson=lesson)`, with the columns' defaults. -/
def MediaAsset.new (pk : Uuid) (key : ObjectKey) (now : Instant) : MediaAsset where
  pk := pk
  sourceObjectKey := key
  sourceBytes := 1
  sourceChecksum := ""
  provider := ""
  providerAssetId := ""
  providerPlaybackId := ""
  durationSeconds := none
  status := .pending
  errorMessage := ""
  retryCount := 0
  updatedAt := now

/-- The columns a replacement starts clean. -/
def MediaAsset.replace (asset : MediaAsset) (key : ObjectKey) (now : Instant) : MediaAsset :=
  { asset with
    sourceObjectKey := key
    sourceBytes := 1
    provider := ""
    providerAssetId := ""
    providerPlaybackId := ""
    status := .pending
    errorMessage := ""
    retryCount := 0
    updatedAt := now }

/-- One transaction: the row is read `for update`, and written before it is released. -/
def requestUpload (actor : User) (contentType token : String) (newPk : Uuid) (now : Instant) (rows : Rows) :
    Except Error Rows := do
  require (mayManage rows.lesson.instructor actor) .notYours
  require (∀ asset ∈ rows.asset, asset.status ∈ REPLACEABLE)
    (.uploadNotAllowed ((rows.asset.map (·.status)).getD .pending))
  let key ← buildObjectKey rows.lesson.pk contentType token
  presignedUpload contentType
  let asset := (rows.asset.map fun asset => asset.replace key now).getD (.new newPk key now)
  return { rows with asset := some asset }

/-! ### Completing an upload -/

/-- What the store says about an object: `head`, then the first bytes. -/
structure Landed where
  stored : Option StoredObject
  start : List UInt8
  deriving DecidableEq, Repr

/-- What `complete_upload` decides from the asset it holds and the store's answers. -/
inductive CompletionPlan
  | refuse (error : Error)
  | fail (message : String) (error : Error)
  | accept (stored : StoredObject)
  deriving DecidableEq, Repr

def planCompletion (maxUploadBytes : Int) (lesson : Lesson) (asset : MediaAsset) (actor : User) (landed : Landed) :
    CompletionPlan :=
  if ¬ mayManage lesson.instructor actor then .refuse .notYours
  else if asset.status ≠ .pending then .refuse (.uploadNotAllowed asset.status)
  else
    match landed.stored with
    | none => .refuse .noUploadReceived
    | some stored =>
      if stored.sizeBytes > maxUploadBytes then
        .fail ("File is " ++ toString stored.sizeBytes ++ " bytes, over the limit.") .fileTooLarge
      else if ¬ looksLike landed.start stored.contentType then
        .fail "File contents do not match the declared type." .contentsDoNotMatch
      else .accept stored

/-- `asset.save(update_fields=["status", "error_message", "updated_at"])`. -/
def saveFailure (message : String) (now : Instant) (asset : MediaAsset) : MediaAsset :=
  { asset with status := .failed, errorMessage := message, updatedAt := now }

/-- `asset.save(update_fields=["source_bytes", "source_checksum", "status", "updated_at"])`. -/
def saveUpload (stored : StoredObject) (now : Instant) (asset : MediaAsset) : MediaAsset :=
  { asset with sourceBytes := stored.sizeBytes, sourceChecksum := stored.etag, status := .uploaded, updatedAt := now }

/-- The failure is committed before it is raised, so both plans that write return the rows they leave. -/
def CompletionPlan.transaction (now : Instant) (rows : Rows) : CompletionPlan → Except Error Rows
  | .refuse error => .error error
  | .fail message _ => .ok (rows.update (saveFailure message now))
  | .accept stored => .ok (rows.update (saveUpload stored now))

def completeUpload (maxUploadBytes : Int) (asset : MediaAsset) (actor : User) (landed : Landed) (now : Instant)
    (rows : Rows) : Except Error Rows :=
  (planCompletion maxUploadBytes rows.lesson asset actor landed).transaction now rows

/-! ### Retrying -/

/-- `asset.save(update_fields=["status", "error_message", "retry_count", "updated_at"])`. -/
def saveRetry (now : Instant) (asset : MediaAsset) : MediaAsset :=
  { asset with status := .uploaded, errorMessage := "", retryCount := 0, updatedAt := now }

def retryProcessing (asset : MediaAsset) (actor : User) (now : Instant) (rows : Rows) : Except Error Rows := do
  require (mayManage rows.lesson.instructor actor) .notYours
  require (asset.status = .failed) (.uploadNotAllowed asset.status)
  return rows.update (saveRetry now)

end EPlatform.MediaAssets
