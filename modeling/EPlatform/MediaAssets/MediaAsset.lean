import Mathlib.Data.List.Infix
import EPlatform.Accounts.User
import EPlatform.Core.Text
import EPlatform.Runs.Transaction

/-!
# Media assets as rows

The master we own and the derived copy a provider holds: one asset a lesson, from upload through to playable, with the
constraints its table carries.
-/

namespace EPlatform.MediaAssets

open Runs

inductive MediaAssetStatus
  | pending
  | uploaded
  | transcoding
  | ready
  | failed
  deriving DecidableEq, Repr

/-- The lesson with what the queries join to it: its course's instructor and language. -/
structure Lesson where
  pk : Uuid
  instructor : Uuid
  language : String
  deriving DecidableEq, Repr

/-- `masters/{lesson}/{token}.{extension}`. -/
structure ObjectKey where
  lesson : Uuid
  token : String
  extension : String
  deriving DecidableEq, Repr

structure MediaAsset where
  pk : Uuid
  sourceObjectKey : ObjectKey
  sourceBytes : Int
  sourceChecksum : String
  provider : String
  providerAssetId : String
  providerPlaybackId : String
  durationSeconds : Option Int
  status : MediaAssetStatus
  errorMessage : String
  retryCount : Int
  updatedAt : Instant
  deriving DecidableEq, Repr

structure Rows where
  lesson : Lesson
  asset : Option MediaAsset
  deriving DecidableEq, Repr

/-! ### Constraints -/

def IsUrl (s : String) : Prop := "://".toList <:+: s.toList

instance (s : String) : Decidable (IsUrl s) := inferInstanceAs (Decidable (_ <:+: _))

structure MediaAsset.Valid (a : MediaAsset) : Prop where
  providerIdsAreNotUrls : ¬ IsUrl a.providerAssetId ∧ ¬ IsUrl a.providerPlaybackId
  readyAssetsArePlayable : a.status = .ready → a.providerAssetId ≠ "" ∧ a.providerPlaybackId ≠ ""
  failedAssetsExplainWhy : a.status = .failed → a.errorMessage ≠ ""
  sourceHasBytes : 0 < a.sourceBytes ∧ IsBigInteger a.sourceBytes
  durationSeconds : ∀ n, a.durationSeconds = some n → IsPositiveInteger n
  retryCount : IsPositiveSmallInteger a.retryCount
  lengths : a.sourceChecksum.length ≤ 128 ∧ a.provider.length ≤ 32 ∧ a.providerAssetId.length ≤ 128 ∧
    a.providerPlaybackId.length ≤ 128

instance (a : MediaAsset) : Decidable a.Valid :=
  decidable_of_iff
    ((¬ IsUrl a.providerAssetId ∧ ¬ IsUrl a.providerPlaybackId) ∧
      (a.status = .ready → a.providerAssetId ≠ "" ∧ a.providerPlaybackId ≠ "") ∧
      (a.status = .failed → a.errorMessage ≠ "") ∧ (0 < a.sourceBytes ∧ IsBigInteger a.sourceBytes) ∧
      (∀ n ∈ a.durationSeconds, IsPositiveInteger n) ∧ IsPositiveSmallInteger a.retryCount ∧
      a.sourceChecksum.length ≤ 128 ∧ a.provider.length ≤ 32 ∧ a.providerAssetId.length ≤ 128 ∧
        a.providerPlaybackId.length ≤ 128)
    ⟨fun ⟨h₁, h₂, h₃, h₄, h₅, h₆, h₇⟩ => ⟨h₁, h₂, h₃, h₄, h₅, h₆, h₇⟩,
      fun ⟨h₁, h₂, h₃, h₄, h₅, h₆, h₇⟩ => ⟨h₁, h₂, h₃, h₄, h₅, h₆, h₇⟩⟩

def Rows.Valid (r : Rows) : Prop := ∀ a ∈ r.asset, a.Valid

instance : DecidablePred Rows.Valid := fun r => inferInstanceAs (Decidable (∀ a ∈ r.asset, a.Valid))

abbrev Database := Runs.Database Rows.Valid

inductive Error
  | notYours
  | unsupportedContentType (contentType : String)
  | uploadNotAllowed (status : MediaAssetStatus)
  | noUploadReceived
  | fileTooLarge
  | contentsDoNotMatch
  | noSuchAsset
  deriving DecidableEq, Repr

end EPlatform.MediaAssets
