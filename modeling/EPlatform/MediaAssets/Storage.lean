import EPlatform.MediaAssets.MediaAsset

/-!
# Object storage

The names of objects and the checks on what landed: the part of `providers/storage.py` that decides.
-/

namespace EPlatform.MediaAssets

/-- `b"ftyp"`. -/
def ftyp : List UInt8 := [0x66, 0x74, 0x79, 0x70]

/-- Each accepted type, with the bytes that prove it and the offset they stand at. -/
def MAGIC_SIGNATURES : List (String × List (Nat × List UInt8)) :=
  [("video/mp4", [(4, ftyp)]), ("audio/mp4", [(4, ftyp)]), ("video/quicktime", [(4, ftyp)]),
    ("video/webm", [(0, [0x1a, 0x45, 0xdf, 0xa3])]), ("audio/webm", [(0, [0x1a, 0x45, 0xdf, 0xa3])]),
    ("audio/mpeg", [(0, [0x49, 0x44, 0x33]), (0, [0xff, 0xfb]), (0, [0xff, 0xf3]), (0, [0xff, 0xf2])])]

def EXTENSIONS : List (String × String) :=
  [("video/mp4", "mp4"), ("audio/mp4", "m4a"), ("video/quicktime", "mov"), ("video/webm", "webm"),
    ("audio/webm", "weba"), ("audio/mpeg", "mp3")]

structure StoredObject where
  sizeBytes : Int
  contentType : String
  etag : String
  deriving DecidableEq, Repr

/-- `token` is the random component. -/
def buildObjectKey (lessonId : Uuid) (contentType token : String) : Except Error ObjectKey :=
  match EXTENSIONS.lookup contentType with
  | none => .error (.unsupportedContentType contentType)
  | some extension => .ok ⟨lessonId, token, extension⟩

/-- `presigned_upload` refuses the types it has no signature for. -/
def presignedUpload (contentType : String) : Except Error Unit :=
  match MAGIC_SIGNATURES.lookup contentType with
  | none => .error (.unsupportedContentType contentType)
  | some _ => .ok ()

def looksLike (start : List UInt8) (contentType : String) : Bool :=
  match MAGIC_SIGNATURES.lookup contentType with
  | none => false
  | some signatures => signatures.any fun (offset, magic) => (start.drop offset).take magic.length = magic

end EPlatform.MediaAssets
