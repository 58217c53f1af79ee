import EPlatform.Core.Columns
import EPlatform.Core.PyValue
import EPlatform.Formats.Base64
import EPlatform.Formats.Double
import EPlatform.Formats.Lines
import Mathlib.Data.Nat.Digits.Defs

/-!
# Playback tokens

`FakeVideoProvider` signs a playback id and a second, and verifies what it is shown later. What it signs can be spelled in
more than one way, and only payloads it has signed are ever accepted.
-/

namespace EPlatform.MediaAssets

open Runs Formats Base64

/-- What is beyond the source: the keyed hash, and the digits of other scripts, which `int` reads. -/
structure FakeVideoProvider where
  hmac : List UInt8 → List UInt8
  decimal : Char → Option Nat

/-! ### What the module uses of Python -/

/-- `text.encode()`. -/
def encodeUtf8 (text : String) : List UInt8 := text.toByteArray.data.toList

/-- `raw.decode()`, whose error is a `ValueError`. -/
def decodeUtf8 (raw : List UInt8) : Except PyException String :=
  match String.fromUTF8? ⟨raw.toArray⟩ with
  | some text => .ok text
  | none => .error .valueError

/-- Text of ASCII characters. -/
def ofAscii (raw : List UInt8) : PyString := raw.map fun c => .ofNat c.toNat

/-- The bytes of a text, for functions that take ASCII only. -/
def toAscii (text : PyString) : Except PyException (List UInt8) := do
  require (text.all (·.val < 128) = true) .valueError
  return text.map fun c => UInt8.ofNat c.val

/-- `text.rsplit(":", 1)`, unpacked into two. -/
def rsplitColon (text : String) : Except PyException (String × String) :=
  match text.toList.reverse.dropWhile (· ≠ ':') with
  | [] => .error .valueError
  | _ :: before => .ok (.ofList before.reverse, .ofList (text.toList.reverse.takeWhile (· ≠ ':')).reverse)

/-- `sys.get_int_max_str_digits()`. -/
def INT_MAX_STR_DIGITS : Nat := 4300

/-- `timedelta.total_seconds` of the time since the epoch, as a multiple of the least double. -/
def timestamp (t : Int) : Int := t.sign * nearestDouble t.natAbs 1000000

/-- One second, as such a multiple. -/
def SECOND : Int := (2 ^ LEAST_PLACE : Nat)

/-- The moments a `datetime` can be: the years 1 to 9999. -/
def IsDatetime (t : Int) : Prop := -62135596800000000 ≤ t ∧ t < 253402300800000000

instance (t : Int) : Decidable (IsDatetime t) := inferInstanceAs (Decidable (_ ∧ _))

/-! ### Signing -/

/-- `_b64`. -/
def b64 (raw : List UInt8) : List UInt8 := stripped (urlsafeEncode raw)

/-- `_unb64`. -/
def unb64 (encoded : PyString) : Except PyException (List UInt8) := do
  let text ← toAscii (encoded ++ List.replicate ((4 - encoded.length % 4) % 4) (.ofNat 61))
  match urlsafeDecode text with
  | some raw => return raw
  | none => throw .valueError

structure PlaybackToken where
  token : PyString
  playbackId : String
  expiresAt : Int

/-- One call of `get_playback_token`, and the time it is made at. -/
structure TokenRequest where
  playbackId : String
  ttlSeconds : Int
  now : Instant

def TokenRequest.expiresAt (request : TokenRequest) : Int := request.now + request.ttlSeconds * 1000000

/-- `int(expires_at.timestamp())`. -/
def TokenRequest.expiry (request : TokenRequest) : Int := (timestamp request.expiresAt).tdiv SECOND

def TokenRequest.payload (request : TokenRequest) : List UInt8 :=
  encodeUtf8 (request.playbackId ++ ":" ++ request.expiry.repr)

namespace FakeVideoProvider

variable (provider : FakeVideoProvider)

def getPlaybackToken (request : TokenRequest) : Except PyException PlaybackToken := do
  require (IsDatetime request.expiresAt) .overflowError
  let payload := request.payload
  let signature := provider.hmac payload
  let token := ofAscii (b64 payload ++ [46] ++ b64 signature)
  return ⟨token, request.playbackId, request.expiresAt⟩

/-! ### Verifying -/

def digit (c : Char) : Option Nat := if c.isDigit then some (c.toNat - '0'.toNat) else provider.decimal c

/-- The digits of a number, with single underscores among them. -/
def digits (text : List Char) : Except PyException (List Nat) :=
  if [] ∈ text.splitOn '_' then .error .valueError
  else
    match (text.filter (· ≠ '_')).mapM provider.digit with
    | none => .error .valueError
    | some digits => if digits.length ≤ INT_MAX_STR_DIGITS then .ok digits else .error .valueError

def natural (text : List Char) : Except PyException Int :=
  (provider.digits text).map fun digits => ((digits.foldl (fun n d => 10 * n + d) 0 : Nat) : Int)

/-- `int(text)`. -/
def int (text : String) : Except PyException Int :=
  match (strip text).toList with
  | '-' :: rest => (provider.natural rest).map (- ·)
  | '+' :: rest => provider.natural rest
  | rest => provider.natural rest

/-- The two halves of a token, decoded. -/
def halves (token : PyString) : Except PyException (List UInt8 × List UInt8) :=
  match token.splitOn (.ofNat 46) with
  | [encodedPayload, encodedSignature] => do
    let payload ← unb64 encodedPayload
    let signature ← unb64 encodedSignature
    return (payload, signature)
  | _ => .error .valueError

/-- What stands in the `try` of `verify_playback_token`. -/
def read (token : PyString) : Except PyException (List UInt8 × List UInt8 × String × String) := do
  let (payload, signature) ← halves token
  let text ← decodeUtf8 payload
  let (signedId, expiry) ← rsplitColon text
  return (payload, signature, signedId, expiry)

def verifyPlaybackToken (token : PyString) (playbackId : String) (now : Instant) : Except PyException Bool :=
  match read token with
  | .error .valueError => return false
  | .error .typeError => return false
  | .error exc => throw exc
  | .ok (payload, signature, signedId, expiry) =>
    if signature ≠ provider.hmac payload then return false
    else if signedId ≠ playbackId then return false
    else do
      let expiry ← provider.int expiry
      return timestamp now < expiry * SECOND

end FakeVideoProvider

/-! ### Text and bytes -/

theorem decodeUtf8_encodeUtf8 (text : String) : decodeUtf8 (encodeUtf8 text) = .ok text := by
  have hbytes : ByteArray.mk (encodeUtf8 text).toArray = text.toByteArray := rfl
  have hfrom : String.fromUTF8? text.toByteArray = some text := by
    rw [String.fromUTF8?, dif_pos text.isValidUTF8]
    rfl
  rw [decodeUtf8, hbytes, hfrom]

theorem toAscii_ofAscii {raw : List UInt8} (h : ∀ c ∈ raw, c.toNat < 128) : toAscii (ofAscii raw) = .ok raw := by
  have hval : ∀ c ∈ raw, (CodePoint.ofNat c.toNat).val = c.toNat := by
    intro c hc
    have hc := h c hc
    exact Nat.mod_eq_of_lt (by omega)
  rw [toAscii, require_bind_of]
  · rw [ofAscii, List.map_map]
    congr 1
    refine (List.map_congr_left fun c hc => ?_).trans (List.map_id raw)
    rw [Function.comp_apply, hval c hc, UInt8.ofNat_toNat, id_eq]
  · rw [List.all_eq_true]
    intro c hc
    obtain ⟨d, hd, rfl⟩ := List.mem_map.mp hc
    rw [hval d hd]
    exact decide_eq_true (h d hd)

theorem rsplitColon_append (front : String) {back : String} (h : ':' ∉ back.toList) :
    rsplitColon (front ++ ":" ++ back) = .ok (front, back) := by
  have hback : ∀ c ∈ back.toList.reverse, decide (c ≠ ':') = true := by
    intro c hc
    exact decide_eq_true (ne_of_mem_of_not_mem (List.mem_reverse.mp hc) h)
  have hreverse : (front ++ ":" ++ back).toList.reverse = back.toList.reverse ++ ':' :: front.toList.reverse := by
    simp
  rw [rsplitColon, hreverse, List.dropWhile_append_of_pos hback, List.takeWhile_append_of_pos hback]
  simp

theorem colon_not_mem_repr (n : Int) : ':' ∉ n.repr.toList := by
  have hdigits : ∀ k, ':' ∉ (Nat.toDigits 10 k) := by
    intro k h
    exact absurd (Nat.isDigit_of_mem_toDigits (by decide) (by decide) h) (by decide)
  cases n with
  | ofNat k =>
    change ':' ∉ (Nat.repr k).toList
    rw [Nat.toList_repr]
    exact hdigits k
  | negSucc k =>
    change ':' ∉ ("-" ++ Nat.repr (k + 1)).toList
    rw [String.toList_append, Nat.toList_repr, List.mem_append]
    rintro (h | h)
    · exact absurd h (by decide)
    · exact hdigits _ h

/-! ### Numbers -/

section Numbers

variable (provider : FakeVideoProvider)

theorem digits_toDigits {n : Nat} (h : n < 10 ^ 12) :
    provider.digits (Nat.toDigits 10 n) = .ok ((Nat.toDigits 10 n).map fun c => c.toNat - '0'.toNat) := by
  have hdigit : ∀ c ∈ Nat.toDigits 10 n, c.isDigit := fun c hc =>
    Nat.isDigit_of_mem_toDigits (by decide) (by decide) hc
  have hfilter : (Nat.toDigits 10 n).filter (· ≠ '_') = Nat.toDigits 10 n := by
    rw [List.filter_eq_self]
    exact fun c hc => decide_eq_true (ne_of_mem_of_not_mem hc Nat.underscore_not_in_toDigits)
  have hmap : (Nat.toDigits 10 n).mapM provider.digit =
      some ((Nat.toDigits 10 n).map fun c => c.toNat - '0'.toNat) := by
    rw [mapM_eq_some_iff, List.map_map]
    apply List.map_congr_left
    intro c hc
    rw [FakeVideoProvider.digit, if_pos (hdigit c hc), Function.comp_apply]
  have hlength : (Nat.toDigits 10 n).length ≤ INT_MAX_STR_DIGITS :=
    Nat.le_trans (Nat.toDigits_length 10 n 12 (by decide) h) (by decide)
  rw [FakeVideoProvider.digits, List.splitOn_eq_singleton Nat.underscore_not_in_toDigits, if_neg, hfilter, hmap]
  · simp only [List.length_map, if_pos hlength]
  · rw [List.mem_singleton]
    exact fun hempty => Nat.toDigits_ne_nil hempty.symm

theorem strip_digits {text : String} (h : ∀ c ∈ text.toList, isWhitespace c = false) :
    (strip text).toList = text.toList := by
  rw [toList_strip, List.dropWhile_eq_self_iff.mpr, List.rdropWhile_eq_self_iff.mpr]
  · intro hne
    simp [h _ (List.getLast_mem hne)]
  · intro hlength
    simp [h _ (List.getElem_mem hlength)]

theorem isWhitespace_of_digit {c : Char} (h : c.isDigit) : isWhitespace c = false := by
  simp only [Char.isDigit, Bool.and_eq_true, decide_eq_true_eq] at h
  have hlow : 48 ≤ c.toNat := h.1
  have hhigh : c.toNat ≤ 57 := h.2
  unfold isWhitespace
  simp
  omega

theorem natural_toDigits {n : Nat} (h : n < 10 ^ 12) : provider.natural (Nat.toDigits 10 n) = .ok (n : Int) := by
  have hvalue : ((Nat.toDigits 10 n).map fun c => c.toNat - '0'.toNat).foldl (fun n d => 10 * n + d) 0 = n := by
    rw [List.foldl_map]
    exact Nat.ofDigitChars_ten_toDigits
  rw [FakeVideoProvider.natural, digits_toDigits provider h, Except.map, hvalue]

/-- `int` reads back what `str` writes. -/
theorem int_repr {n : Int} (h : n.natAbs < 10 ^ 12) : provider.int n.repr = .ok n := by
  have hdigit : ∀ k, ∀ c ∈ Nat.toDigits 10 k, c.isDigit := fun k c hc =>
    Nat.isDigit_of_mem_toDigits (by decide) (by decide) hc
  cases n with
  | ofNat k =>
    have htext : (Int.ofNat k).repr.toList = Nat.toDigits 10 k := Nat.toList_repr
    have hstrip : (strip (Int.ofNat k).repr).toList = Nat.toDigits 10 k := by
      rw [strip_digits, htext]
      intro c hc
      rw [htext] at hc
      exact isWhitespace_of_digit (hdigit k c hc)
    rw [FakeVideoProvider.int, hstrip]
    split
    · rename_i rest heq
      exact absurd (hdigit k '-' (heq ▸ List.mem_cons_self)) (by decide)
    · rename_i rest heq
      exact absurd (hdigit k '+' (heq ▸ List.mem_cons_self)) (by decide)
    · exact natural_toDigits provider h
  | negSucc k =>
    have htext : (Int.negSucc k).repr.toList = '-' :: Nat.toDigits 10 (k + 1) := by
      change ("-" ++ Nat.repr (k + 1)).toList = _
      rw [String.toList_append, Nat.toList_repr]
      rfl
    have hstrip : (strip (Int.negSucc k).repr).toList = '-' :: Nat.toDigits 10 (k + 1) := by
      rw [strip_digits, htext]
      intro c hc
      rw [htext] at hc
      rcases List.mem_cons.mp hc with rfl | hc
      · decide
      · exact isWhitespace_of_digit (hdigit _ c hc)
    have hnatural : provider.natural (Nat.toDigits 10 (k + 1)) = .ok ((k + 1 : Nat) : Int) :=
      natural_toDigits provider h
    rw [FakeVideoProvider.int, hstrip]
    change (provider.natural (Nat.toDigits 10 (k + 1))).map (- ·) = _
    rw [hnatural]
    rfl

end Numbers

/-! ### Halves -/

theorem unb64_ofAscii {text : List UInt8} (h : ∀ c ∈ text, c.toNat < 128) : unb64 (ofAscii text) =
    match urlsafeDecode (padded text) with
    | some raw => .ok raw
    | none => .error .valueError := by
  have hpadded : ofAscii text ++ List.replicate ((4 - (ofAscii text).length % 4) % 4) (.ofNat 61) = ofAscii (padded text) := by
    rw [padded, ofAscii, ofAscii, List.map_append, List.map_replicate, List.length_map]
    rfl
  have hascii : ∀ c ∈ padded text, c.toNat < 128 := by
    intro c hc
    rcases List.mem_append.mp hc with hc | hc
    · exact h c hc
    · rw [List.eq_of_mem_replicate hc]
      decide
  rw [unb64, hpadded, toAscii_ofAscii hascii]
  simp only [bind, Except.bind]
  cases urlsafeDecode (padded text) <;> rfl

theorem unb64_b64 (raw : List UInt8) : unb64 (ofAscii (b64 raw)) = .ok raw := by
  rw [b64, unb64_ofAscii fun c hc => (mem_stripped raw c hc).2.2, padded_stripped, urlsafeDecode_urlsafeEncode]

/-- The padding may stay on. -/
theorem unb64_urlsafeEncode (raw : List UInt8) : unb64 (ofAscii (urlsafeEncode raw)) = .ok raw := by
  rw [unb64_ofAscii fun c hc => (mem_urlsafeEncode raw c hc).2, padded_urlsafeEncode, urlsafeDecode_urlsafeEncode]

/-- Two texts without a full stop, joined by one, are what a token is split into. -/
theorem halves_join {front back payload signature : List UInt8} (hfront : ∀ c ∈ front, c ≠ 46 ∧ c.toNat < 128)
    (hback : ∀ c ∈ back, c ≠ 46 ∧ c.toNat < 128) (hpayload : unb64 (ofAscii front) = .ok payload)
    (hsignature : unb64 (ofAscii back) = .ok signature) :
    FakeVideoProvider.halves (ofAscii (front ++ [46] ++ back)) = .ok (payload, signature) := by
  have hdot : ∀ text : List UInt8, (∀ c ∈ text, c ≠ 46 ∧ c.toNat < 128) → CodePoint.ofNat 46 ∉ ofAscii text := by
    intro text htext hmem
    obtain ⟨c, hc, heq⟩ := List.mem_map.mp hmem
    have hval := congrArg Fin.val heq
    have hsmall := (htext c hc).2
    change c.toNat % 0x110000 = 46 at hval
    rw [Nat.mod_eq_of_lt (by omega)] at hval
    exact (htext c hc).1 (UInt8.toNat_inj.mp hval)
  have hjoin : ofAscii (front ++ [46] ++ back) = ofAscii front ++ .ofNat 46 :: ofAscii back := by
    simp [ofAscii]
  rw [FakeVideoProvider.halves, hjoin, List.splitOn_append_cons_self_of_not_mem (hdot front hfront),
    List.splitOn_eq_singleton (hdot back hback)]
  simp only [hpayload, hsignature]
  rfl

end EPlatform.MediaAssets
