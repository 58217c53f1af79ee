import EPlatform.MediaAssets.PlaybackTokens

/-!
# A playback token opens one asset until one moment

The keyed hash is any function. A token that nobody forged carries a hash only of a payload that was signed, and verifying
it answers for that payload.
-/

namespace EPlatform.MediaAssets

open Runs Formats Base64

namespace FakeVideoProvider

variable (provider : FakeVideoProvider)

/-- The token is decoded to what the request signed, and its signature. -/
def Carries (token : PyString) (request : TokenRequest) : Prop :=
  halves token = .ok (request.payload, provider.hmac request.payload)

/-- A payload that comes with its hash is one of those signed. -/
def Unforged (issued : List TokenRequest) (token : PyString) : Prop :=
  ∀ payload, halves token = .ok (payload, provider.hmac payload) →
    ∃ request ∈ issued, IsDatetime request.expiresAt ∧ request.payload = payload

/-- The asset and the time a request asked for. -/
def Admits (request : TokenRequest) (playbackId : String) (now : Instant) : Prop :=
  request.playbackId = playbackId ∧ timestamp now < request.expiry * SECOND

/-- The token answers for one asset, never at the signed second or after it, and always before it as long as a second
can be told from the microsecond before. -/
structure OpensOneAsset (request : TokenRequest) (token : PyString) : Prop where
  answers : ∀ playbackId now, ∃ opens, provider.verifyPlaybackToken token playbackId now = .ok opens ∧
    (opens = true ↔ Admits request playbackId now)
  oneAsset : ∀ playbackId now, playbackId ≠ request.playbackId →
    provider.verifyPlaybackToken token playbackId now = .ok false
  closes : ∀ playbackId (now : Instant), request.expiry * 1000000 ≤ now →
    provider.verifyPlaybackToken token playbackId now = .ok false
  opens : request.expiry ≤ 2 ^ 34 → ∀ now : Instant, now < request.expiry * 1000000 →
    provider.verifyPlaybackToken token request.playbackId now = .ok true

end FakeVideoProvider

/-! ### Seconds and instants -/

theorem timestamp_natCast (now : Nat) : timestamp now = nearestDouble now 1000000 := by
  cases now with
  | zero =>
    have hzero : nearestDouble (0 * 1000000) 1000000 = 0 * 2 ^ LEAST_PLACE := nearestDouble_mul (by decide) (by decide)
    simp only [Nat.zero_mul] at hzero
    rw [hzero, timestamp, Nat.cast_zero, Int.sign_zero, Int.zero_mul]
  | succ n =>
    rw [timestamp, Int.sign_natCast_of_ne_zero (Nat.succ_ne_zero n), Int.natAbs_natCast, Int.one_mul]

theorem natCast_mul_second (n : Nat) : (n : Int) * SECOND = ((n * 2 ^ LEAST_PLACE : Nat) : Int) := by
  rw [SECOND, ← Int.natCast_mul]

theorem second_pos : 0 < SECOND := Int.natCast_pos.mpr (Nat.two_pow_pos LEAST_PLACE)

theorem le_timestamp {seconds : Int} {now : Nat} (hseconds : seconds < 2 ^ 53) (h : seconds * 1000000 ≤ now) :
    seconds * SECOND ≤ timestamp now := by
  rw [timestamp_natCast]
  cases seconds with
  | negSucc n =>
    have hneg : Int.negSucc n * SECOND < 0 := Int.mul_neg_of_neg_of_pos (Int.negSucc_lt_zero n) second_pos
    exact Int.le_trans (Int.le_of_lt hneg) (Int.natCast_nonneg _)
  | ofNat n =>
    change (n : Int) < 2 ^ 53 at hseconds
    change (n : Int) * 1000000 ≤ now at h
    have hn : n < 2 ^ 53 := by omega
    have hnow : n * 1000000 ≤ now := by omega
    have hmono : nearestDouble (n * 1000000) 1000000 ≤ nearestDouble now 1000000 := nearestDouble_mono (by decide) hnow
    rw [nearestDouble_mul (by decide) hn] at hmono
    change (n : Int) * SECOND ≤ _
    rw [natCast_mul_second]
    exact Int.ofNat_le.mpr hmono

theorem timestamp_lt {seconds : Int} {now : Nat} (hseconds : seconds ≤ 2 ^ 34) (h : now < seconds * 1000000) :
    timestamp now < seconds * SECOND := by
  rw [timestamp_natCast]
  cases seconds with
  | negSucc n => omega
  | ofNat n =>
    change (n : Int) ≤ 2 ^ 34 at hseconds
    change (now : Int) < n * 1000000 at h
    have hn : n ≤ 2 ^ 34 := by omega
    have hnow : now + 1 ≤ n * 1000000 := by omega
    change _ < (n : Int) * SECOND
    rw [natCast_mul_second]
    have hplace : 2 ^ LEAST_PLACE = 2 ^ 19 * 2 ^ (34 + LEAST_PLACE - 53) := by
      rw [← Nat.pow_add]
      exact congrArg (2 ^ ·) (by decide)
    have hunit : 0 < 2 ^ (34 + LEAST_PLACE - 53) := Nat.two_pow_pos _
    have hmul := Nat.mul_le_mul_right (2 ^ (34 + LEAST_PLACE - 53)) hnow
    have hbits : now < 1000000 * 2 ^ 34 := by omega
    refine Int.ofNat_lt.mpr (nearestDouble_lt (by decide) hbits ?_)
    rw [hplace]
    generalize 2 ^ (34 + LEAST_PLACE - 53) = unit at hunit hmul ⊢
    linarith

/-- What a `datetime` gives as whole seconds is small. -/
theorem natAbs_expiry_le {request : TokenRequest} (h : IsDatetime request.expiresAt) :
    request.expiry.natAbs ≤ 253402300800 := by
  have hlate : request.expiresAt.natAbs ≤ 253402300800 * 1000000 := by
    unfold IsDatetime at h
    omega
  have hmono : nearestDouble request.expiresAt.natAbs 1000000 ≤ nearestDouble (253402300800 * 1000000) 1000000 :=
    nearestDouble_mono (by decide) hlate
  rw [nearestDouble_mul (by decide) (by decide)] at hmono
  have hsecond : SECOND.natAbs = 2 ^ LEAST_PLACE := Int.natAbs_natCast _
  have habs : (timestamp request.expiresAt).natAbs ≤ nearestDouble request.expiresAt.natAbs 1000000 := by
    rw [timestamp, Int.natAbs_mul, Int.natAbs_natCast]
    have hsign : request.expiresAt.sign.natAbs ≤ 1 := by
      rw [Int.natAbs_sign]
      split <;> decide
    exact Nat.le_trans (Nat.mul_le_mul_right _ hsign) (Nat.le_of_eq (Nat.one_mul _))
  rw [TokenRequest.expiry, Int.natAbs_tdiv, hsecond]
  exact Nat.div_le_of_le_mul (by rw [Nat.mul_comm]; exact Nat.le_trans habs hmono)

/-! ### Verifying what was signed -/

namespace FakeVideoProvider

variable {provider : FakeVideoProvider} {issued : List TokenRequest} {request : TokenRequest} {token : PyString}
  {playbackId : String} {now : Instant}

theorem unb64_error {encoded : PyString} {exc : PyException} (h : unb64 encoded = .error exc) : exc = .valueError := by
  unfold unb64 toAscii require at h
  split at h
  · simp only [bind, Except.bind, pure, Except.pure] at h
    split at h
    · cases h
    · cases h
      rfl
  · cases h
    rfl

theorem halves_error {exc : PyException} (h : halves token = .error exc) : exc = .valueError := by
  unfold halves at h
  split at h
  · rename_i front back _
    cases hfront : unb64 front with
    | error e =>
      rw [hfront] at h
      cases h
      exact unb64_error hfront
    | ok payload =>
      cases hback : unb64 back with
      | error e =>
        rw [hfront, hback] at h
        cases h
        exact unb64_error hback
      | ok signature =>
        rw [hfront, hback] at h
        cases h
  · cases h
    rfl

/-- The `try` fails with a `ValueError`, or gives what the halves hold. -/
theorem read_cases (token : PyString) : read token = .error .valueError ∨
    ∃ payload signature signedId expiry, read token = .ok (payload, signature, signedId, expiry) ∧
      halves token = .ok (payload, signature) := by
  unfold read
  cases hhalves : halves token with
  | error e =>
    rw [halves_error hhalves]
    exact .inl rfl
  | ok both =>
    obtain ⟨payload, signature⟩ := both
    simp only [bind, Except.bind]
    unfold decodeUtf8
    cases String.fromUTF8? ⟨payload.toArray⟩ with
    | none => exact .inl rfl
    | some text =>
      simp only [rsplitColon]
      cases text.toList.reverse.dropWhile (· ≠ ':') with
      | nil => exact .inl rfl
      | cons c before => exact .inr ⟨_, _, _, _, rfl, rfl⟩

theorem verify_of_no_hash (h : ∀ payload, halves token ≠ .ok (payload, provider.hmac payload)) :
    provider.verifyPlaybackToken token playbackId now = .ok false := by
  rcases read_cases token with hread | ⟨payload, signature, signedId, expiry, hread, hhalves⟩
  · rw [verifyPlaybackToken, hread]
    rfl
  · rw [verifyPlaybackToken, hread]
    have hne : signature ≠ provider.hmac payload := fun heq => h payload (heq ▸ hhalves)
    simp only [if_pos hne]
    rfl

theorem verify_of_carries (hdate : IsDatetime request.expiresAt) (h : provider.Carries token request) :
    provider.verifyPlaybackToken token playbackId now =
      .ok (decide (request.playbackId = playbackId ∧ timestamp now < request.expiry * SECOND)) := by
  have hread : read token =
      .ok (request.payload, provider.hmac request.payload, request.playbackId, request.expiry.repr) := by
    rw [read, h]
    simp only [bind, Except.bind, TokenRequest.payload, decodeUtf8_encodeUtf8,
      rsplitColon_append _ (colon_not_mem_repr request.expiry)]
    rfl
  have hsmall := natAbs_expiry_le hdate
  rw [verifyPlaybackToken, hread]
  simp only [ne_eq, not_true_eq_false, if_false]
  by_cases hid : request.playbackId = playbackId
  · rw [if_neg (not_not_intro hid), int_repr provider (by omega)]
    simp only [hid, true_and]
    rfl
  · simp only [hid, not_false_eq_true, if_true, false_and, decide_false]
    rfl

theorem getPlaybackToken_eq (hdate : IsDatetime request.expiresAt) : provider.getPlaybackToken request =
    .ok ⟨ofAscii (b64 request.payload ++ [46] ++ b64 (provider.hmac request.payload)), request.playbackId,
      request.expiresAt⟩ := by
  rw [getPlaybackToken, require_bind_of hdate]
  rfl

theorem carries_minted {minted : PlaybackToken} (h : provider.getPlaybackToken request = .ok minted) :
    IsDatetime request.expiresAt ∧ provider.Carries minted.token request := by
  simp only [getPlaybackToken, bind_eq_ok, require_eq_ok, exists_const, pure_eq_ok] at h
  obtain ⟨hdate, rfl⟩ := h
  have hdigits : ∀ raw, ∀ c ∈ b64 raw, c ≠ 46 ∧ c.toNat < 128 := fun raw c hc => (mem_stripped raw c hc).2
  exact ⟨hdate, halves_join (hdigits _) (hdigits _) (unb64_b64 _) (unb64_b64 _)⟩

theorem opensOneAsset (hdate : IsDatetime request.expiresAt) (h : provider.Carries token request) :
    provider.OpensOneAsset request token := by
  have hsmall := natAbs_expiry_le hdate
  refine ⟨?_, ?_, ?_, ?_⟩
  · intro playbackId now
    exact ⟨_, verify_of_carries hdate h, decide_eq_true_iff⟩
  · intro playbackId now hne
    rw [verify_of_carries hdate h, decide_eq_false]
    exact fun hadmits => hne hadmits.1.symm
  · intro playbackId now hover
    rw [verify_of_carries hdate h, decide_eq_false]
    exact fun hadmits => absurd (le_timestamp (by omega) hover) (Int.not_le.mpr hadmits.2)
  · intro hsoon now hbefore
    rw [verify_of_carries hdate h, decide_eq_true]
    exact ⟨rfl, timestamp_lt hsoon hbefore⟩

/-- A token that was minted opens one asset until one second. Whatever else nobody forged is answered too, and accepted
only as another spelling of what was signed. -/
theorem playback_tokens (provider : FakeVideoProvider) (issued : List TokenRequest) :
    (∀ request minted, provider.getPlaybackToken request = .ok minted →
      provider.OpensOneAsset request minted.token) ∧
    ∀ token, provider.Unforged issued token → ∀ playbackId now,
      ∃ opens, provider.verifyPlaybackToken token playbackId now = .ok opens ∧
        (opens = true ↔ ∃ request ∈ issued, IsDatetime request.expiresAt ∧ provider.Carries token request ∧
          Admits request playbackId now) := by
  refine ⟨fun request minted hminted => ?_, fun token hunforged playbackId now => ?_⟩
  · obtain ⟨hdate, hcarries⟩ := carries_minted hminted
    exact opensOneAsset hdate hcarries
  · by_cases hhash : ∃ payload, halves token = .ok (payload, provider.hmac payload)
    · obtain ⟨payload, hhalves⟩ := hhash
      obtain ⟨request, hissued, hdate, rfl⟩ := hunforged payload hhalves
      refine ⟨_, verify_of_carries hdate hhalves, ?_⟩
      rw [decide_eq_true_iff]
      constructor
      · exact fun hadmits => ⟨request, hissued, hdate, hhalves, hadmits⟩
      · rintro ⟨other, -, hdate', hcarries, hadmits⟩
        have hsame : provider.verifyPlaybackToken token playbackId now = _ := verify_of_carries hdate hhalves
        rw [verify_of_carries hdate' hcarries] at hsame
        exact of_decide_eq_true ((Except.ok.inj hsame).symm.trans (decide_eq_true hadmits))
    · refine ⟨false, verify_of_no_hash fun payload hhalves => hhash ⟨payload, hhalves⟩, ?_⟩
      refine iff_of_false (by decide) ?_
      rintro ⟨request, -, -, hcarries, -⟩
      exact hhash ⟨request.payload, hcarries⟩

/-- A hash of 32 bytes. -/
def zeroHash : FakeVideoProvider where
  hmac := fun _ => List.replicate 32 0
  decimal := fun _ => none

def oneHour : TokenRequest := ⟨"fakeplay_1", 3600, 0⟩

def pastFloats : TokenRequest := ⟨"fakeplay_1", 17179869185, 0⟩

/-- The token of `oneHour` with the padding of its signature left on. -/
def otherSpelling : PyString :=
  ofAscii (b64 oneHour.payload ++ [46] ++ urlsafeEncode (List.replicate 32 0))

theorem carries_otherSpelling : zeroHash.Carries otherSpelling oneHour :=
  halves_join (fun c hc => (mem_stripped _ c hc).2) (mem_urlsafeEncode _) (unb64_b64 _) (unb64_urlsafeEncode _)

/-- Another string than the token opens the asset, and a token for a second after 2514 closes a microsecond early. -/
theorem other_spelling_opens :
    (∃ minted, zeroHash.getPlaybackToken oneHour = .ok minted ∧ otherSpelling ≠ minted.token ∧
      zeroHash.verifyPlaybackToken otherSpelling "fakeplay_1" 0 = .ok true) ∧
    ∃ minted, zeroHash.getPlaybackToken pastFloats = .ok minted ∧ pastFloats.expiry = 17179869185 ∧
      zeroHash.verifyPlaybackToken minted.token "fakeplay_1" 17179869184999999 = .ok false := by
  constructor
  · refine ⟨_, getPlaybackToken_eq (by decide), ?_, ?_⟩
    · intro heq
      have hlength := congrArg List.length heq
      have hpad : (urlsafeEncode (List.replicate 32 0)).length = (b64 (List.replicate 32 0)).length + 1 := by
        decide +kernel
      simp only [otherSpelling, ofAscii, zeroHash, List.length_map, List.length_append, hpad] at hlength
      omega
    · have hsecond : timestamp (0 : Instant) < oneHour.expiry * SECOND := by decide +kernel
      rw [verify_of_carries (by decide) carries_otherSpelling, decide_eq_true]
      exact ⟨rfl, hsecond⟩
  · have hminted : zeroHash.getPlaybackToken pastFloats = _ := getPlaybackToken_eq (by decide)
    have hearly : ¬ timestamp (17179869184999999 : Instant) < pastFloats.expiry * SECOND := by decide +kernel
    refine ⟨_, hminted, by decide +kernel, ?_⟩
    rw [verify_of_carries (by decide) (carries_minted hminted).2, decide_eq_false]
    exact fun hadmits => hearly hadmits.2

/-- The other spelling carries nothing that was not signed. -/
theorem other_spelling_is_answered : ∃ opens, zeroHash.verifyPlaybackToken otherSpelling "fakeplay_1" 0 = .ok opens ∧
    (opens = true ↔ ∃ request ∈ [oneHour], IsDatetime request.expiresAt ∧ zeroHash.Carries otherSpelling request ∧
      Admits request "fakeplay_1" 0) := by
  apply (playback_tokens zeroHash [oneHour]).2
  intro payload hhalves
  have hsame := carries_otherSpelling.symm.trans hhalves
  exact ⟨oneHour, List.mem_singleton_self _, by decide, (Prod.mk.inj (Except.ok.inj hsame)).1⟩

end FakeVideoProvider

end EPlatform.MediaAssets
