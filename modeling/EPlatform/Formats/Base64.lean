import Mathlib.Data.List.DropRight
import Mathlib.Tactic.Common

/-!
# Base64

The encoder, with and without its padding, in the two alphabets, and the lenient decoder: it skips what is not of the
alphabet, stops at a complete padding and drops the bits that fill no byte. Decoding undoes encoding. It is not
injective, so that one text may be spelled in many ways.
-/

namespace Formats.Base64

/-- `=`. -/
def PAD : UInt8 := 61

def ALPHABET : List UInt8 :=
  "ABCDEFGHIJKLMNOPQRSTUVWXYZabcdefghijklmnopqrstuvwxyz0123456789+/".toList.map fun c => UInt8.ofNat c.toNat

/-- The character of six bits. -/
def digit (sextet : Nat) : UInt8 := ALPHABET.getD sextet PAD

/-- The six bits of a character. -/
def value (c : UInt8) : Option Nat := ALPHABET.idxOf? c

/-- The URL-safe alphabet writes `-` and `_` for `+` and `/`. -/
def toUrlSafe (c : UInt8) : UInt8 := if c = 43 then 45 else if c = 47 then 95 else c

def ofUrlSafe (c : UInt8) : UInt8 := if c = 45 then 43 else if c = 95 then 47 else c

/-- `b2a_base64`, three bytes at a time. -/
def encode : List UInt8 → List UInt8
  | [] => []
  | [a] => [digit (a.toNat / 4), digit (a.toNat % 4 * 16), PAD, PAD]
  | [a, b] => [digit (a.toNat / 4), digit (a.toNat % 4 * 16 + b.toNat / 16), digit (b.toNat % 16 * 4), PAD]
  | a :: b :: c :: rest =>
    digit (a.toNat / 4) :: digit (a.toNat % 4 * 16 + b.toNat / 16) :: digit (b.toNat % 16 * 4 + c.toNat / 64) ::
      digit (c.toNat % 64) :: encode rest

/-- The loop of `a2b_base64` when it is not strict. `quad` counts the characters of the group that is being read, `left`
holds the bits of it that have filled no byte, and `pads` counts the padding since its last character. -/
def decodeFrom (quad left pads : Nat) : List UInt8 → Option (List UInt8)
  | [] => if quad = 0 then some [] else none
  | c :: rest =>
    if c = PAD then
      if 2 ≤ quad then
        if 4 ≤ quad + (pads + 1) then some [] else decodeFrom quad left (pads + 1) rest
      else decodeFrom quad left pads rest
    else
      match value c with
      | none => decodeFrom quad left pads rest
      | some sextet =>
        match quad with
        | 0 => decodeFrom 1 sextet 0 rest
        | 1 => (decodeFrom 2 (sextet % 16) 0 rest).map (UInt8.ofNat (left * 4 + sextet / 16) :: ·)
        | 2 => (decodeFrom 3 (sextet % 4) 0 rest).map (UInt8.ofNat (left * 16 + sextet / 4) :: ·)
        | _ => (decodeFrom 0 0 0 rest).map (UInt8.ofNat (left * 64 + sextet) :: ·)

def decode (text : List UInt8) : Option (List UInt8) := decodeFrom 0 0 0 text

def urlsafeEncode (raw : List UInt8) : List UInt8 := (encode raw).map toUrlSafe

def urlsafeDecode (text : List UInt8) : Option (List UInt8) := decode (text.map ofUrlSafe)

/-! ### Digits -/

theorem digit_facts : ∀ sextet < 64, digit sextet ≠ PAD ∧ value (digit sextet) = some sextet ∧
    ofUrlSafe (toUrlSafe (digit sextet)) = digit sextet ∧ toUrlSafe (digit sextet) ≠ PAD ∧
    toUrlSafe (digit sextet) ≠ 46 ∧ (toUrlSafe (digit sextet)).toNat < 128 := by
  decide +kernel

variable {sextet quad left pads : Nat} {rest : List UInt8}

theorem decodeFrom_digit_zero (h : sextet < 64) :
    decodeFrom 0 left pads (digit sextet :: rest) = decodeFrom 1 sextet 0 rest := by
  obtain ⟨hpad, hvalue, -⟩ := digit_facts sextet h
  rw [decodeFrom, if_neg hpad, hvalue]
  rfl

theorem decodeFrom_digit_one (h : sextet < 64) : decodeFrom 1 left pads (digit sextet :: rest) =
    (decodeFrom 2 (sextet % 16) 0 rest).map (UInt8.ofNat (left * 4 + sextet / 16) :: ·) := by
  obtain ⟨hpad, hvalue, -⟩ := digit_facts sextet h
  rw [decodeFrom, if_neg hpad, hvalue]
  rfl

theorem decodeFrom_digit_two (h : sextet < 64) : decodeFrom 2 left pads (digit sextet :: rest) =
    (decodeFrom 3 (sextet % 4) 0 rest).map (UInt8.ofNat (left * 16 + sextet / 4) :: ·) := by
  obtain ⟨hpad, hvalue, -⟩ := digit_facts sextet h
  rw [decodeFrom, if_neg hpad, hvalue]
  rfl

theorem decodeFrom_digit_three (h : sextet < 64) : decodeFrom 3 left pads (digit sextet :: rest) =
    (decodeFrom 0 0 0 rest).map (UInt8.ofNat (left * 64 + sextet) :: ·) := by
  obtain ⟨hpad, hvalue, -⟩ := digit_facts sextet h
  rw [decodeFrom, if_neg hpad, hvalue]
  rfl

/-! ### Decoding undoes encoding -/

/-- A byte put together again from the parts it was cut in. -/
theorem ofNat_eq {n : Nat} (byte : UInt8) (h : n = byte.toNat) : UInt8.ofNat n = byte := by
  rw [h, UInt8.ofNat_toNat]

theorem decode_encode (raw : List UInt8) : decode (encode raw) = some raw := by
  unfold decode
  induction raw using encode.induct with
  | case1 => rfl
  | case2 a =>
    have ha := a.toNat_lt
    rw [encode, decodeFrom_digit_zero (by omega), decodeFrom_digit_one (by omega)]
    have hend : decodeFrom 2 (a.toNat % 4 * 16 % 16) 0 [PAD, PAD] = some [] := rfl
    rw [hend, Option.map_some, ofNat_eq a (by omega)]
  | case3 a b =>
    have ha := a.toNat_lt
    have hb := b.toNat_lt
    rw [encode, decodeFrom_digit_zero (by omega), decodeFrom_digit_one (by omega), decodeFrom_digit_two (by omega)]
    have hend : decodeFrom 3 (b.toNat % 16 * 4 % 4) 0 [PAD] = some [] := rfl
    rw [hend, Option.map_some, Option.map_some, ofNat_eq a (by omega), ofNat_eq b (by omega)]
  | case4 a b c rest ih =>
    have ha := a.toNat_lt
    have hb := b.toNat_lt
    have hc := c.toNat_lt
    rw [encode, decodeFrom_digit_zero (by omega), decodeFrom_digit_one (by omega), decodeFrom_digit_two (by omega),
      decodeFrom_digit_three (by omega), ih, Option.map_some, Option.map_some, Option.map_some,
      ofNat_eq a (by omega), ofNat_eq b (by omega), ofNat_eq c (by omega)]

/-! ### Without the padding -/

/-- `rstrip("=")`. -/
def stripped (text : List UInt8) : List UInt8 := text.rdropWhile (· = PAD)

/-- As many `=` as fill the last group of four. -/
def padded (text : List UInt8) : List UInt8 := text ++ List.replicate ((4 - text.length % 4) % 4) PAD

/-- What is encoded is digits and then padding, up to a whole group. -/
structure Spells (text : List UInt8) (sextets : List Nat) (pads : Nat) : Prop where
  spelling : text = sextets.map digit ++ List.replicate pads PAD
  bounded : ∀ sextet ∈ sextets, sextet < 64
  short : pads < 4
  fills : (sextets.length + pads) % 4 = 0

theorem exists_spells (raw : List UInt8) : ∃ sextets pads, Spells (encode raw) sextets pads := by
  induction raw using encode.induct with
  | case1 => exact ⟨[], 0, rfl, by simp, by decide, rfl⟩
  | case2 a =>
    have ha := a.toNat_lt
    refine ⟨[a.toNat / 4, a.toNat % 4 * 16], 2, rfl, ?_, by decide, by simp⟩
    simp only [List.forall_mem_cons]
    exact ⟨by omega, by omega, by simp⟩
  | case3 a b =>
    have ha := a.toNat_lt
    have hb := b.toNat_lt
    refine ⟨[a.toNat / 4, a.toNat % 4 * 16 + b.toNat / 16, b.toNat % 16 * 4], 1, rfl, ?_, by decide, by simp⟩
    simp only [List.forall_mem_cons]
    exact ⟨by omega, by omega, by omega, by simp⟩
  | case4 a b c rest ih =>
    have ha := a.toNat_lt
    have hb := b.toNat_lt
    have hc := c.toNat_lt
    obtain ⟨sextets, pads, htext, hsextets, hshort, hfills⟩ := ih
    refine ⟨a.toNat / 4 :: (a.toNat % 4 * 16 + b.toNat / 16) :: (b.toNat % 16 * 4 + c.toNat / 64) :: (c.toNat % 64) ::
      sextets, pads, ?_, ?_, hshort, ?_⟩
    · simp only [encode, List.map_cons, htext, List.cons_append]
    · simp only [List.forall_mem_cons]
      exact ⟨by omega, by omega, by omega, by omega, hsextets⟩
    · simp only [List.length_cons]
      omega

/-- The digits of the URL-safe spelling. -/
def urlsafeDigits (sextets : List Nat) : List UInt8 := sextets.map fun sextet => toUrlSafe (digit sextet)

theorem Spells.urlsafeEncode {raw : List UInt8} {sextets : List Nat} {pads : Nat} (h : Spells (encode raw) sextets pads) :
    urlsafeEncode raw = urlsafeDigits sextets ++ List.replicate pads PAD := by
  have hpad : toUrlSafe PAD = PAD := rfl
  rw [Base64.urlsafeEncode, h.spelling, List.map_append, List.map_map, List.map_replicate, hpad]
  rfl

theorem mem_urlsafeDigits {sextets : List Nat} (h : ∀ sextet ∈ sextets, sextet < 64) :
    ∀ c ∈ urlsafeDigits sextets, c ≠ PAD ∧ c ≠ 46 ∧ c.toNat < 128 := by
  intro c hc
  obtain ⟨sextet, hsextet, rfl⟩ := List.mem_map.mp hc
  exact (digit_facts sextet (h sextet hsextet)).2.2.2

theorem Spells.stripped {raw : List UInt8} {sextets : List Nat} {pads : Nat} (h : Spells (encode raw) sextets pads) :
    stripped (Base64.urlsafeEncode raw) = urlsafeDigits sextets := by
  have hdigits : (urlsafeDigits sextets).reverse.dropWhile (· = PAD) = (urlsafeDigits sextets).reverse := by
    rw [List.dropWhile_eq_self_iff]
    intro hlength hpad
    have hmem := List.mem_reverse.mp (List.getElem_mem hlength)
    exact (mem_urlsafeDigits h.bounded _ hmem).1 (of_decide_eq_true hpad)
  rw [Base64.stripped, List.rdropWhile, h.urlsafeEncode, List.reverse_append, List.reverse_replicate,
    List.dropWhile_append_of_pos (by simp), hdigits, List.reverse_reverse]

/-- No padding is left, no full stop, and nothing that is not ASCII. -/
theorem mem_stripped (raw : List UInt8) : ∀ c ∈ stripped (urlsafeEncode raw), c ≠ PAD ∧ c ≠ 46 ∧ c.toNat < 128 := by
  obtain ⟨sextets, pads, h⟩ := exists_spells raw
  rw [h.stripped]
  exact mem_urlsafeDigits h.bounded

theorem mem_urlsafeEncode (raw : List UInt8) : ∀ c ∈ urlsafeEncode raw, c ≠ 46 ∧ c.toNat < 128 := by
  obtain ⟨sextets, pads, h⟩ := exists_spells raw
  intro c hc
  rw [h.urlsafeEncode] at hc
  rcases List.mem_append.mp hc with hc | hc
  · exact (mem_urlsafeDigits h.bounded c hc).2
  · rw [List.eq_of_mem_replicate hc]
    decide

theorem padded_stripped (raw : List UInt8) : padded (stripped (urlsafeEncode raw)) = urlsafeEncode raw := by
  obtain ⟨sextets, pads, h⟩ := exists_spells raw
  have hpads : (4 - (urlsafeDigits sextets).length % 4) % 4 = pads := by
    have hshort := h.short
    have hfills := h.fills
    rw [urlsafeDigits, List.length_map]
    omega
  rw [h.stripped, h.urlsafeEncode, padded, hpads]

theorem padded_urlsafeEncode (raw : List UInt8) : padded (urlsafeEncode raw) = urlsafeEncode raw := by
  obtain ⟨sextets, pads, h⟩ := exists_spells raw
  have hlength : (urlsafeEncode raw).length % 4 = 0 := by
    rw [h.urlsafeEncode, List.length_append, List.length_replicate, urlsafeDigits, List.length_map]
    exact h.fills
  rw [padded, hlength]
  exact List.append_nil _

theorem urlsafeDecode_urlsafeEncode (raw : List UInt8) : urlsafeDecode (urlsafeEncode raw) = some raw := by
  obtain ⟨sextets, pads, h⟩ := exists_spells raw
  have hback : (urlsafeEncode raw).map ofUrlSafe = encode raw := by
    have hpad : ofUrlSafe PAD = PAD := rfl
    rw [h.urlsafeEncode, h.spelling, List.map_append, List.map_replicate, hpad, urlsafeDigits, List.map_map]
    congr 1
    apply List.map_congr_left
    exact fun sextet hsextet => (digit_facts sextet (h.bounded sextet hsextet)).2.2.1
  rw [urlsafeDecode, hback, decode_encode]

end Formats.Base64
