import Mathlib.Data.List.Basic
import Mathlib.Tactic.Common

/-!
# JSON as text

Documents, the text they are written as, and what is read of a text. Texts are of code points, lone surrogates among them.
What is written is ASCII: everything else is escaped, and what lies beyond the basic plane as two surrogates, so that two
surrogates that stand in a text one by one are read as one character. How deep a document may be nested is a limit of the
reader, and how a float is spelt is a parameter.
-/

namespace Formats.JsonText

/-- A code point, which may be a surrogate. -/
abbrev Point := Fin 0x110000

abbrev Text := List Point

scoped instance neZero_points : @NeZero Nat Zero.ofOfNat0 0x110000 := ⟨Nat.succ_ne_zero _⟩

scoped instance lawfulBEq_text : LawfulBEq Text := List.instLawfulBEq

def point (c : Char) : Point := Fin.ofNat 0x110000 c.toNat

def points (s : String) : Text := s.toList.map point

/-- The fields of an object stand in their order. -/
inductive Document (F : Type)
  | null
  | bool (value : Bool)
  | int (value : Int)
  | float (value : F)
  | str (text : Text)
  | list (items : List (Document F))
  | dict (fields : List (Text × Document F))

/-- How floats are written, and what is read of a number that is no integer, or of a constant. -/
structure FloatText (F : Type) where
  repr : F → Text
  parse : Text → F

inductive ReadError
  | invalid
  | tooDeep
  deriving DecidableEq, Repr

/-! ### Writing -/

/-- The halves of a surrogate pair. -/
def IsHigh (n : Nat) : Prop := 0xD800 ≤ n ∧ n ≤ 0xDBFF

def IsLow (n : Nat) : Prop := 0xDC00 ≤ n ∧ n ≤ 0xDFFF

instance : DecidablePred IsHigh := fun n => inferInstanceAs (Decidable (0xD800 ≤ n ∧ n ≤ 0xDBFF))

instance : DecidablePred IsLow := fun n => inferInstanceAs (Decidable (0xDC00 ≤ n ∧ n ≤ 0xDFFF))

def hexDigit (n : Nat) : Point := if n < 10 then Fin.ofNat _ (48 + n) else Fin.ofNat _ (87 + n)

/-- `\uXXXX`. -/
def unicodeEscape (n : Nat) : Text :=
  [point '\\', point 'u', hexDigit (n / 4096), hexDigit (n / 256 % 16), hexDigit (n / 16 % 16), hexDigit (n % 16)]

/-- The two surrogates of a character beyond the basic plane. -/
def highSurrogate (c : Point) : Nat := 0xD800 + (c.val - 0x10000) / 1024

def lowSurrogate (c : Point) : Nat := 0xDC00 + (c.val - 0x10000) % 1024

/-- The letters that are escaped by a letter, with that letter. -/
def SHORT_ESCAPES : List (Point × Point) :=
  [(point '"', point '"'), (point '\\', point '\\'), (point '\n', point 'n'), (point '\r', point 'r'),
    (point '\t', point 't'), (Fin.ofNat _ 12, point 'f'), (Fin.ofNat _ 8, point 'b')]

def shortEscape (c : Point) : Option Point := (SHORT_ESCAPES.find? (·.1 = c)).map Prod.snd

def IsPrintable (c : Point) : Prop := 32 ≤ c.val ∧ c.val ≤ 126

/-- A text of letters that are written as they are. -/
def isPrintableText (s : String) : Bool := s.toList.all fun c => 32 ≤ c.toNat ∧ c.toNat ≤ 126

instance : DecidablePred IsPrintable := fun c => inferInstanceAs (Decidable (32 ≤ c.val ∧ c.val ≤ 126))

def escape (c : Point) : Text :=
  match shortEscape c with
  | some letter => [point '\\', letter]
  | none =>
    if IsPrintable c then [c]
    else if c.val < 0x10000 then unicodeEscape c.val
    else unicodeEscape (highSurrogate c) ++ unicodeEscape (lowSurrogate c)

def writeString (text : Text) : Text := point '"' :: text.flatMap escape ++ [point '"']

def writeNat (n : Nat) : Text := (Nat.toDigits 10 n).map point

def writeInt : Int → Text
  | .ofNat n => writeNat n
  | .negSucc n => point '-' :: writeNat (n + 1)

section Write

variable {F : Type} (floats : FloatText F)

mutual

def write : Document F → Text
  | .null => points "null"
  | .bool true => points "true"
  | .bool false => points "false"
  | .int value => writeInt value
  | .float value => floats.repr value
  | .str text => writeString text
  | .list items => point '[' :: writeItems items ++ [point ']']
  | .dict fields => point '{' :: writeFields fields ++ [point '}']

def writeItems : List (Document F) → Text
  | [] => []
  | item :: items => write item ++ writeMoreItems items

def writeMoreItems : List (Document F) → Text
  | [] => []
  | item :: items => point ',' :: point ' ' :: write item ++ writeMoreItems items

def writeFields : List (Text × Document F) → Text
  | [] => []
  | (key, value) :: fields => writeString key ++ point ':' :: point ' ' :: write value ++ writeMoreFields fields

def writeMoreFields : List (Text × Document F) → Text
  | [] => []
  | (key, value) :: fields =>
    point ',' :: point ' ' :: writeString key ++ point ':' :: point ' ' :: write value ++ writeMoreFields fields

end

end Write

/-! ### What can be written -/

/-- A longer integer is refused, written or read. -/
def INT_MAX_STR_DIGITS : Nat := 4300

/-- The digits of an integer, its sign apart. -/
def FitsInt (n : Int) : Prop := (Nat.toDigits 10 n.natAbs).length ≤ INT_MAX_STR_DIGITS

instance : DecidablePred FitsInt :=
  fun n => inferInstanceAs (Decidable ((Nat.toDigits 10 n.natAbs).length ≤ INT_MAX_STR_DIGITS))

section Limits

variable {F : Type}

mutual

def nesting : Document F → Nat
  | .list items => itemsNesting items + 1
  | .dict fields => fieldsNesting fields + 1
  | _ => 0

def itemsNesting : List (Document F) → Nat
  | [] => 0
  | item :: items => max (nesting item) (itemsNesting items)

def fieldsNesting : List (Text × Document F) → Nat
  | [] => 0
  | (_, value) :: fields => max (nesting value) (fieldsNesting fields)

end

mutual

/-- None of its integers is too long. -/
def fits : Document F → Bool
  | .int value => FitsInt value
  | .list items => itemsFit items
  | .dict fields => fieldsFit fields
  | _ => true

def itemsFit : List (Document F) → Bool
  | [] => true
  | item :: items => fits item && itemsFit items

def fieldsFit : List (Text × Document F) → Bool
  | [] => true
  | (_, value) :: fields => fits value && fieldsFit fields

end

/-- The text of a document, unless writing it raises. -/
def dumps (floats : FloatText F) (limit : Nat) (value : Document F) : Option Text :=
  if fits value = true ∧ nesting value ≤ limit then some (write floats value) else none

end Limits

/-! ### Reading -/

/-- What a string is made of: characters as they are, or after a backslash, and numbers after `\u`. -/
inductive StringUnit
  | char (c : Point)
  | escaped (n : Nat)
  deriving DecidableEq, Repr

def hexValue (c : Point) : Option Nat :=
  if 48 ≤ c.val ∧ c.val ≤ 57 then some (c.val - 48)
  else if 97 ≤ c.val ∧ c.val ≤ 102 then some (c.val - 87)
  else if 65 ≤ c.val ∧ c.val ≤ 70 then some (c.val - 55)
  else none

def readHex (a b c d : Point) : Option Nat := do
  let a ← hexValue a
  let b ← hexValue b
  let c ← hexValue c
  let d ← hexValue d
  return ((a * 16 + b) * 16 + c) * 16 + d

/-- What a letter after a backslash stands for. -/
def unescape (letter : Point) : Option Point :=
  if letter = point '/' then some letter else (SHORT_ESCAPES.find? (·.2 = letter)).map Prod.fst

/-- The units up to the closing quote, and what is behind it. -/
def scanUnits : Text → Option (List StringUnit × Text)
  | [] => none
  | c :: rest =>
    if c = point '"' then some ([], rest)
    else if c = point '\\' then
      match rest with
      | [] => none
      | letter :: rest =>
        if letter = point 'u' then
          match rest with
          | h₁ :: h₂ :: h₃ :: h₄ :: rest => do
            let n ← readHex h₁ h₂ h₃ h₄
            let (units, rest) ← scanUnits rest
            return (.escaped n :: units, rest)
          | _ => none
        else do
          let c ← unescape letter
          let (units, rest) ← scanUnits rest
          return (.char c :: units, rest)
    else if c.val < 32 then none
    else do
      let (units, rest) ← scanUnits rest
      return (.char c :: units, rest)

/-- The text of some units, behind an escape that is a high surrogate if there is one. Two escapes that are a pair are one
character. -/
def joinUnits : Option Nat → List StringUnit → Text
  | none, [] => []
  | some high, [] => [Fin.ofNat _ high]
  | none, .char c :: units => c :: joinUnits none units
  | some high, .char c :: units => Fin.ofNat _ high :: c :: joinUnits none units
  | none, .escaped n :: units => if IsHigh n then joinUnits (some n) units else Fin.ofNat _ n :: joinUnits none units
  | some high, .escaped n :: units =>
    if IsLow n then Fin.ofNat _ (0x10000 + (high - 0xD800) * 1024 + (n - 0xDC00)) :: joinUnits none units
    else if IsHigh n then Fin.ofNat _ high :: joinUnits (some n) units
    else Fin.ofNat _ high :: Fin.ofNat _ n :: joinUnits none units

/-- The rest of a string, its first quote read. -/
def scanString (text : Text) : Option (Text × Text) := (scanUnits text).map fun (units, rest) => (joinUnits none units, rest)

def IsDigit (c : Point) : Prop := 48 ≤ c.val ∧ c.val ≤ 57

instance : DecidablePred IsDigit := fun c => inferInstanceAs (Decidable (48 ≤ c.val ∧ c.val ≤ 57))

/-- The characters of numbers. None of them may stand behind a number. -/
def IsNumeric (c : Point) : Prop := IsDigit c ∨ c ∈ [point '-', point '+', point '.', point 'e', point 'E']

instance : DecidablePred IsNumeric :=
  fun c => inferInstanceAs (Decidable (IsDigit c ∨ c ∈ [point '-', point '+', point '.', point 'e', point 'E']))

def dropDigits (text : Text) : Text := text.dropWhile fun c => decide (IsDigit c)

/-- `0|[1-9]\d*`, as what is left. -/
def natEnd : Text → Option Text
  | [] => none
  | c :: rest => if c = point '0' then some rest else if IsDigit c then some (dropDigits rest) else none

def intEnd : Text → Option Text
  | c :: rest => if c = point '-' then natEnd rest else natEnd (c :: rest)
  | [] => none

/-- `(\.\d+)?`. -/
def fractionEnd : Text → Text
  | dot :: c :: rest => if dot = point '.' ∧ IsDigit c then dropDigits rest else dot :: c :: rest
  | text => text

/-- `([eE][-+]?\d+)?`. -/
def exponentEnd : Text → Text
  | e :: sign :: c :: rest =>
    if e = point 'e' ∨ e = point 'E' then
      if (sign = point '-' ∨ sign = point '+') ∧ IsDigit c then dropDigits rest
      else if IsDigit sign then dropDigits (c :: rest)
      else e :: sign :: c :: rest
    else e :: sign :: c :: rest
  | [e, c] => if (e = point 'e' ∨ e = point 'E') ∧ IsDigit c then [] else [e, c]
  | text => text

def digitsValue (digits : Text) : Nat := digits.foldl (fun n c => 10 * n + (c.val - 48)) 0

def intValue : Text → Int
  | [] => 0
  | c :: rest => if c = point '-' then -(digitsValue rest : Int) else digitsValue (c :: rest)

/-- A whole word that is a number. -/
def readNumber {F : Type} (floats : FloatText F) (word : Text) : Option (Document F) := do
  let rest ← intEnd word
  if rest = [] then
    if (word.filter fun c => decide (IsDigit c)).length ≤ INT_MAX_STR_DIGITS then some (.int (intValue word)) else none
  else if exponentEnd (fractionEnd rest) = [] then some (.float (floats.parse word))
  else none

def IsSpace (c : Point) : Prop := c ∈ [point ' ', point '\t', point '\n', point '\r']

instance : DecidablePred IsSpace :=
  fun c => inferInstanceAs (Decidable (c ∈ [point ' ', point '\t', point '\n', point '\r']))

def skipSpace (text : Text) : Text := text.dropWhile fun c => decide (IsSpace c)

/-- A field takes the place of an earlier one of its key. -/
def putField {α : Type} (fields : List (Text × α)) (field : Text × α) : List (Text × α) :=
  if field.1 ∈ fields.map Prod.fst then fields.map fun other => if other.1 = field.1 then field else other
  else fields ++ [field]

def ofPairs {α : Type} (pairs : List (Text × α)) : List (Text × α) := pairs.foldl putField []

section Read

variable {F : Type} (floats : FloatText F)

def CONSTANTS : List (Text × Document F) :=
  [(points "null", .null), (points "true", .bool true), (points "false", .bool false),
    (points "NaN", .float (floats.parse (points "NaN"))), (points "Infinity", .float (floats.parse (points "Infinity"))),
    (points "-Infinity", .float (floats.parse (points "-Infinity")))]

def scanWord (text : Text) : Option (Document F × Text) :=
  match (CONSTANTS floats).find? (·.1.isPrefixOf text) with
  | some (word, value) => some (value, text.drop word.length)
  | none => do
    let value ← readNumber floats (text.takeWhile fun c => decide (IsNumeric c))
    return (value, text.dropWhile fun c => decide (IsNumeric c))

mutual

/-- The value at the start of a text, and what is behind it. -/
def scanValue : Nat → Nat → Text → Except ReadError (Document F × Text)
  | 0, _, _ => .error .invalid
  | _, _, [] => .error .invalid
  | fuel + 1, limit, c :: rest =>
    if c = point '"' then
      match scanString rest with
      | none => .error .invalid
      | some (text, rest) => .ok (.str text, rest)
    else if c = point '[' then
      match limit with
      | 0 => .error .tooDeep
      | limit + 1 =>
        match skipSpace rest with
        | [] => .error .invalid
        | c :: rest =>
          if c = point ']' then .ok (.list [], rest)
          else (scanItems fuel limit (c :: rest)).map fun (items, rest) => (.list items, rest)
    else if c = point '{' then
      match limit with
      | 0 => .error .tooDeep
      | limit + 1 =>
        match skipSpace rest with
        | [] => .error .invalid
        | c :: rest =>
          if c = point '}' then .ok (.dict [], rest)
          else (scanFields fuel limit (c :: rest)).map fun (pairs, rest) => (.dict (ofPairs pairs), rest)
    else
      match scanWord floats (c :: rest) with
      | none => .error .invalid
      | some (value, rest) => .ok (value, rest)

/-- The items up to the closing bracket. -/
def scanItems : Nat → Nat → Text → Except ReadError (List (Document F) × Text)
  | 0, _, _ => .error .invalid
  | fuel + 1, limit, text => do
    let (item, rest) ← scanValue fuel limit text
    match skipSpace rest with
    | [] => .error .invalid
    | c :: rest =>
      if c = point ']' then return ([item], rest)
      else if c = point ',' then
        let (items, rest) ← scanItems fuel limit (skipSpace rest)
        return (item :: items, rest)
      else .error .invalid

/-- The pairs up to the closing brace. -/
def scanFields : Nat → Nat → Text → Except ReadError (List (Text × Document F) × Text)
  | 0, _, _ => .error .invalid
  | _, _, [] => .error .invalid
  | fuel + 1, limit, quote :: text =>
    if quote ≠ point '"' then .error .invalid
    else
      match scanString text with
      | none => .error .invalid
      | some (key, rest) =>
        match skipSpace rest with
        | [] => .error .invalid
        | colon :: rest =>
          if colon ≠ point ':' then .error .invalid
          else do
            let (value, rest) ← scanValue fuel limit (skipSpace rest)
            match skipSpace rest with
            | [] => .error .invalid
            | c :: rest =>
              if c = point '}' then return ([(key, value)], rest)
              else if c = point ',' then
                let (pairs, rest) ← scanFields fuel limit (skipSpace rest)
                return ((key, value) :: pairs, rest)
              else .error .invalid

end

/-- The document a text is, with nothing but white space around it. -/
def read (limit : Nat) (text : Text) : Except ReadError (Document F) := do
  let (value, rest) ← scanValue floats (2 * text.length + 1) limit (skipSpace text)
  if skipSpace rest = [] then return value else .error .invalid

end Read

end Formats.JsonText
