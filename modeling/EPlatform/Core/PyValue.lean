import EPlatform.Core.Text
import EPlatform.Runs.Transaction
import Mathlib.Data.Rat.Defs

/-!
# Values as Python holds them

What `json.loads` returns, the tuples an event may hold beside it, and what handling them raises.
-/

namespace EPlatform

open Runs

abbrev CodePoint := Fin 0x110000

/-- `chr(n)`. -/
def CodePoint.ofNat (n : Nat) : CodePoint := Fin.ofNat 0x110000 n

/-- A `str`, which may hold lone surrogates. -/
abbrev PyString := List CodePoint

/-- A literal of the source. -/
def pyString (s : String) : PyString := s.toList.map fun c => .ofNat c.toNat

/-- A `bytes` literal, which is ASCII. -/
def pyBytes (s : String) : List UInt8 := s.toList.map fun c => UInt8.ofNat c.toNat

/-- `c.isspace()`, and no lone surrogate is a space. -/
def CodePoint.isSpace (c : CodePoint) : Bool := isWhitespace (Char.ofNat c.val)

/-- A value and what is nested in it. A float is `none` where it is not finite. The keys of a dictionary are distinct, and nothing
reads their order. -/
inductive PyValue
  | none
  | bool (value : Bool)
  | int (value : Int)
  | float (value : Option ℚ)
  | str (text : PyString)
  | list (items : List PyValue)
  | tuple (items : List PyValue)
  | dict (fields : List (PyString × PyValue))

/-- What raises while a request is handled. -/
inductive PyException
  | keyError
  | valueError
  | typeError
  | attributeError
  | recursionError
  | overflowError
  | requestDataTooBig
  | webhookSignatureInvalid
  | dataError
  | integrityError
  deriving DecidableEq, Repr

/-- Above this `request.body` raises. The setting is left at its default. -/
def DATA_UPLOAD_MAX_MEMORY_SIZE : Nat := 2621440

/-- `request.body`. -/
def requestBody (content : List UInt8) : Except PyException (List UInt8) := do
  require (content.length ≤ DATA_UPLOAD_MAX_MEMORY_SIZE) .requestDataTooBig
  return content

theorem requestBody_of_le {content : List UInt8} (h : content.length ≤ DATA_UPLOAD_MAX_MEMORY_SIZE) :
    requestBody content = .ok content := by
  rw [requestBody, require_bind_of h]
  rfl

theorem requestBody_of_not_le {content : List UInt8} (h : ¬ content.length ≤ DATA_UPLOAD_MAX_MEMORY_SIZE) :
    requestBody content = .error .requestDataTooBig := by
  rw [requestBody, require_bind_of_not h]

namespace PyValue

/-- `fields.get(key)`. -/
def get (fields : List (PyString × PyValue)) (key : String) : Option PyValue :=
  (fields.find? (·.1 = pyString key)).map Prod.snd

/-- `isinstance(value, dict)`. -/
def fields : PyValue → Option (List (PyString × PyValue))
  | .dict fields => some fields
  | _ => Option.none

/-- `value[key]`, where only a dictionary takes a string for an index. -/
def index (value : PyValue) (key : String) : Except PyException PyValue :=
  match value with
  | .dict fields =>
    match get fields key with
    | some item => .ok item
    | Option.none => .error .keyError
  | _ => .error .typeError

/-- `iter(value)`. A string is iterated by its characters and a dictionary by its keys. -/
def iterate : PyValue → Except PyException (List PyValue)
  | .list items => .ok items
  | .tuple items => .ok items
  | .str text => .ok (text.map fun c => .str [c])
  | .dict fields => .ok (fields.map fun field => .str field.1)
  | _ => .error .typeError

/-- `str(value)`, where `repr` is what it is of a value that is no string. -/
def toStr (repr : PyValue → PyString) : PyValue → PyString
  | .str text => text
  | value => repr value

end PyValue

end EPlatform
