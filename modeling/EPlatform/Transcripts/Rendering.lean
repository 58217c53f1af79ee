import EPlatform.Core.Text
import EPlatform.Formats.Lines
import EPlatform.Transcripts.Transcript

/-!
# WebVTT

The rendering of segments into a caption file, and a reader of such files: blocks at blank lines, a position, two
timestamps and the text.
-/

namespace EPlatform.Transcripts

open Formats Runs

/-! ### Rendering -/

/-- `text.replace(character, replacement)` for one character. -/
def replaceCharacter (character : Char) (replacement : String) (text : List Char) : List Char :=
  text.flatMap fun c => if c = character then replacement.toList else [c]

def ESCAPES : List (Char × String) := [('&', "&amp;"), ('<', "&lt;"), ('>', "&gt;")]

def CUE_SEPARATOR : String := "-->"

def escapeCueText (text : String) : String :=
  String.ofList (ESCAPES.foldl (fun text escape => replaceCharacter escape.1 escape.2 text) text.toList)

/-- `f"{n:0width}"` of a number that is not negative. -/
def padded (width n : Nat) : String :=
  String.ofList (List.replicate (width - (Nat.toDigits 10 n).length) '0' ++ Nat.toDigits 10 n)

def formatTimestamp (milliseconds : Int) : Except String String := do
  require (¬ milliseconds < 0) "A cue cannot start before the media does."
  let (seconds, remainder) := (milliseconds.toNat / 1000, milliseconds.toNat % 1000)
  let (minutes, seconds) := (seconds / 60, seconds % 60)
  let (hours, minutes) := (minutes / 60, minutes % 60)
  return padded 2 hours ++ ":" ++ padded 2 minutes ++ ":" ++ padded 2 seconds ++ "." ++ padded 3 remainder

/-- The line of a cue that says when it is shown. -/
def timingLine (segment : TranscriptSegment) : Except String String := do
  let start ← formatTimestamp segment.startMs
  let finish ← formatTimestamp segment.endMs
  return start ++ " " ++ CUE_SEPARATOR ++ " " ++ finish

def cueLines (segment : TranscriptSegment) : Except String (List String) := do
  let timing ← timingLine segment
  return [segment.position.repr, timing, escapeCueText segment.text, ""]

def renderVtt (segments : List TranscriptSegment) : Except String String := do
  let cues ← segments.mapM cueLines
  return "\n".intercalate (["WEBVTT", ""] ++ cues.flatten)

/-! ### Reading -/

structure Cue where
  position : Int
  startMs : Int
  endMs : Int
  text : String
  deriving DecidableEq, Repr

def TranscriptSegment.cue (segment : TranscriptSegment) : Cue :=
  ⟨segment.position, segment.startMs, segment.endMs, segment.text⟩

/-- The three entities, undone. -/
def unescape : List Char → List Char
  | '&' :: 'a' :: 'm' :: 'p' :: ';' :: rest => '&' :: unescape rest
  | '&' :: 'l' :: 't' :: ';' :: rest => '<' :: unescape rest
  | '&' :: 'g' :: 't' :: ';' :: rest => '>' :: unescape rest
  | c :: rest => c :: unescape rest
  | [] => []

def readNumber (digits : List Char) : Option Nat :=
  if digits ≠ [] ∧ digits.all Char.isDigit then some (Nat.ofDigitChars 10 digits 0) else none

/-- The inverse of `format_timestamp`. -/
def readTimestamp (line : List Char) : Option Nat :=
  match line.splitOn ':' with
  | [hours, minutes, seconds] =>
    match seconds.splitOn '.' with
    | [seconds, milliseconds] => do
      let hours ← readNumber hours
      let minutes ← readNumber minutes
      let seconds ← readNumber seconds
      let milliseconds ← readNumber milliseconds
      return ((hours * 60 + minutes) * 60 + seconds) * 1000 + milliseconds
    | _ => none
  | _ => none

def readTiming (line : List Char) : Option (Nat × Nat) :=
  match line.splitOn ' ' with
  | [start, arrow, finish] =>
    if arrow = CUE_SEPARATOR.toList then do
      let start ← readTimestamp start
      let finish ← readTimestamp finish
      return (start, finish)
    else none
  | _ => none

def readBlock : List (List Char) → Option Cue
  | position :: timing :: text => do
    let position ← readNumber position
    let (startMs, endMs) ← readTiming timing
    return ⟨position, startMs, endMs, String.ofList (['\n'].intercalate (text.map unescape))⟩
  | _ => none

def fileLines (file : String) : List (List Char) := file.toList.splitOn '\n'

/-- The cues of a file, if it has the header and every block of it can be read. -/
def readVtt (file : String) : Option (List Cue) :=
  match fileLines file with
  | header :: blank :: rest => if header = "WEBVTT".toList ∧ blank = [] then (blocks rest).mapM readBlock else none
  | _ => none

end EPlatform.Transcripts
