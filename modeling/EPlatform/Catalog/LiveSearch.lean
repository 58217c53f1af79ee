import EPlatform.Catalog.Filters
import EPlatform.Runs.Simulation

/-!
# Searching while typing

`CourseSearch` and what `CourseCatalogue` makes of it: the box, the pause before a search is asked for, the requests that are
under way, and what is on the screen. A change of the box and the effects it has are one event, as React commits them; a
timer comes due, a response comes in and a handler runs whenever it likes.
-/

namespace EPlatform.LiveSearch

open Runs

/-! ### What the code does -/

/-- A string of JavaScript, in UTF-16 code units. -/
abbrev Text := List UInt16

def isTrimmed (unit : UInt16) : Bool := Catalog.isTrimmed (Char.ofNat unit.toNat)

/-- `text.trim()`. -/
def trim (text : Text) : Text := (text.dropWhile isTrimmed).rdropWhile isTrimmed

def MIN_QUERY_LENGTH : Nat := 2

def MAX_QUERY_LENGTH : Nat := 200

def DEBOUNCE_MS : Nat := 400

/-- What `response.json()` comes to. `null` is read as `none`. -/
inductive Body (ρ : Type)
  | json (results : Option ρ)
  | unreadable (isAbort : Bool)

/-- What `fetch` comes to. -/
inductive Response (ρ : Type)
  | rejected (isAbort : Bool)
  | answered (status : Nat) (body : Body ρ)

/-- What `searchCourses` throws: an `AbortError`, a `SearchFailed`, or what `json()` has thrown. -/
inductive Cause
  | abortError
  | searchFailed (message : String) (throttled : Bool)
  | other
  deriving DecidableEq

variable {ρ : Type}

def searchCourses : Response ρ → Except Cause (Option ρ)
  | .rejected true => .error .abortError
  | .rejected false => .error (.searchFailed "Search is unavailable right now." false)
  | .answered status body =>
    if status = 429 then
      .error (.searchFailed "Too many searches. Wait a moment and try again." true)
    else if ¬ (200 ≤ status ∧ status ≤ 299) then
      .error (.searchFailed "Search is unavailable right now." false)
    else
      match body with
      | .json results => .ok results
      | .unreadable true => .error .abortError
      | .unreadable false => .error .other

/-- A call of `searchCourses` with the signal of its own controller. -/
structure Request (ρ : Type) where
  q : Text
  startedAt : Nat
  aborted : Bool := false
  settled : Option (Except Cause (Option ρ)) := none
  handled : Bool := false

/-- `setTimeout` in the effect, with the query the effect was run for. -/
structure Timer where
  left : Nat
  trimmed : Text

/-- The state and the refs of the two components. A controller is the number of its request; `controller` is the variable of
the last effect that was run. -/
structure Page (ρ : Type) where
  query : Text := []
  pending : Bool := false
  error : String := ""
  inFlight : Option Nat := none
  timer : Option Timer := none
  controller : Option Nat := none
  results : Option ρ := none
  searching : Bool := false
  requests : List (Request ρ) := []
  mounted : Bool := true
  now : Nat := 0

namespace Page

def trimmed (page : Page ρ) : Text := trim page.query

def tooShort (page : Page ρ) : Bool := page.trimmed.length < MIN_QUERY_LENGTH

/-- `controller?.abort()`. -/
def abort (page : Page ρ) : Option Nat → Page ρ
  | none => page
  | some n => { page with requests := page.requests.modify n fun request => { request with aborted := true } }

/-- The parent's `onResults`. -/
def onResults (page : Page ρ) (next : Option ρ) : Page ρ :=
  { page with results := next, searching := next.isSome && page.searching }

/-- The parent's `onQueryChange`. -/
def onQueryChange (page : Page ρ) (q : Text) : Page ρ :=
  { page with results := none, searching := MIN_QUERY_LENGTH ≤ q.length }

def changeQuery (page : Page ρ) (next : Text) : Page ρ :=
  if trim next ≠ page.trimmed then
    { onQueryChange { page.abort page.inFlight with pending := false, error := "" } (trim next) with query := next }
  else
    { page with query := next }

/-- What the effect has left to be done before it is run again. -/
def cleanup (page : Page ρ) : Page ρ :=
  { page.abort page.controller with timer := none, controller := none }

def effect (page : Page ρ) : Page ρ :=
  if page.tooShort then
    (page.abort page.inFlight).onResults none
  else
    { page with timer := some ⟨DEBOUNCE_MS, page.trimmed⟩, controller := none }

/-- The effect depends on `trimmed` and `tooShort`. -/
def commit (before after : Page ρ) : Page ρ :=
  if after.trimmed = before.trimmed ∧ after.tooShort = before.tooShort then after else after.cleanup.effect

/-- The timer's callback. -/
def search (page : Page ρ) (trimmed : Text) : Page ρ :=
  { page with
    timer := none
    controller := some page.requests.length
    inFlight := some page.requests.length
    pending := true
    requests := page.requests ++ [{ q := trimmed.take MAX_QUERY_LENGTH, startedAt := page.now }] }

/-- The `then` of a request, or its `catch`. -/
def publish (page : Page ρ) : Except Cause (Option ρ) → Page ρ
  | .ok results => { page.onResults results with pending := false, error := "" }
  | .error .abortError => page
  | .error (.searchFailed message _) => onResults { page with pending := false, error := message } none
  | .error .other => onResults { page with pending := false, error := "Search is unavailable right now." } none

def handle (page : Page ρ) (n : Nat) (request : Request ρ) (outcome : Except Cause (Option ρ)) : Page ρ :=
  let page := { page with requests := page.requests.set n { request with handled := true } }
  if request.aborted then page else page.publish outcome

end Page

inductive Event (ρ : Type)
  | change (next : Text)
  | tick
  | fire
  | settle (n : Nat) (response : Response ρ)
  | handle (n : Nat)
  | unmount

/-- The outcome the handlers of a request are yet to be run with. -/
def Request.due (request : Request ρ) : Option (Except Cause (Option ρ)) :=
  if request.handled then none else request.settled

def Request.settle (response : Response ρ) (request : Request ρ) : Request ρ :=
  { request with settled := request.settled.or (some (searchCourses response)) }

def step (page : Page ρ) : Event ρ → Page ρ
  | .change next => if page.mounted then page.commit (page.changeQuery next) else page
  | .tick => { page with now := page.now + 1, timer := page.timer.map fun timer => { timer with left := timer.left - 1 } }
  | .fire =>
    match page.timer with
    | some ⟨0, trimmed⟩ => page.search trimmed
    | _ => page
  | .settle n response => { page with requests := page.requests.modify n (Request.settle response) }
  | .handle n =>
    match page.requests[n]? with
    | some request =>
      match request.due with
      | some outcome => page.handle n request outcome
      | none => page
    | none => page
  | .unmount => { page.cleanup with mounted := false }

/-- The courses that are there to be browsed, nothing yet, or what a search has found. -/
inductive Listing (ρ : Type)
  | browse
  | blank
  | found (results : ρ)

structure Screen (ρ : Type) where
  listing : Listing ρ
  status : String

def Page.screen (page : Page ρ) : Screen ρ where
  listing := if page.searching then page.results.elim .blank .found else .browse
  status := (if !page.tooShort && page.pending then "Searching…" else "") ++
    if !page.tooShort && !page.pending then page.error else ""

/-! ### What the box is for -/

/-- How far a search is: there is nothing to search for, the pause is not over, it has been asked for, it was answered, or it
has failed. -/
inductive Phase (ρ : Type)
  | short
  | typing (left : Nat)
  | asking
  | answered (results : Option ρ)
  | refused (message : String)

/-- One search, for the text that is in the box. -/
structure Box (ρ : Type) where
  text : Text := []
  phase : Phase ρ := .short
  gone : Bool := false

/-- What is done to a box, and the answers it gets. -/
inductive Act (ρ : Type)
  | type (next : Text)
  | wait
  | ask
  | answer (outcome : Except Cause (Option ρ))
  | leave

/-- The phase an answer leads to. Who did not abort a request is told nothing by an `AbortError`. -/
def Phase.answer : Except Cause (Option ρ) → Phase ρ
  | .ok results => .answered results
  | .error .abortError => .asking
  | .error (.searchFailed message _) => .refused message
  | .error .other => .refused "Search is unavailable right now."

def Phase.begin (text : Text) : Phase ρ := if (trim text).length < MIN_QUERY_LENGTH then .short else .typing DEBOUNCE_MS

def Phase.step (text : Text) : Phase ρ → Act ρ → Phase ρ
  | phase, .type next => if trim next = trim text then phase else .begin next
  | .typing left, .wait => .typing (left - 1)
  | .typing 0, .ask => .asking
  | .asking, .answer outcome => .answer outcome
  | phase, _ => phase

def Box.step (box : Box ρ) : Act ρ → Box ρ
  | .leave => { box with gone := true }
  | act =>
    if box.gone then box
    else
      { box with
        phase := box.phase.step box.text act
        text := match act with
          | .type next => next
          | _ => box.text }

def Box.screen (box : Box ρ) : Screen ρ :=
  match box.phase with
  | .short => ⟨.browse, ""⟩
  | .typing _ => ⟨.blank, ""⟩
  | .asking => ⟨.blank, "Searching…"⟩
  | .answered none => ⟨.browse, ""⟩
  | .answered (some results) => ⟨.found results, ""⟩
  | .refused message => ⟨.browse, message⟩

/-- What a step is to the box. A request that was aborted answers nothing. -/
def see (page : Page ρ) : Event ρ → List (Act ρ)
  | .change next => [.type next]
  | .tick => [.wait]
  | .fire => [.ask]
  | .settle _ _ => []
  | .handle n => (((page.requests[n]?).filter fun request => !request.aborted).bind Request.due).toList.map .answer
  | .unmount => [.leave]

end EPlatform.LiveSearch
