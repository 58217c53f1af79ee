import EPlatform.Catalog.LiveSearch

/-!
# The page shows the answer to what is in the box

The page is watched by one search box: what happens to the page is typing, waiting, asking, an answer or leaving, and an answer
that reaches the box is one to the text the box holds. What is on the screen is what the box shows, in every state of every
run, whatever order the responses come in.
-/

namespace EPlatform.LiveSearch

open Runs

variable {ρ : Type}

/-! ### The page and the box -/

namespace Phase

def timer (text : Text) : Phase ρ → Option Timer
  | .typing left => some ⟨left, trim text⟩
  | _ => none

def pending : Phase ρ → Bool
  | .asking => true
  | _ => false

def error : Phase ρ → String
  | .refused message => message
  | _ => ""

def results : Phase ρ → Option ρ
  | .answered results => results
  | _ => none

def searching : Phase ρ → Bool
  | .typing _ | .asking => true
  | .answered results => results.isSome
  | _ => false

def isShort : Phase ρ → Bool
  | .short => true
  | _ => false

/-- A request was sent for what is in the box. -/
def asked : Phase ρ → Bool
  | .asking | .answered _ | .refused _ => true
  | _ => false

end Phase

/-- The request is the one for the text, it was not aborted, and its answer is what the phase says, if its handlers were
run. -/
structure Tells (text : Text) (phase : Phase ρ) (request : Request ρ) : Prop where
  q : request.q = (trim text).take MAX_QUERY_LENGTH
  aborted : request.aborted = false
  waits : request.handled = false → phase = .asking
  answer : request.handled = true → ∃ outcome, request.settled = some outcome ∧ phase = .answer outcome

/-- A request whose handlers would still change what is on the screen. -/
structure Live (requests : List (Request ρ)) (n : Nat) (request : Request ρ) : Prop where
  get : requests[n]? = some request
  aborted : request.aborted = false
  handled : request.handled = false

def NoneLive (requests : List (Request ρ)) : Prop := ∀ n request, ¬ Live requests n request

structure Shows (page : Page ρ) (box : Box ρ) : Prop where
  query : page.query = box.text
  mounted : page.mounted = !box.gone
  timer : page.timer = if box.gone then none else box.phase.timer box.text
  pending : page.pending = box.phase.pending
  error : page.error = box.phase.error
  results : page.results = box.phase.results
  searching : page.searching = box.phase.searching
  tooShort : page.tooShort = box.phase.isShort
  live : ∀ n request, Live page.requests n request → n + 1 = page.requests.length ∧ page.inFlight = some n ∧
    page.controller = some n ∧ box.gone = false ∧ box.phase.asked
  last : box.gone = false → box.phase.asked → ∃ n request, n + 1 = page.requests.length ∧
    page.requests[n]? = some request ∧ Tells box.text box.phase request

variable {page : Page ρ} {box : Box ρ}

theorem Shows.screen (h : Shows page box) : page.screen = box.screen := by
  rw [Page.screen, h.searching, h.results, h.tooShort, h.pending, h.error, Box.screen]
  cases box.phase with
  | answered results =>
    cases results with
    | none => rfl
    | some results => rfl
  | _ => rfl

variable {requests : List (Request ρ)} {request request' : Request ρ} {n : Nat}

theorem Live.of_abort {controller : Option Nat} (h : Live (page.abort controller).requests n request) :
    Live page.requests n request ∧ controller ≠ some n := by
  obtain ⟨hget, haborted, hhandled⟩ := h
  cases controller with
  | none => exact ⟨⟨hget, haborted, hhandled⟩, Option.some_ne_none n ∘ Eq.symm⟩
  | some k =>
    rw [Page.abort, List.getElem?_modify] at hget
    obtain ⟨before, hbefore, rfl⟩ := Option.map_eq_some_iff.mp hget
    by_cases hk : k = n
    · rw [if_pos hk] at haborted
      cases haborted
    · rw [if_neg hk] at haborted hhandled ⊢
      exact ⟨⟨hbefore, haborted, hhandled⟩, fun h => hk (Option.some.inj h)⟩

theorem NoneLive.abort (h : NoneLive page.requests) (controller : Option Nat) : NoneLive (page.abort controller).requests :=
  fun n request hlive => h n request hlive.of_abort.1

theorem Shows.noneLive_abort (h : Shows page box) : NoneLive (page.abort page.inFlight).requests := by
  intro n request hlive
  obtain ⟨hbefore, hne⟩ := hlive.of_abort
  exact hne (h.live n request hbefore).2.1

theorem query_abort (page : Page ρ) (controller : Option Nat) : (page.abort controller).query = page.query := by
  cases controller with
  | none => rfl
  | some n => rfl

theorem trimmed_abort (page : Page ρ) (controller : Option Nat) : (page.abort controller).trimmed = page.trimmed := by
  rw [Page.trimmed, query_abort, Page.trimmed]

theorem tooShort_abort (page : Page ρ) (controller : Option Nat) : (page.abort controller).tooShort = page.tooShort := by
  rw [Page.tooShort, trimmed_abort, Page.tooShort]

theorem timer_congr {text text' : Text} (h : trim text = trim text') (phase : Phase ρ) : phase.timer text = phase.timer text' := by
  cases phase with
  | typing left => exact congrArg (fun trimmed => some (Timer.mk left trimmed)) h
  | _ => rfl

theorem Tells.congr {text text' : Text} {phase : Phase ρ} (h : Tells text phase request) (heq : trim text = trim text') :
    Tells text' phase request :=
  ⟨heq ▸ h.q, h.aborted, h.waits, h.answer⟩

/-- What is known of a page when its box has just come to name something else. -/
structure Fresh (page : Page ρ) : Prop where
  mounted : page.mounted = true
  pending : page.pending = false
  error : page.error = ""
  results : page.results = none
  searching : page.searching = !page.tooShort
  noneLive : NoneLive page.requests

theorem Fresh.abort (h : Fresh page) (controller : Option Nat) : Fresh (page.abort controller) where
  noneLive := h.noneLive.abort controller
  mounted := by
    cases controller with
    | none => exact h.mounted
    | some n => exact h.mounted
  pending := by
    cases controller with
    | none => exact h.pending
    | some n => exact h.pending
  error := by
    cases controller with
    | none => exact h.error
    | some n => exact h.error
  results := by
    cases controller with
    | none => exact h.results
    | some n => exact h.results
  searching := by
    rw [tooShort_abort, ← h.searching]
    cases controller with
    | none => rfl
    | some n => rfl

/-- The effect begins a search for what is in the box, or leaves it alone. -/
theorem Fresh.effect (h : Fresh page) (htimer : page.timer = none) :
    Shows page.effect { text := page.query, phase := .begin page.query } := by
  rw [Page.effect]
  by_cases hshort : page.tooShort = true
  · have hbegin : (Phase.begin page.query : Phase ρ) = .short := if_pos (of_decide_eq_true hshort)
    have hfresh := h.abort page.inFlight
    rw [if_pos hshort, hbegin]
    refine ⟨query_abort page _, hfresh.mounted, ?_, hfresh.pending, hfresh.error, rfl, rfl, ?_, ?_, ?_⟩
    · show (page.abort page.inFlight).timer = none
      cases page.inFlight with
      | none => exact htimer
      | some n => exact htimer
    · exact (tooShort_abort page page.inFlight).trans hshort
    · intro n request hlive
      exact absurd hlive (hfresh.noneLive n request)
    · intro _ hasked
      cases hasked
  · have hbegin : (Phase.begin page.query : Phase ρ) = .typing DEBOUNCE_MS := if_neg fun h => hshort (decide_eq_true h)
    rw [if_neg hshort, hbegin]
    refine ⟨rfl, h.mounted, rfl, h.pending, h.error, h.results, ?_, ?_, ?_, ?_⟩
    · rw [h.searching, eq_false_of_ne_true hshort]
      rfl
    · exact eq_false_of_ne_true hshort
    · intro n request hlive
      exact absurd hlive (h.noneLive n request)
    · intro _ hasked
      cases hasked

theorem Fresh.cleanup (h : Fresh page) : Fresh page.cleanup := by
  have hfresh := h.abort page.controller
  exact ⟨hfresh.mounted, hfresh.pending, hfresh.error, hfresh.results, hfresh.searching, hfresh.noneLive⟩

theorem query_cleanup (page : Page ρ) : page.cleanup.query = page.query := query_abort page page.controller

theorem Shows.fresh (h : Shows page box) (hgone : box.gone = false) (next : Text) (hnext : trim next ≠ page.trimmed) :
    Fresh (page.changeQuery next) := by
  rw [Page.changeQuery, if_pos hnext]
  refine ⟨?_, rfl, rfl, rfl, ?_, h.noneLive_abort⟩
  · show (page.abort page.inFlight).mounted = true
    cases page.inFlight with
    | none => rw [Page.abort, h.mounted, hgone]; rfl
    | some n => rw [Page.abort, h.mounted, hgone]; rfl
  · show decide (MIN_QUERY_LENGTH ≤ (trim next).length) = !decide ((trim next).length < MIN_QUERY_LENGTH)
    exact (decide_eq_decide.mpr Nat.not_lt.symm).trans decide_not

theorem query_changeQuery (page : Page ρ) (next : Text) : (page.changeQuery next).query = next := by
  rw [Page.changeQuery]
  split_ifs
  · rfl
  · rfl

theorem Shows.change (h : Shows page box) (hgone : box.gone = false) (next : Text) :
    Shows (page.commit (page.changeQuery next)) (box.step (.type next)) := by
  have hbox : box.step (.type next) = ⟨next, box.phase.step box.text (.type next), box.gone⟩ := if_neg (by rw [hgone]; decide)
  have htrimmed : page.trimmed = trim box.text := congrArg trim h.query
  rw [hbox]
  by_cases hnext : trim next = page.trimmed
  · have hpage : page.changeQuery next = { page with query := next } := if_neg (not_not_intro hnext)
    have hphase : box.phase.step box.text (.type next) = box.phase := if_pos (hnext.trans htrimmed)
    have hshort : ({ page with query := next } : Page ρ).tooShort = page.tooShort :=
      congrArg (fun text : Text => decide (text.length < MIN_QUERY_LENGTH)) hnext
    rw [hpage, Page.commit, if_pos ⟨hnext, hshort⟩, hphase]
    refine ⟨rfl, h.mounted, ?_, h.pending, h.error, h.results, h.searching, hshort.trans h.tooShort, h.live, ?_⟩
    · rw [h.timer, timer_congr (hnext.trans htrimmed)]
    · intro hgone hasked
      obtain ⟨n, request, hn, hget, htells⟩ := h.last hgone hasked
      exact ⟨n, request, hn, hget, htells.congr (hnext.trans htrimmed).symm⟩
  · have hphase : box.phase.step box.text (.type next) = .begin next := if_neg fun heq => hnext (heq.trans htrimmed.symm)
    have hquery := query_changeQuery page next
    have hafter : ¬ ((page.changeQuery next).trimmed = page.trimmed ∧ (page.changeQuery next).tooShort = page.tooShort) :=
      fun heq => hnext (by rw [← heq.1, Page.trimmed, hquery])
    have hshows := (h.fresh hgone next hnext).cleanup.effect rfl
    rw [query_cleanup, hquery] at hshows
    rw [Page.commit, if_neg hafter, hphase, hgone]
    exact hshows

theorem Shows.phase_eq_asking (h : Shows page box) (hlive : Live page.requests n request) :
    box.phase = .asking ∧ Tells box.text .asking request := by
  obtain ⟨hn, -, -, hgone, hasked⟩ := h.live n request hlive
  obtain ⟨k, last, hk, hget, htells⟩ := h.last hgone hasked
  obtain rfl : k = n := by omega
  obtain rfl : last = request := Option.some.inj (hget.symm.trans hlive.get)
  have hphase := htells.waits hlive.handled
  exact ⟨hphase, hphase ▸ htells⟩

theorem step_gone (h : box.gone = true) (act : Act ρ) : box.step act = box := by
  obtain ⟨text, phase, gone⟩ := box
  obtain rfl : gone = true := h
  cases act with
  | leave => rfl
  | _ => rfl

theorem step_here (h : box.gone = false) {act : Act ρ} (htype : ∀ next, act ≠ .type next) (hleave : act ≠ .leave) :
    box.step act = { box with phase := box.phase.step box.text act } := by
  obtain ⟨text, phase, gone⟩ := box
  obtain rfl : gone = false := h
  cases act with
  | type next => exact absurd rfl (htype next)
  | leave => exact absurd rfl hleave
  | _ => rfl

theorem Shows.tick (h : Shows page box) : Shows (step page .tick) (box.step .wait) := by
  obtain ⟨text, phase, gone⟩ := box
  have htimer := h.timer
  cases gone with
  | true =>
    refine ⟨h.query, h.mounted, ?_, h.pending, h.error, h.results, h.searching, h.tooShort, h.live, h.last⟩
    show page.timer.map _ = none
    rw [htimer]
    rfl
  | false =>
    cases phase with
    | typing left =>
      refine ⟨h.query, h.mounted, ?_, h.pending, h.error, h.results, h.searching, h.tooShort, h.live, ?_⟩
      · show page.timer.map _ = some (Timer.mk (left - 1) (trim text))
        rw [htimer]
        rfl
      · intro _ hasked
        cases hasked
    | _ =>
      refine ⟨h.query, h.mounted, ?_, h.pending, h.error, h.results, h.searching, h.tooShort, h.live, h.last⟩
      show page.timer.map _ = none
      rw [htimer]
      rfl

/-- A callback that runs sends a request, and no other is alive then. -/
theorem Shows.fire (h : Shows page box) : Shows (step page .fire) (box.step .ask) := by
  obtain ⟨text, phase, gone⟩ := box
  have htimer := h.timer
  have hidle : page.timer = none → step page .fire = page := fun h => by rw [step, h]
  cases gone with
  | true =>
    rw [hidle htimer]
    exact h
  | false =>
    cases phase with
    | typing left =>
      cases left with
      | zero =>
        have hnone : NoneLive page.requests := by
          intro n request hlive
          obtain ⟨-, -, -, -, hasked⟩ := h.live n request hlive
          cases hasked
        have hstep : step page .fire = page.search (trim text) := by
          rw [step, htimer]
          rfl
        have hlength : page.requests.length + 1 = (page.search (trim text)).requests.length := by
          rw [Page.search, List.length_append, List.length_singleton]
        rw [hstep]
        refine ⟨h.query, h.mounted, rfl, rfl, h.error, h.results, h.searching, h.tooShort, ?_, ?_⟩
        · intro n request hlive
          have hget : (page.requests ++ [_])[n]? = some request := hlive.get
          rw [List.getElem?_append] at hget
          split_ifs at hget with hlt
          · exact absurd ⟨hget, hlive.aborted, hlive.handled⟩ (hnone n request)
          · obtain ⟨hlast, -⟩ := List.getElem?_eq_some_iff.mp hget
            rw [List.length_singleton] at hlast
            obtain rfl : n = page.requests.length := by omega
            exact ⟨hlength, rfl, rfl, rfl, rfl⟩
        · intro _ _
          refine ⟨page.requests.length, _, hlength, List.getElem?_concat_length, ?_⟩
          exact ⟨rfl, rfl, fun _ => rfl, fun hhandled => by cases hhandled⟩
      | succ left =>
        have hstep : step page .fire = page := by
          rw [step, htimer]
          rfl
        rw [hstep]
        exact h
    | _ =>
      rw [hidle htimer]
      exact h

theorem Live.of_settle {k : Nat} {response : Response ρ}
    (h : Live (requests.modify k (Request.settle response)) n request) : ∃ before, Live requests n before := by
  obtain ⟨hget, haborted, hhandled⟩ := h
  rw [List.getElem?_modify] at hget
  obtain ⟨before, hbefore, rfl⟩ := Option.map_eq_some_iff.mp hget
  refine ⟨before, hbefore, ?_, ?_⟩
  · split_ifs at haborted
    · exact haborted
    · exact haborted
  · split_ifs at hhandled
    · exact hhandled
    · exact hhandled

theorem Tells.settle {text : Text} {phase : Phase ρ} (h : Tells text phase request) (response : Response ρ) :
    Tells text phase (request.settle response) := by
  refine ⟨h.q, h.aborted, h.waits, fun hhandled => ?_⟩
  obtain ⟨outcome, hsettled, hphase⟩ := h.answer hhandled
  refine ⟨outcome, ?_, hphase⟩
  rw [Request.settle, hsettled, Option.some_or]

theorem Shows.settle (h : Shows page box) (n : Nat) (response : Response ρ) : Shows (step page (.settle n response)) box := by
  refine ⟨h.query, h.mounted, h.timer, h.pending, h.error, h.results, h.searching, h.tooShort, ?_, ?_⟩
  · intro k request hlive
    obtain ⟨before, hbefore⟩ := hlive.of_settle
    rw [step, List.length_modify]
    exact h.live k before hbefore
  · intro hgone hasked
    obtain ⟨k, request, hk, hget, htells⟩ := h.last hgone hasked
    refine ⟨k, _, by rw [step, List.length_modify, hk], (List.getElem?_modify ..).trans (by rw [hget]; rfl), ?_⟩
    split_ifs
    · exact htells.settle response
    · exact htells

theorem Live.of_handled {k : Nat} (h : Live (requests.set k request') n request) (hdone : request'.handled = true) :
    Live requests n request ∧ n ≠ k := by
  obtain ⟨hget, haborted, hhandled⟩ := h
  rw [List.getElem?_set] at hget
  split_ifs at hget with heq hlt
  · cases hget
    cases hdone.symm.trans hhandled
  · exact ⟨⟨hget, haborted, hhandled⟩, fun hn => heq hn.symm⟩

/-- What the handlers of the live request do is what its answer does to the box. -/
theorem Shows.publish {text : Text} {outcome : Except Cause (Option ρ)} (h : Shows page { text := text, phase := .asking })
    (hnone : NoneLive requests) (hlast : ∃ n request, n + 1 = requests.length ∧ requests[n]? = some request ∧
      Tells text (.answer outcome) request) :
    Shows (Page.publish { page with requests := requests } outcome) { text := text, phase := .answer outcome } := by
  cases outcome with
  | ok results =>
    refine ⟨h.query, h.mounted, h.timer, rfl, rfl, rfl, ?_, h.tooShort, ?_, fun _ _ => hlast⟩
    · show (results.isSome && page.searching) = results.isSome
      rw [h.searching]
      exact Bool.and_true _
    · exact fun k request hlive => absurd hlive (hnone k request)
  | error cause =>
    cases cause with
    | abortError =>
      refine ⟨h.query, h.mounted, h.timer, h.pending, h.error, h.results, h.searching, h.tooShort, ?_, fun _ _ => hlast⟩
      exact fun k request hlive => absurd hlive (hnone k request)
    | searchFailed message throttled =>
      refine ⟨h.query, h.mounted, h.timer, rfl, rfl, rfl, rfl, h.tooShort, ?_, fun _ _ => hlast⟩
      exact fun k request hlive => absurd hlive (hnone k request)
    | other =>
      refine ⟨h.query, h.mounted, h.timer, rfl, rfl, rfl, rfl, h.tooShort, ?_, fun _ _ => hlast⟩
      exact fun k request hlive => absurd hlive (hnone k request)

theorem Shows.handle (h : Shows page box) (n : Nat) :
    Shows (step page (.handle n)) (final Box.step box (see page (.handle n))) := by
  rw [step, see]
  cases hget : page.requests[n]? with
  | none => exact h
  | some request =>
    dsimp only
    obtain ⟨hlt, -⟩ := List.getElem?_eq_some_iff.mp hget
    cases hdue : request.due with
    | none =>
      have hnone : ((some request).filter fun request => !request.aborted).bind Request.due = none := by
        rw [Option.filter_some]
        split_ifs
        · exact hdue
        · rfl
      rw [hnone]
      exact h
    | some outcome =>
      rw [Request.due] at hdue
      split_ifs at hdue with hhandled
      have hset : ∀ k, k ≠ n → (page.requests.set n { request with handled := true })[k]? = page.requests[k]? :=
        fun k hk => List.getElem?_set_ne hk.symm
      show Shows (page.handle n request outcome) _
      rw [Page.handle]
      by_cases haborted : request.aborted = true
      · rw [if_pos haborted, Option.filter_some, if_neg (by rw [haborted]; decide)]
        refine ⟨h.query, h.mounted, h.timer, h.pending, h.error, h.results, h.searching, h.tooShort, ?_, ?_⟩
        · intro k request' hlive
          rw [List.length_set]
          exact h.live k request' (hlive.of_handled rfl).1
        · intro hgone hasked
          obtain ⟨k, last, hk, hlast, htells⟩ := h.last hgone hasked
          refine ⟨k, last, ?_, ?_, htells⟩
          · rw [List.length_set, hk]
          · refine (hset k ?_).trans hlast
            rintro rfl
            cases hget.symm.trans hlast
            exact absurd (haborted.symm.trans htells.aborted) (by decide)
      · have hnot := eq_false_of_ne_true haborted
        have hlive : Live page.requests n request := ⟨hget, hnot, eq_false_of_ne_true hhandled⟩
        obtain ⟨hn, -, -, hgone, -⟩ := h.live n request hlive
        obtain ⟨hphase, htells⟩ := h.phase_eq_asking hlive
        obtain ⟨text, phase, gone⟩ := box
        obtain rfl : gone = false := hgone
        obtain rfl : phase = .asking := hphase
        have hsees : ((some request).filter fun request => !request.aborted).bind Request.due = some outcome := by
          rw [Option.filter_some, if_pos (by rw [hnot]; rfl)]
          exact (if_neg hhandled).trans hdue
        rw [if_neg haborted, hsees]
        refine h.publish ?_ ⟨n, _, ?_, List.getElem?_set_self hlt, ?_⟩
        · intro k request' hlive'
          obtain ⟨hbefore, hne⟩ := hlive'.of_handled rfl
          obtain ⟨hk, -⟩ := h.live k request' hbefore
          omega
        · rw [List.length_set, hn]
        · refine ⟨htells.q, hnot, fun hwaits => ?_, fun _ => ⟨outcome, hdue, rfl⟩⟩
          cases hwaits

theorem Shows.unmount (h : Shows page box) : Shows (step page .unmount) (box.step .leave) := by
  have hkeeps : ∀ controller, (page.abort controller).pending = page.pending ∧ (page.abort controller).error = page.error ∧
      (page.abort controller).results = page.results ∧ (page.abort controller).searching = page.searching := by
    intro controller
    cases controller with
    | none => exact ⟨rfl, rfl, rfl, rfl⟩
    | some n => exact ⟨rfl, rfl, rfl, rfl⟩
  obtain ⟨hpending, herror, hresults, hsearching⟩ := hkeeps page.controller
  refine ⟨(query_cleanup page).trans h.query, rfl, rfl, hpending.trans h.pending, herror.trans h.error,
    hresults.trans h.results, hsearching.trans h.searching, (tooShort_abort page page.controller).trans h.tooShort, ?_, ?_⟩
  · intro n request hlive
    have habort : Live (page.abort page.controller).requests n request := hlive
    obtain ⟨hbefore, hne⟩ := habort.of_abort
    exact absurd (h.live n request hbefore).2.2.1 hne
  · intro hgone
    cases hgone

/-- A step of the page is what it is to the box. -/
theorem simulates : Simulates step Box.step see (Shows (ρ := ρ)) := by
  intro page box event h
  cases event with
  | change next =>
    rw [step, see, final_cons, final_nil]
    cases hgone : box.gone with
    | true =>
      rw [if_neg (by rw [h.mounted, hgone]; decide), step_gone hgone]
      exact h
    | false =>
      rw [if_pos (by rw [h.mounted, hgone]; rfl)]
      exact h.change hgone next
  | tick => exact h.tick
  | fire => exact h.fire
  | settle n response => exact h.settle n response
  | handle n => exact h.handle n
  | unmount => exact h.unmount

theorem shows_init : Shows ({} : Page ρ) {} := by
  refine ⟨rfl, rfl, rfl, rfl, rfl, rfl, rfl, rfl, ?_, ?_⟩
  · intro n request hlive
    cases hlive.get
  · intro _ hasked
    cases hasked

theorem shows_final (run : List (Event ρ)) :
    Shows (final step {} run) (final Box.step {} (seen step see ({} : Page ρ) run)) :=
  simulates.final shows_init run

/-- Whatever is typed, whenever timers come due and in whatever order responses come in and handlers run, the page is the box
that is told of the same typing and of the answers that were not given up; and an answer that can still come is to the last
request, which was sent for what is in the box now. -/
theorem page_shows_box (run : List (Event ρ)) :
    let page := final step {} run
    let box := final Box.step {} (seen step see ({} : Page ρ) run)
    page.query = box.text ∧ page.screen = box.screen ∧
      ∀ n request, page.requests[n]? = some request → request.aborted = false → request.handled = false →
        n + 1 = page.requests.length ∧ box.gone = false ∧ box.phase = .asking ∧
          request.q = (trim page.query).take MAX_QUERY_LENGTH := by
  intro page box
  have h : Shows page box := shows_final run
  refine ⟨h.query, h.screen, fun n request hget haborted hhandled => ?_⟩
  have hlive : Live page.requests n request := ⟨hget, haborted, hhandled⟩
  obtain ⟨hn, -, -, hgone, -⟩ := h.live n request hlive
  obtain ⟨hphase, htells⟩ := h.phase_eq_asking hlive
  exact ⟨hn, hgone, hphase, h.query ▸ htells.q⟩

/-! ### What is on the screen -/

/-- The request is the last, it was sent for what is in the box, and it was not given up. -/
structure Asked (page : Page ρ) (request : Request ρ) : Prop where
  last : page.requests.getLast? = some request
  q : request.q = page.trimmed.take MAX_QUERY_LENGTH
  aborted : request.aborted = false

/-- Why a screen is what it is. -/
inductive Explained (page : Page ρ) : Screen ρ → Prop
  | short (hshort : page.trimmed.length < MIN_QUERY_LENGTH) : Explained page ⟨.browse, ""⟩
  | typing {left : Nat} (hlong : MIN_QUERY_LENGTH ≤ page.trimmed.length) (htimer : page.timer = some ⟨left, page.trimmed⟩) :
    Explained page ⟨.blank, ""⟩
  | asking {request : Request ρ} (hasked : Asked page request) (hwaits : request.handled = false) :
    Explained page ⟨.blank, "Searching…"⟩
  /-- The request was aborted, and not by the page. -/
  | lost {request : Request ρ} (hasked : Asked page request) (hsettled : request.settled = some (.error .abortError)) :
    Explained page ⟨.blank, "Searching…"⟩
  | found {request : Request ρ} {results : ρ} (hasked : Asked page request)
    (hsettled : request.settled = some (.ok (some results))) : Explained page ⟨.found results, ""⟩
  | nothing {request : Request ρ} (hasked : Asked page request) (hsettled : request.settled = some (.ok none)) :
    Explained page ⟨.browse, ""⟩
  | failed {request : Request ρ} {message : String} {throttled : Bool} (hasked : Asked page request)
    (hsettled : request.settled = some (.error (.searchFailed message throttled))) : Explained page ⟨.browse, message⟩
  | unreadable {request : Request ρ} (hasked : Asked page request) (hsettled : request.settled = some (.error .other)) :
    Explained page ⟨.browse, "Search is unavailable right now."⟩

theorem Shows.asked (h : Shows page box) (hgone : box.gone = false) (hasked : box.phase.asked) :
    ∃ request, Asked page request ∧ (request.handled = false ∧ box.phase = .asking ∨
      ∃ outcome, request.settled = some outcome ∧ box.phase = .answer outcome) := by
  obtain ⟨n, request, hn, hget, htells⟩ := h.last hgone hasked
  have hlast : page.requests.getLast? = some request := by
    rw [List.getLast?_eq_getElem?, ← hn, Nat.add_sub_cancel, hget]
  have hq : request.q = page.trimmed.take MAX_QUERY_LENGTH := by rw [Page.trimmed, h.query, htells.q]
  refine ⟨request, ⟨hlast, hq, htells.aborted⟩, ?_⟩
  cases hhandled : request.handled with
  | false => exact .inl ⟨rfl, htells.waits hhandled⟩
  | true => exact .inr (htells.answer hhandled)

theorem explained_answer {outcome : Except Cause (Option ρ)} (hasked : Asked page request)
    (hsettled : request.settled = some outcome) (hphase : box.phase = .answer outcome) : Explained page box.screen := by
  rw [Box.screen, hphase]
  cases outcome with
  | ok results =>
    cases results with
    | none => exact .nothing hasked hsettled
    | some results => exact .found hasked hsettled
  | error cause =>
    cases cause with
    | abortError => exact .lost hasked hsettled
    | searchFailed message throttled => exact .failed hasked hsettled
    | other => exact .unreadable hasked hsettled

/-- What is on the screen of a page that is there is what the last request found or why it failed, for what is in the box, and
else nothing of any search: while there is a pause to wait for or an answer, the screen says no more than that. -/
theorem screen_explained (run : List (Event ρ)) (hmounted : (final step {} run).mounted = true) :
    Explained (final step {} run) (final step {} run).screen := by
  have h := shows_final run
  rw [h.screen]
  generalize final Box.step {} (seen step see {} run) = box at h
  generalize final step {} run = page at h hmounted
  have hgone : box.gone = false := by
    rw [h.mounted] at hmounted
    exact Bool.not_eq_true' _ |>.mp hmounted
  have hasked := h.asked hgone
  have hshort := h.tooShort
  have htimer := h.timer
  rw [hgone, if_neg (by decide), ← timer_congr (congrArg trim h.query)] at htimer
  obtain ⟨text, phase, gone⟩ := box
  cases phase with
  | short => exact .short (of_decide_eq_true hshort)
  | typing left => exact .typing (Nat.not_lt.mp (of_decide_eq_false hshort)) htimer
  | asking =>
    obtain ⟨request, hlast, ⟨hwaits, -⟩ | ⟨outcome, hsettled, hphase⟩⟩ := hasked rfl
    · exact .asking hlast hwaits
    · exact explained_answer hlast hsettled hphase
  | answered results =>
    obtain ⟨request, hlast, ⟨-, hphase⟩ | ⟨outcome, hsettled, hphase⟩⟩ := hasked rfl
    · cases hphase
    · exact explained_answer hlast hsettled hphase
  | refused message =>
    obtain ⟨request, hlast, ⟨-, hphase⟩ | ⟨outcome, hsettled, hphase⟩⟩ := hasked rfl
    · cases hphase
    · exact explained_answer hlast hsettled hphase

/-- A course is found for what was typed, and the white space typed after it asks for nothing. -/
def foundRun : List (Event Nat) :=
  [.change [101, 115], .tick] ++ List.replicate 399 .tick ++
    [.fire, .change [101, 115, 32], .settle 0 (.answered 200 (.json (some 1))), .handle 0]

theorem foundRun_is_explained : Explained (final step {} foundRun) (final step {} foundRun).screen :=
  screen_explained foundRun (by decide +kernel)

/-! ### When requests are sent -/

def Page.starts (page : Page ρ) : List Nat := page.requests.map Request.startedAt

/-- A request is a pause later than the one before, and the timer that is running was set when the last had been sent. -/
structure Spaced (page : Page ρ) : Prop where
  apart : page.starts.Pairwise fun earlier later => earlier + DEBOUNCE_MS ≤ later
  sent : ∀ start ∈ page.starts, start ≤ page.now
  count : DEBOUNCE_MS * page.starts.length ≤ page.now
  left : ∀ timer, page.timer = some timer → timer.left ≤ DEBOUNCE_MS
  since : ∀ timer, page.timer = some timer → ∀ start ∈ page.starts, start + (DEBOUNCE_MS - timer.left) ≤ page.now
  total : ∀ timer, page.timer = some timer → DEBOUNCE_MS * page.starts.length + (DEBOUNCE_MS - timer.left) ≤ page.now

variable {page' : Page ρ}

theorem Spaced.of_timer (h : Spaced page) (hstarts : page'.starts = page.starts) (hnow : page'.now = page.now)
    (htimer : ∀ timer, page'.timer = some timer → page.timer = some timer ∨ timer.left = DEBOUNCE_MS) : Spaced page' := by
  refine ⟨hstarts ▸ h.apart, by rw [hstarts, hnow]; exact h.sent, by rw [hstarts, hnow]; exact h.count, ?_, ?_, ?_⟩
  · intro timer hafter
    obtain hbefore | hset := htimer timer hafter
    · exact h.left timer hbefore
    · exact hset.le
  · intro timer hafter start hstart
    rw [hstarts] at hstart
    rw [hnow]
    obtain hbefore | hset := htimer timer hafter
    · exact h.since timer hbefore start hstart
    · rw [hset, Nat.sub_self]
      exact h.sent start hstart
  · intro timer hafter
    rw [hstarts, hnow]
    obtain hbefore | hset := htimer timer hafter
    · exact h.total timer hbefore
    · rw [hset, Nat.sub_self]
      exact h.count

theorem map_modify {α β : Type} {f : α → β} {g : α → α} (h : ∀ a, f (g a) = f a) (n : Nat) (l : List α) :
    (l.modify n g).map f = l.map f := by
  apply List.ext_getElem?
  intro k
  rw [List.getElem?_map, List.getElem?_map, List.getElem?_modify]
  cases l[k]? with
  | none => rfl
  | some a =>
    show some (f (if n = k then g a else a)) = some (f a)
    split_ifs
    · rw [h]
    · rfl

theorem starts_abort (page : Page ρ) (controller : Option Nat) : (page.abort controller).starts = page.starts := by
  cases controller with
  | none => rfl
  | some n => exact map_modify (f := Request.startedAt) (g := fun request => { request with aborted := true }) (fun _ => rfl) n _

theorem now_abort (page : Page ρ) (controller : Option Nat) : (page.abort controller).now = page.now := by
  cases controller with
  | none => rfl
  | some n => rfl

theorem timer_abort (page : Page ρ) (controller : Option Nat) : (page.abort controller).timer = page.timer := by
  cases controller with
  | none => rfl
  | some n => rfl

theorem Spaced.abort (h : Spaced page) (controller : Option Nat) : Spaced (page.abort controller) :=
  h.of_timer (starts_abort page controller) (now_abort page controller) fun _ htimer =>
    .inl (timer_abort page controller ▸ htimer)

theorem Spaced.untimed (h : Spaced page) (hstarts : page'.starts = page.starts) (hnow : page'.now = page.now)
    (htimer : page'.timer = none) : Spaced page' :=
  h.of_timer hstarts hnow fun _ hafter => by
    rw [htimer] at hafter
    cases hafter

theorem Spaced.same (h : Spaced page) (hstarts : page'.starts = page.starts) (hnow : page'.now = page.now)
    (htimer : page'.timer = page.timer) : Spaced page' :=
  h.of_timer hstarts hnow fun _ hafter => .inl (htimer ▸ hafter)

theorem Spaced.cleanup (h : Spaced page) : Spaced page.cleanup :=
  (h.abort page.controller).untimed rfl rfl rfl

theorem Spaced.changeQuery (h : Spaced page) (next : Text) : Spaced (page.changeQuery next) := by
  rw [Page.changeQuery]
  split_ifs
  · exact (h.abort page.inFlight).same rfl rfl rfl
  · exact h.same rfl rfl rfl

theorem Spaced.effect (h : Spaced page) : Spaced page.effect := by
  rw [Page.effect]
  split_ifs
  · exact (h.abort page.inFlight).same rfl rfl rfl
  · refine h.of_timer rfl rfl fun timer hset => .inr ?_
    cases hset
    rfl

theorem starts_set {done : Request ρ} (hget : page.requests[n]? = some request) (hdone : done.startedAt = request.startedAt) :
    (page.requests.set n done).map Request.startedAt = page.starts := by
  apply List.ext_getElem?
  intro k
  rw [Page.starts, List.map_set, List.getElem?_set, hdone, List.length_map]
  split_ifs with heq hlt
  · rw [← heq, List.getElem?_map, hget]
    rfl
  · exact absurd (List.getElem?_eq_some_iff.mp hget).1 hlt
  · rfl

theorem Spaced.publish (h : Spaced page) (outcome : Except Cause (Option ρ)) : Spaced (page.publish outcome) := by
  cases outcome with
  | ok results => exact h.same rfl rfl rfl
  | error cause =>
    cases cause with
    | abortError => exact h
    | searchFailed message throttled => exact h.same rfl rfl rfl
    | other => exact h.same rfl rfl rfl

theorem Spaced.search (h : Spaced page) {trimmed : Text} (htimer : page.timer = some ⟨0, trimmed⟩) :
    Spaced (page.search trimmed) := by
  have hstarts : (page.search trimmed).starts = page.starts ++ [page.now] := List.map_append
  have hsince : ∀ start ∈ page.starts, start + DEBOUNCE_MS ≤ page.now := h.since _ htimer
  have htotal : DEBOUNCE_MS * page.starts.length + DEBOUNCE_MS ≤ page.now := h.total _ htimer
  refine ⟨?_, ?_, ?_, ?_, ?_, ?_⟩
  · rw [hstarts]
    refine List.pairwise_append.mpr ⟨h.apart, List.pairwise_singleton _ _, ?_⟩
    intro earlier hearlier later hlater
    rw [List.mem_singleton.mp hlater]
    exact hsince earlier hearlier
  · rw [hstarts]
    intro start hstart
    obtain hbefore | hnow := List.mem_append.mp hstart
    · exact h.sent start hbefore
    · exact (List.mem_singleton.mp hnow).le
  · rw [hstarts, List.length_append, List.length_singleton, Nat.mul_succ]
    exact htotal
  · intro timer hafter
    cases hafter
  · intro timer hafter
    cases hafter
  · intro timer hafter
    cases hafter

theorem Spaced.tick (h : Spaced page) : Spaced (step page .tick) := by
  have hbefore : ∀ timer, (step page .tick).timer = some timer →
      ∃ before, page.timer = some before ∧ timer.left = before.left - 1 := by
    intro timer hafter
    obtain ⟨before, hbefore, rfl⟩ := Option.map_eq_some_iff.mp hafter
    exact ⟨before, hbefore, rfl⟩
  have hnow : (step page .tick).now = page.now + 1 := rfl
  refine ⟨h.apart, fun start hstart => Nat.le_succ_of_le (h.sent start hstart), Nat.le_succ_of_le h.count, ?_, ?_, ?_⟩
  · intro timer hafter
    obtain ⟨before, htimer, hleft⟩ := hbefore timer hafter
    have := h.left before htimer
    omega
  · intro timer hafter start hstart
    obtain ⟨before, htimer, hleft⟩ := hbefore timer hafter
    have := h.since before htimer start hstart
    omega
  · intro timer hafter
    obtain ⟨before, htimer, hleft⟩ := hbefore timer hafter
    have htotal : DEBOUNCE_MS * (step page .tick).starts.length + (DEBOUNCE_MS - before.left) ≤ page.now :=
      h.total before htimer
    omega

theorem spaced_step (h : Spaced page) (event : Event ρ) : Spaced (step page event) := by
  cases event with
  | change next =>
    rw [step]
    split_ifs
    · rw [Page.commit]
      split_ifs
      · exact h.changeQuery next
      · exact (h.changeQuery next).cleanup.effect
    · exact h
  | tick => exact h.tick
  | fire =>
    rw [step]
    split
    · rename_i trimmed htimer
      exact h.search htimer
    · exact h
  | settle n response => exact h.same (map_modify (g := Request.settle response) (fun _ => rfl) n page.requests) rfl rfl
  | handle n =>
    rw [step]
    split
    · rename_i request hget
      split
      · rename_i outcome hdue
        have hhandled : Spaced { page with requests := page.requests.set n { request with handled := true } } :=
          h.same (starts_set hget rfl) rfl rfl
        rw [Page.handle]
        split_ifs
        · exact hhandled
        · exact hhandled.publish outcome
      · exact h
    · exact h
  | unmount => exact h.cleanup.same rfl rfl rfl

theorem spaced_init : Spaced ({} : Page ρ) := by
  refine ⟨List.Pairwise.nil, ?_, Nat.zero_le _, ?_, ?_, ?_⟩
  · intro start hstart
    cases hstart
  · intro timer htimer
    cases htimer
  · intro timer htimer
    cases htimer
  · intro timer htimer
    cases htimer

theorem spaced_final (run : List (Event ρ)) : Spaced (final step {} run) :=
  final_of_step (I := Spaced) (fun _ event h => spaced_step h event) spaced_init run

/-- Two requests are at least a pause apart, however the box is typed in and whatever comes back. -/
theorem requests_spaced (run : List (Event ρ)) :
    (final step {} run).starts.Pairwise (fun earlier later => earlier + DEBOUNCE_MS ≤ later) ∧
      DEBOUNCE_MS * (final step {} run).requests.length ≤ (final step {} run).now := by
  have h := spaced_final run
  refine ⟨h.apart, ?_⟩
  rw [← List.length_map Request.startedAt]
  exact h.count

/-! ### A box that is left alone -/

/-- Nobody types, and nobody leaves. -/
def Event.isQuiet : Event ρ → Bool
  | .change _ | .unmount => false
  | _ => true

def Event.isTick : Event ρ → Bool
  | .tick => true
  | _ => false

def Act.isQuiet : Act ρ → Bool
  | .type _ | .leave => false
  | _ => true

/-- The pause is over after so many more ticks. -/
def Phase.due (ticks : Nat) : Phase ρ → Prop
  | .short => False
  | .typing left => left ≤ ticks
  | _ => True

theorem Phase.due.answer (ticks : Nat) (outcome : Except Cause (Option ρ)) : (Phase.answer outcome).due ticks := by
  cases outcome with
  | ok results => trivial
  | error cause =>
    cases cause with
    | _ => trivial

theorem Phase.due.step {ticks : Nat} {phase : Phase ρ} (h : phase.due ticks) (text : Text) {act : Act ρ} (hquiet : act.isQuiet) :
    (phase.step text act).due ticks := by
  cases act with
  | type next => cases hquiet
  | leave => cases hquiet
  | wait =>
    cases phase with
    | typing left => exact Nat.le_trans (Nat.sub_le left 1) h
    | _ => exact h
  | ask =>
    cases phase with
    | typing left =>
      cases left with
      | zero => trivial
      | succ left => exact h
    | _ => exact h
  | answer outcome =>
    cases phase with
    | asking => exact .answer ticks outcome
    | _ => exact h

theorem Phase.due.wait {ticks : Nat} {phase : Phase ρ} (h : phase.due (ticks + 1)) (text : Text) :
    (phase.step text .wait).due ticks := by
  cases phase with
  | typing left =>
    show left - 1 ≤ ticks
    have hle : left ≤ ticks + 1 := h
    omega
  | short => exact h
  | _ => trivial

/-- The box is as it was but for its phase, whose pause is over after so many more ticks. -/
structure Waits (text : Text) (ticks : Nat) (box : Box ρ) : Prop where
  text : box.text = text
  gone : box.gone = false
  due : box.phase.due ticks

theorem Waits.step {text : Text} {ticks : Nat} (h : Waits text ticks box) {act : Act ρ} (hquiet : act.isQuiet) :
    Waits text ticks (box.step act) := by
  rw [step_here h.gone (fun next heq => by rw [heq] at hquiet; cases hquiet) fun heq => by rw [heq] at hquiet; cases hquiet]
  exact ⟨h.text, h.gone, h.due.step box.text hquiet⟩

theorem Waits.wait {text : Text} {ticks : Nat} (h : Waits text (ticks + 1) box) : Waits text ticks (box.step .wait) := by
  rw [step_here h.gone (fun next heq => by cases heq) fun heq => by cases heq]
  exact ⟨h.text, h.gone, h.due.wait box.text⟩

theorem Waits.acts {text : Text} {ticks : Nat} {acts : List (Act ρ)} (h : Waits text ticks box)
    (hquiet : ∀ act ∈ acts, act.isQuiet) : Waits text ticks (final Box.step box acts) := by
  induction acts generalizing box with
  | nil => exact h
  | cons act acts ih =>
    exact ih (h.step (hquiet act List.mem_cons_self)) fun act hact => hquiet act (List.mem_cons_of_mem _ hact)

theorem isQuiet_see {event : Event ρ} (hquiet : event.isQuiet) : ∀ act ∈ see page event, act.isQuiet := by
  intro act hact
  cases event with
  | change next => cases hquiet
  | unmount => cases hquiet
  | tick => exact List.mem_singleton.mp hact ▸ rfl
  | fire => exact List.mem_singleton.mp hact ▸ rfl
  | settle n response => cases hact
  | handle n =>
    obtain ⟨outcome, -, rfl⟩ := List.mem_map.mp hact
    rfl

theorem Waits.quiet {text : Text} {ticks : Nat} {quiet : List (Event ρ)} (h : Waits text (ticks + quiet.countP Event.isTick) box)
    (hquiet : ∀ event ∈ quiet, event.isQuiet) : Waits text ticks (final Box.step box (seen LiveSearch.step see page quiet)) := by
  induction quiet generalizing page box with
  | nil => exact h
  | cons event quiet ih =>
    have hlater : ∀ event ∈ quiet, event.isQuiet := fun event hevent => hquiet event (List.mem_cons_of_mem _ hevent)
    have hacts : ∀ act ∈ see page event, act.isQuiet := isQuiet_see (hquiet event List.mem_cons_self)
    rw [seen, final_append]
    apply ih _ hlater
    cases event with
    | tick =>
      rw [List.countP_cons_of_pos rfl, ← Nat.add_assoc] at h
      exact h.wait
    | _ =>
      rw [List.countP_cons_of_neg Bool.false_ne_true] at h
      exact h.acts hacts

theorem Phase.due.ask {phase : Phase ρ} (h : phase.due 0) (text : Text) : (phase.step text .ask).asked := by
  cases phase with
  | short => cases h
  | typing left =>
    obtain rfl := Nat.le_zero.mp h
    rfl
  | _ => rfl

theorem Shows.due (h : Shows page box) (hspaced : Spaced page) (hgone : box.gone = false)
    (hlong : MIN_QUERY_LENGTH ≤ page.trimmed.length) : box.phase.due DEBOUNCE_MS := by
  have htimer := h.timer
  have hshort : box.phase.isShort = false := h.tooShort ▸ decide_eq_false (Nat.not_lt.mpr hlong)
  rw [hgone, if_neg (by decide)] at htimer
  cases hphase : box.phase with
  | short =>
    rw [hphase] at hshort
    cases hshort
  | typing left =>
    rw [hphase] at htimer
    exact hspaced.left _ htimer
  | _ => trivial

/-- When a box that names something to search for is left alone for a pause, the search has been asked for by the time its timer
has run: whatever other requests come to meanwhile, the last request is one for what is in the box. -/
theorem left_alone_is_asked (run quiet : List (Event ρ)) (hmounted : (final step {} run).mounted = true)
    (hlong : MIN_QUERY_LENGTH ≤ (final step {} run).trimmed.length) (hquiet : ∀ event ∈ quiet, event.isQuiet)
    (hpause : DEBOUNCE_MS ≤ quiet.countP Event.isTick) :
    (final step {} (run ++ quiet ++ [.fire])).query = (final step {} run).query ∧
      ∃ request, Asked (final step {} (run ++ quiet ++ [.fire])) request := by
  have hbefore := shows_final run
  have hafter := shows_final (run ++ quiet ++ [.fire])
  have hgone : (final Box.step {} (seen step see ({} : Page ρ) run)).gone = false := by
    rw [hbefore.mounted] at hmounted
    exact Bool.not_eq_true' _ |>.mp hmounted
  obtain ⟨extra, hextra⟩ := Nat.exists_eq_add_of_le hpause
  have hdue := hbefore.due (spaced_final run) hgone hlong
  generalize hbox : final Box.step {} (seen step see ({} : Page ρ) run) = box at hbefore hgone hdue
  have hwaits : Waits box.text 0 (final Box.step box (seen step see (final step {} run) quiet)) := by
    refine Waits.quiet ⟨rfl, hgone, ?_⟩ hquiet
    rw [Nat.zero_add, hextra]
    cases hphase : box.phase with
    | short =>
      rw [hphase] at hdue
      cases hdue
    | typing left =>
      rw [hphase] at hdue
      exact Nat.le_add_right_of_le hdue
    | _ => trivial
  rw [seen_append, seen_append, @final_append _ _ Box.step, @final_append _ _ Box.step, hbox] at hafter
  generalize final Box.step box (seen step see (final step {} run) quiet) = waiting at hwaits hafter
  have hask : waiting.step .ask = { waiting with phase := waiting.phase.step waiting.text .ask } :=
    step_here hwaits.gone (fun next heq => by cases heq) fun heq => by cases heq
  have hstep : final Box.step waiting (seen step see (final step {} (run ++ quiet)) [.fire]) = waiting.step .ask := rfl
  rw [hstep, hask] at hafter
  obtain ⟨request, hasked, -⟩ := hafter.asked hwaits.gone (hwaits.due.ask _)
  exact ⟨hafter.query.trans (hwaits.text.trans hbefore.query.symm), request, hasked⟩

/-- The course that was found was asked for after a pause. -/
theorem foundRun_is_asked : (final step {} ([.change [101, 115]] ++ List.replicate 400 .tick ++ [.fire] : List (Event Nat))).query =
    (final step {} ([.change [101, 115]] : List (Event Nat))).query ∧
      ∃ request,
        Asked (final step {} ([.change [101, 115]] ++ List.replicate 400 .tick ++ [.fire] : List (Event Nat))) request := by
  refine left_alone_is_asked [.change [101, 115]] (List.replicate 400 .tick) (by decide +kernel) (by decide +kernel) ?_ ?_
  · intro event hevent
    rw [List.eq_of_mem_replicate hevent]
    rfl
  · rw [List.countP_replicate]
    rfl

end EPlatform.LiveSearch
