import EPlatform.Core.Logging
import EPlatform.Runs.Run

/-!
# One id for a request and its tasks

`RequestIDMiddleware`, and the handlers that carry its id over the queue: the publisher stamps the id it has onto the message,
the worker adopts it for the task and clears it behind. Requests, workers and whatever else may write to the queue take their
steps in any order, a message may be delivered more than once, and a worker may be killed.
-/

namespace EPlatform.RequestIds

open Formats Formats.JsonText Logging Runs

variable {F : Type}

/-- A request, and the id it is served under, which its response carries. The context of the request has it while the request
is served. -/
structure Request where
  header : Option Text
  requestId : Text
  isServed : Bool

/-- A message: its header, and for the proofs which request its publisher was serving, or descends from. -/
structure Message where
  requestId : Option Text
  origin : Option Nat

/-- A worker process: what its context variable has, and the message it is running. -/
structure Worker where
  current : Text := []
  running : Option Nat := none

/-- A line that was written, and for the proofs which request its writer was serving, or descends from. -/
structure Line (F : Type) where
  origin : Option Nat
  requestId : Text
  record : LogRecord F

structure State (F : Type) where
  requests : List Request := []
  messages : List Message := []
  workers : List Worker := []
  lines : List (Line F) := []
  log : Text := []

inductive Event (F : Type)
  | request (header : Option Text) (fresh : FreshId)
  | requestLogs (number : Nat) (record : LogRecord F)
  | requestPublishes (number : Nat)
  | requestEnds (number : Nat)
  | workerStarts
  | taskPrerun (worker message : Nat) (fresh : FreshId)
  | workerLogs (worker : Nat) (record : LogRecord F)
  | workerPublishes (worker : Nat)
  | taskPostrun (worker : Nat)
  | workerKilled (worker : Nat)
  | outsiderPublishes (header : Option Text)

/-- `_carry_request_id`: nothing is stamped where nothing is in flight. -/
def carryRequestId (current : Text) : Option Text := if current = [] then none else some current

namespace State

variable (floats : FloatText F) (limit : Nat) (s : State F)

/-- What the context of a request has. -/
def current (number : Nat) : Text :=
  match s.requests[number]? with
  | some request => if request.isServed then request.requestId else []
  | none => []

/-- Which request a request's code serves: none when the middleware is left. -/
def serving (number : Nat) : Option Nat :=
  match s.requests[number]? with
  | some request => if request.isServed then some number else none
  | none => none

/-- The request the task of a worker descends from. -/
def originOf (worker : Worker) : Option Nat := do
  let message ← s.messages[(← worker.running)]?
  message.origin

/-- `Handler.emit`. A record that cannot be written is dropped. -/
def emit (origin : Option Nat) (current : Text) (record : LogRecord F) : State F :=
  match dumps floats limit (record.payload (requestIdOf current)) with
  | none => s
  | some line => { s with
      lines := s.lines ++ [⟨origin, requestIdOf current, record⟩]
      log := s.log ++ (line ++ [point '\n']) }

def publish (origin : Option Nat) (requestId : Option Text) : State F :=
  { s with messages := s.messages ++ [⟨requestId, origin⟩] }

def setWorker (number : Nat) (worker : Worker) : State F := { s with workers := s.workers.set number worker }

end State

def step (floats : FloatText F) (limit : Nat) (s : State F) : Event F → State F
  | .request header fresh => { s with requests := s.requests ++ [⟨header, sanitiseRequestId header fresh, true⟩] }
  | .requestLogs number record => s.emit floats limit (s.serving number) (s.current number) record
  | .requestPublishes number => s.publish (s.serving number) (carryRequestId (s.current number))
  | .requestEnds number =>
    { s with requests := s.requests.modify number fun request => { request with isServed := false } }
  | .workerStarts => { s with workers := s.workers ++ [{}] }
  | .taskPrerun number message fresh =>
    match s.workers[number]?, s.messages[message]? with
    | some worker, some delivered =>
      if worker.running.isNone then
        s.setWorker number ⟨sanitiseRequestId delivered.requestId fresh, some message⟩
      else s
    | _, _ => s
  | .workerLogs number record =>
    match s.workers[number]? with
    | some worker => s.emit floats limit (s.originOf worker) worker.current record
    | none => s
  | .workerPublishes number =>
    match s.workers[number]? with
    | some worker => s.publish (s.originOf worker) (carryRequestId worker.current)
    | none => s
  | .taskPostrun number => s.setWorker number {}
  | .workerKilled number => s.setWorker number {}
  | .outsiderPublishes header => s.publish none header

/-! ### What every state keeps -/

variable {floats : FloatText F} {limit : Nat} {s : State F}

/-- Whoever descends from a request has its id, and whoever has an id has a safe one. -/
structure Speaks (requests : List Request) (origin : Option Nat) (current : Text) : Prop where
  safe : current = [] ∨ IsSafe current
  has : ∀ number, origin = some number → ∃ request, requests[number]? = some request ∧ request.requestId = current ∧
    IsSafe current

structure Traced (s : State F) : Prop where
  requests : ∀ request ∈ s.requests, IsSafe request.requestId ∧
    ∀ header, request.header = some header → IsSafe header → request.requestId = header
  messages : ∀ message ∈ s.messages, ∀ number, message.origin = some number →
    ∃ request, s.requests[number]? = some request ∧ message.requestId = some request.requestId
  workers : ∀ worker ∈ s.workers, Speaks s.requests (s.originOf worker) worker.current ∧
    (worker.running = none → worker.current = []) ∧
    ∀ number, worker.running = some number → number < s.messages.length
  lines : ∀ line ∈ s.lines, IsSafe line.requestId ∧ ∀ number, line.origin = some number →
    ∃ request, s.requests[number]? = some request ∧ line.requestId = request.requestId

/-- Requests come to be, and keep their ids. -/
def Grows (before after : List Request) : Prop := ∀ (number : Nat) (request : Request), before[number]? = some request →
  ∃ request', after[number]? = some request' ∧ request'.requestId = request.requestId

theorem grows_append (requests more : List Request) : Grows requests (requests ++ more) := by
  intro number request h
  exact ⟨request, by rw [List.getElem?_append_left (List.getElem?_eq_some_iff.mp h).1, h], rfl⟩

theorem grows_modify (requests : List Request) (number : Nat) :
    Grows requests (requests.modify number fun request => { request with isServed := false }) := by
  intro other request h
  refine ⟨_, by rw [List.getElem?_modify, h]; rfl, ?_⟩
  split_ifs
  · rfl
  · rfl

variable {origin : Option Nat} {current : Text} {requests requests' : List Request}

theorem Speaks.grows (h : Speaks requests origin current) (hgrows : Grows requests requests') :
    Speaks requests' origin current := by
  refine ⟨h.safe, fun number horigin => ?_⟩
  obtain ⟨request, hrequest, hid, hsafe⟩ := h.has number horigin
  obtain ⟨request', hrequest', hid'⟩ := hgrows number request hrequest
  exact ⟨request', hrequest', hid'.trans hid, hsafe⟩

theorem speaks_nothing (requests : List Request) : Speaks requests none [] := ⟨.inl rfl, fun _ h => by cases h⟩

theorem Speaks.requestIdOf (h : Speaks requests origin current) : IsSafe (requestIdOf current) ∧
    ∀ number, origin = some number → ∃ request, requests[number]? = some request ∧
      Logging.requestIdOf current = request.requestId := by
  constructor
  · obtain rfl | hsafe := h.safe
    · exact isSafe_noRequest
    · rw [requestIdOf_of_isSafe hsafe]
      exact hsafe
  · intro number horigin
    obtain ⟨request, hrequest, hid, hsafe⟩ := h.has number horigin
    exact ⟨request, hrequest, by rw [requestIdOf_of_isSafe hsafe, hid]⟩

theorem Speaks.carryRequestId (h : Speaks requests origin current) (number : Nat) (horigin : origin = some number) :
    ∃ request, requests[number]? = some request ∧ carryRequestId current = some request.requestId := by
  obtain ⟨request, hrequest, hid, hsafe⟩ := h.has number horigin
  refine ⟨request, hrequest, ?_⟩
  have hne : current ≠ [] := by
    rintro rfl
    exact absurd hsafe.1.1 (by decide)
  rw [RequestIds.carryRequestId, if_neg hne, hid]

namespace Traced

theorem speaks_of_request (h : Traced s) (number : Nat) : Speaks s.requests (s.serving number) (s.current number) := by
  rw [State.serving, State.current]
  cases hrequest : s.requests[number]? with
  | none => exact speaks_nothing s.requests
  | some request =>
    dsimp only
    split_ifs
    · have hsafe := (h.requests request (List.mem_of_getElem? hrequest)).1
      refine ⟨.inr hsafe, fun other hother => ?_⟩
      cases hother
      exact ⟨request, hrequest, rfl, hsafe⟩
    · exact speaks_nothing s.requests

theorem emit (h : Traced s) (hspeaks : Speaks s.requests origin current) (record : LogRecord F) :
    Traced (s.emit floats limit origin current record) := by
  unfold State.emit
  split
  · exact h
  · refine ⟨h.requests, h.messages, h.workers, fun line hline => ?_⟩
    obtain hold | hnew := List.mem_append.mp hline
    · exact h.lines line hold
    · rw [List.mem_singleton.mp hnew]
      exact hspeaks.requestIdOf

theorem publish (h : Traced s) {requestId : Option Text} (hstamped : ∀ number, origin = some number →
    ∃ request, s.requests[number]? = some request ∧ requestId = some request.requestId) :
    Traced (s.publish origin requestId) := by
  refine ⟨h.requests, fun message hmessage => ?_, fun worker hworker => ?_, h.lines⟩
  · obtain hold | hnew := List.mem_append.mp hmessage
    · exact h.messages message hold
    · rw [List.mem_singleton.mp hnew]
      exact hstamped
  · obtain ⟨hspeaks, hidle, hrunning⟩ := h.workers worker hworker
    have horigin : (s.publish origin requestId).originOf worker = s.originOf worker := by
      rw [State.originOf, State.originOf]
      cases hrun : worker.running with
      | none => rfl
      | some number =>
        show ((s.messages ++ [_])[number]?).bind _ = _
        rw [List.getElem?_append_left (hrunning number hrun)]
        rfl
    rw [horigin]
    exact ⟨hspeaks, hidle, fun number hrun => Nat.lt_of_lt_of_le (hrunning number hrun) (by simp [State.publish])⟩

theorem setWorker (h : Traced s) (number : Nat) {worker : Worker} (hspeaks : Speaks s.requests (s.originOf worker) worker.current)
    (hidle : worker.running = none → worker.current = [])
    (hrunning : ∀ number, worker.running = some number → number < s.messages.length) :
    Traced (s.setWorker number worker) := by
  refine ⟨h.requests, h.messages, fun other hother => ?_, h.lines⟩
  obtain hold | rfl := List.mem_or_eq_of_mem_set hother
  · exact h.workers other hold
  · exact ⟨hspeaks, hidle, hrunning⟩

/-- The requests change, and keep their ids. -/
theorem withRequests (h : Traced s) (hgrows : Grows s.requests requests')
    (hrequests : ∀ request ∈ requests', IsSafe request.requestId ∧
      ∀ header, request.header = some header → IsSafe header → request.requestId = header) :
    Traced { s with requests := requests' } := by
  refine ⟨hrequests, fun message hmessage number horigin => ?_, fun worker hworker => ?_, fun line hline => ?_⟩
  · obtain ⟨request, hrequest, hid⟩ := h.messages message hmessage number horigin
    obtain ⟨request', hrequest', hid'⟩ := hgrows number request hrequest
    exact ⟨request', hrequest', by rw [hid, hid']⟩
  · obtain ⟨hspeaks, hidle, hrunning⟩ := h.workers worker hworker
    exact ⟨hspeaks.grows hgrows, hidle, hrunning⟩
  · refine ⟨(h.lines line hline).1, fun number horigin => ?_⟩
    obtain ⟨request, hrequest, hid⟩ := (h.lines line hline).2 number horigin
    obtain ⟨request', hrequest', hid'⟩ := hgrows number request hrequest
    exact ⟨request', hrequest', hid.trans hid'.symm⟩

theorem speaks_fresh {message : Nat} {delivered : Message} (h : Traced s) (hmessage : s.messages[message]? = some delivered)
    (fresh : FreshId) :
    Speaks s.requests (s.originOf ⟨sanitiseRequestId delivered.requestId fresh, some message⟩)
      (sanitiseRequestId delivered.requestId fresh) := by
  have horigin : s.originOf ⟨sanitiseRequestId delivered.requestId fresh, some message⟩ = delivered.origin := by
    show (s.messages[message]?).bind _ = _
    rw [hmessage]
    rfl
  rw [horigin]
  refine ⟨.inr (isSafe_sanitiseRequestId _ fresh), fun number hnumber => ?_⟩
  obtain ⟨request, hrequest, hid⟩ := h.messages delivered (List.mem_of_getElem? hmessage) number hnumber
  have hsafe := (h.requests request (List.mem_of_getElem? hrequest)).1
  rw [hid, sanitiseRequestId_of_isSafe hsafe]
  exact ⟨request, hrequest, rfl, hsafe⟩

theorem step (h : Traced s) (event : Event F) : Traced (step floats limit s event) := by
  cases event with
  | request header fresh =>
    refine h.withRequests (grows_append s.requests _) fun request hrequest => ?_
    obtain hold | hnew := List.mem_append.mp hrequest
    · exact h.requests request hold
    · rw [List.mem_singleton.mp hnew]
      refine ⟨isSafe_sanitiseRequestId header fresh, fun header' hheader hsafe => ?_⟩
      obtain rfl : header = some header' := hheader
      exact sanitiseRequestId_of_isSafe hsafe fresh
  | requestLogs number record => exact h.emit (h.speaks_of_request number) record
  | requestPublishes number => exact h.publish (h.speaks_of_request number).carryRequestId
  | requestEnds number =>
    refine h.withRequests (grows_modify s.requests number) fun request hrequest => ?_
    obtain ⟨other, hother⟩ := List.mem_iff_getElem?.mp hrequest
    rw [List.getElem?_modify] at hother
    obtain ⟨before, hbefore, rfl⟩ := Option.map_eq_some_iff.mp hother
    have hkept := h.requests before (List.mem_of_getElem? hbefore)
    split_ifs
    · exact hkept
    · exact hkept
  | workerStarts =>
    refine ⟨h.requests, h.messages, fun worker hworker => ?_, h.lines⟩
    obtain hold | hnew := List.mem_append.mp hworker
    · exact h.workers worker hold
    · rw [List.mem_singleton.mp hnew]
      exact ⟨speaks_nothing s.requests, fun _ => rfl, fun _ hrun => by cases hrun⟩
  | taskPrerun number message fresh =>
    rw [RequestIds.step]
    split
    · rename_i worker delivered hworker hmessage
      split_ifs
      · refine h.setWorker number (h.speaks_fresh hmessage fresh) (fun hidle => by cases hidle) fun other hother => ?_
        cases hother
        exact (List.getElem?_eq_some_iff.mp hmessage).1
      · exact h
    · exact h
  | workerLogs number record =>
    rw [RequestIds.step]
    split
    · rename_i worker hworker
      exact h.emit (h.workers worker (List.mem_of_getElem? hworker)).1 record
    · exact h
  | workerPublishes number =>
    rw [RequestIds.step]
    split
    · rename_i worker hworker
      exact h.publish (h.workers worker (List.mem_of_getElem? hworker)).1.carryRequestId
    · exact h
  | taskPostrun number => exact h.setWorker number (speaks_nothing s.requests) (fun _ => rfl) fun _ hrun => by cases hrun
  | workerKilled number => exact h.setWorker number (speaks_nothing s.requests) (fun _ => rfl) fun _ hrun => by cases hrun
  | outsiderPublishes header => exact h.publish fun _ horigin => by cases horigin

end Traced

theorem traced_start : Traced ({} : State F) where
  requests := by simp
  messages := by simp
  workers := by simp
  lines := by simp

theorem traced_final (floats : FloatText F) (limit : Nat) (run : List (Event F)) :
    Traced (final (step floats limit) {} run) :=
  final_of_step (fun _ event h => h.step event) traced_start run

/-- Every line a request writes, and every line of a task it has queued, of a task such a task has queued, and of any run of
one of these again, carries the id the request answers with: the one its header gave, where that is safe. A worker between
two tasks has no id. -/
theorem lines_carry_request_id (floats : FloatText F) (limit : Nat) (run : List (Event F)) :
    (∀ line ∈ (final (step floats limit) {} run).lines, IsSafe line.requestId ∧ ∀ number, line.origin = some number →
      ∃ request, (final (step floats limit) {} run).requests[number]? = some request ∧ line.requestId = request.requestId ∧
        ∀ header, request.header = some header → IsSafe header → line.requestId = header) ∧
    ∀ worker ∈ (final (step floats limit) {} run).workers, worker.running = none → requestIdOf worker.current = NO_REQUEST := by
  have h := traced_final floats limit run
  refine ⟨fun line hline => ⟨(h.lines line hline).1, fun number horigin => ?_⟩, fun worker hworker hidle => ?_⟩
  · obtain ⟨request, hrequest, hid⟩ := (h.lines line hline).2 number horigin
    refine ⟨request, hrequest, hid, fun header hheader hsafe => hid.trans ?_⟩
    exact (h.requests request (List.mem_of_getElem? hrequest)).2 header hheader hsafe
  · rw [(h.workers worker hworker).2.1 hidle]
    rfl

/-! ### What the log says -/

/-- The log is its lines, each on a line of its own. -/
def Logged (floats : FloatText F) (limit : Nat) (s : State F) : Prop :=
  s.log = (s.lines.map fun line => write floats (line.record.payload line.requestId)).flatMap (· ++ [point '\n']) ∧
    ∀ line ∈ s.lines, dumps floats limit (line.record.payload line.requestId) =
      some (write floats (line.record.payload line.requestId))

theorem Logged.emit (h : Logged floats limit s) (origin : Option Nat) (current : Text) (record : LogRecord F) :
    Logged floats limit (s.emit floats limit origin current record) := by
  unfold State.emit
  split
  · exact h
  · rename_i text hdumps
    obtain ⟨hlog, hlines⟩ := h
    have htext : text = write floats (record.payload (requestIdOf current)) := by
      rw [dumps] at hdumps
      split_ifs at hdumps
      exact (Option.some.inj hdumps).symm
    refine ⟨?_, fun line hline => ?_⟩
    · show s.log ++ (text ++ [point '\n']) = _
      rw [hlog, htext]
      simp
    · obtain hold | hnew := List.mem_append.mp hline
      · exact hlines line hold
      · rw [List.mem_singleton.mp hnew, ← htext]
        exact hdumps

theorem Logged.step (h : Logged floats limit s) (event : Event F) : Logged floats limit (step floats limit s event) := by
  cases event with
  | requestLogs number record => exact h.emit _ _ record
  | workerLogs number record =>
    rw [RequestIds.step]
    split
    · exact h.emit _ _ record
    · exact h
  | taskPrerun number message fresh =>
    rw [RequestIds.step]
    split
    · split_ifs
      · exact h
      · exact h
    · exact h
  | workerPublishes number =>
    rw [RequestIds.step]
    split
    · exact h
    · exact h
  | _ => exact h

theorem logged_final (floats : FloatText F) (limit : Nat) (run : List (Event F)) :
    Logged floats limit (final (step floats limit) {} run) :=
  final_of_step (fun _ event h => h.step event) ⟨rfl, by simp⟩ run

theorem newline_not_mem {text : Text} (h : Printable text) : point '\n' ∉ text := by
  intro hmem
  exact absurd (h _ hmem) (by decide)

/-- Lines without an end of line in them are what the log is split into. -/
theorem splitOn_lines {lines : List Text} (h : ∀ line ∈ lines, point '\n' ∉ line) :
    (lines.flatMap (· ++ [point '\n'])).splitOn (point '\n') = lines ++ [[]] := by
  induction lines with
  | nil => rfl
  | cons line lines ih =>
    have hline := h line List.mem_cons_self
    rw [List.flatMap_cons, List.append_assoc, List.singleton_append, List.splitOn_append_cons_self_of_not_mem hline,
      ih fun other hother => h other (List.mem_cons_of_mem _ hother), List.cons_append]

/-- Whatever the texts of the records are: the log has a line for each record that was written, in their order, and what is
read of it is the record, with its own message and its own id. -/
theorem log_reads_back (floats : FloatText F) (limit : Nat) (hfloats : ∀ value, Printable (floats.repr value))
    (run : List (Event F)) :
    (final (step floats limit) {} run).log.splitOn (point '\n') =
      ((final (step floats limit) {} run).lines.map fun line => write floats (line.record.payload line.requestId)) ++ [[]] ∧
    ∀ line ∈ (final (step floats limit) {} run).lines,
      fieldOf (points "message") (line.record.payload line.requestId) = some (.str line.record.message) ∧
      fieldOf (points "request_id") (line.record.payload line.requestId) = some (.str line.requestId) ∧
      (line.record.IsLegible floats →
        read floats limit (write floats (line.record.payload line.requestId)) = .ok (line.record.payload line.requestId)) := by
  obtain ⟨hlog, hdumps⟩ := logged_final floats limit run
  refine ⟨?_, fun line hline => ⟨fieldOf_message, fieldOf_requestId, fun hlegible => ?_⟩⟩
  · rw [hlog]
    refine splitOn_lines fun text htext => ?_
    obtain ⟨line, -, rfl⟩ := List.mem_map.mp htext
    exact newline_not_mem (printable_write hfloats _)
  · have hsafe := ((traced_final floats limit run).lines line hline).1
    have hfits := hdumps line hline
    rw [dumps] at hfits
    split_ifs at hfits with hlimits
    exact read_write (isReadable_payload hlegible hsafe) hlimits.2

/-- Floats that are some and a half. -/
def halves : FloatText Nat where
  repr n := writeNat n ++ points ".5"
  parse word := digitsValue (word.takeWhile fun c => decide (IsDigit c))

theorem printable_halves (n : Nat) : Printable (halves.repr n) :=
  printable_append.mpr ⟨printable_writeInt (Int.ofNat n), printable_points (by decide)⟩

def forgedRecord : LogRecord Nat :=
  ⟨points "now", points "INFO", points "apps", points "a\n\x7b\"request_id\": \"web-2\"\x7d",
    [(points "duration_ms", .float 3), (points "request_id", .str (points "web-2"))], none⟩

/-- A request logs what looks like two lines. -/
def forged : List (Event Nat) :=
  [.request (some (points "web-1")) ⟨NO_REQUEST, isSafe_noRequest⟩, .requestLogs 0 forgedRecord]

theorem isLegible_forgedRecord : forgedRecord.IsLegible halves where
  timestamp := wellPaired_points _
  levelname := wellPaired_points _
  name := wellPaired_points _
  message := wellPaired_points _
  attributes := by
    have hrepr : halves.repr 3 = [point '3', point '.', point '5'] := by rfl
    have hduration : halves.Spells 3 := by
      refine ⟨by rfl, .inr ⟨fun c hc => ?_, [point '.', point '5'], by rfl, by simp, by rfl⟩⟩
      rw [hrepr] at hc
      simp only [List.mem_cons, List.not_mem_nil, or_false] at hc
      obtain rfl | rfl | rfl := hc <;> decide
    refine List.forall_mem_cons.mpr ⟨⟨wellPaired_points _, hduration⟩, List.forall_mem_cons.mpr ⟨?_, ?_⟩⟩
    · exact ⟨wellPaired_points _, wellPaired_points _⟩
    · exact fun field h => absurd h List.not_mem_nil
  exception exception h := by cases h

theorem log_reads_back_forged : (final (step halves 10) {} forged).log.splitOn (point '\n') =
      ((final (step halves 10) {} forged).lines.map fun line => write halves (line.record.payload line.requestId)) ++ [[]] ∧
    ∀ line ∈ (final (step halves 10) {} forged).lines,
      read halves 10 (write halves (line.record.payload line.requestId)) = .ok (line.record.payload line.requestId) := by
  obtain ⟨hlog, hlines⟩ := log_reads_back halves 10 printable_halves forged
  have hrecords : (final (step halves 10) {} forged).lines.map Line.record = [forgedRecord] := by rfl
  refine ⟨hlog, fun line hline => (hlines line hline).2.2 ?_⟩
  have hrecord : line.record ∈ [forgedRecord] := hrecords ▸ List.mem_map_of_mem hline
  rw [List.mem_singleton.mp hrecord]
  exact isLegible_forgedRecord

end EPlatform.RequestIds
