import EPlatform.Session.Status

/-!
# Late responses never rewrite the banner

A ticket is silent once the epoch has moved past its own, and from the start where it was begun while an operation was
pending. Both last, so what a run says of a ticket is read off the epochs and the pending operation along it.
-/

namespace EPlatform.SessionStatus

open Runs

variable {window : Bool} {s : Session}

/-! ### Runs of calls -/

def Call.isBegin : Call → Bool
  | .begin _ => true
  | _ => false

/-- How many tickets have been asked for. -/
def begun (calls : List Call) : Nat := calls.countP Call.isBegin

/-- The ticket `n` is the one that is returned after `earlier`. -/
structure Begun (calls : List Call) (n : Nat) (earlier : List Call) (intent : Option Intent) (later : List Call) :
    Prop where
  split : calls = earlier ++ .begin intent :: later
  number : begun earlier = n

/-- The login or logout with the ticket `n` is in progress: it has not been finished, and none has been begun since. -/
def InProgress (calls : List Call) (n : Nat) : Prop :=
  ∃ earlier intent later, Begun calls n earlier (some intent) later ∧ .finish n ∉ later ∧
    ∀ intent, .begin (some intent) ∉ later

/-- A login or logout has been begun which the ticket `n` was begun before, or while it was in progress. -/
inductive Outrun (calls : List Call) (n : Nat) : Prop
  | before {earlier later : List Call} {intent : Intent} : calls = earlier ++ .begin (some intent) :: later →
      n < begun earlier → Outrun calls n
  | during {earlier later : List Call} {intent : Option Intent} {m : Nat} : Begun calls n earlier intent later →
      InProgress (earlier ++ [.begin intent]) m → Outrun calls n

/-- The call turns the banner to `ended`. -/
def Ends (window : Bool) (earlier : List Call) (call : Call) (detail : String) : Prop :=
  (after window earlier).store.snapshot ≠ .ended detail ∧
    (after window (earlier ++ [call])).store.snapshot = .ended detail

theorem after_append (calls later : List Call) :
    after window (calls ++ later) = final (perform window) (after window calls) later := final_append _ _ _

theorem after_concat (calls : List Call) (call : Call) :
    after window (calls ++ [call]) = perform window (after window calls) call := by
  rw [after_append, final_cons, final_nil]

theorem after_split (earlier : List Call) (call : Call) (later : List Call) :
    after window (earlier ++ call :: later) = final (perform window) (perform window (after window earlier) call) later := by
  rw [after_append, final_cons]

theorem length_tickets (window : Bool) (calls : List Call) : (after window calls).tickets.length = begun calls := by
  induction calls using List.reverseRecOn with
  | nil => rfl
  | append_singleton calls call ih =>
    rw [after_concat, begun, List.countP_append, ← begun, ← ih]
    cases call with
    | begin intent => rw [perform, List.length_append]; rfl
    | finish _ => rfl
    | confirm _ => rfl
    | authenticationRequired _ _ => rfl

theorem exists_begun {calls : List Call} {n : Nat} (h : n < begun calls) :
    ∃ earlier intent later, Begun calls n earlier intent later := by
  induction calls using List.reverseRecOn with
  | nil => exact absurd h (Nat.not_lt_zero n)
  | append_singleton calls call ih =>
    by_cases hearlier : n < begun calls
    · obtain ⟨earlier, intent, later, hsplit, hnumber⟩ := ih hearlier
      exact ⟨earlier, intent, later ++ [call], by rw [hsplit, List.append_assoc, List.cons_append], hnumber⟩
    · rw [begun, List.countP_append, ← begun] at h
      cases call with
      | begin intent =>
        have hlast : [Call.begin intent].countP Call.isBegin = 1 := rfl
        exact ⟨calls, intent, [], rfl, by omega⟩
      | _ => exact absurd h hearlier

theorem length_le_perform (s : Session) (call : Call) : s.tickets.length ≤ (perform window s call).tickets.length := by
  cases call with
  | begin intent =>
    rw [perform, List.length_append]
    exact Nat.le_add_right _ _
  | finish _ => exact Nat.le_refl _
  | confirm _ => exact Nat.le_refl _
  | authenticationRequired _ _ => exact Nat.le_refl _

theorem ticket_final {n : Nat} (h : n < s.tickets.length) (calls : List Call) :
    (final (perform window) s calls).ticket n = s.ticket n := by
  induction calls generalizing s with
  | nil => rfl
  | cons call calls ih =>
    rw [final_cons, ih (Nat.lt_of_lt_of_le h (length_le_perform s call)), ticket_perform h]

/-- The ticket a number stands for is the one its `begin` returned. -/
theorem ticket_of_begun {calls : List Call} {n : Nat} {earlier : List Call} {intent : Option Intent} {later : List Call}
    (h : Begun calls n earlier intent later) :
    (after window calls).ticket n = ((after window earlier).store.begin window intent).2 := by
  have hnumber : n = (after window earlier).tickets.length := by rw [length_tickets, h.number]
  rw [h.split, after_split, hnumber, ticket_final, ticket_begin]
  rw [perform, List.length_append]
  exact Nat.lt_succ_self _

/-! ### What holds along every run -/

/-- How the tickets stand to the counters. -/
structure Invariant (window : Bool) (s : Session) : Prop where
  hasWindow : ∀ {n ticket}, s.ticket n = some ticket → window = true
  sequence : window = true → s.store.sequence = s.tickets.length
  ticketSequence : ∀ {n ticket}, s.ticket n = some ticket → ticket.sequence = n + 1
  ticketEpoch : ∀ {n ticket}, s.ticket n = some ticket → ticket.epoch ≤ s.store.epoch
  lastObservation : s.store.lastObservation ≤ s.store.sequence
  operation : window = false → s.store.operation = none

theorem begin_noWindow (s : Store) (intent : Option Intent) : s.begin false intent = (s, none) := if_pos rfl

theorem begin_plain (s : Store) : s.begin true none =
    ({ s with sequence := s.sequence + 1 },
      some ⟨s.epoch, s.sequence + 1, s.snapshot = .confirmed, s.operation = none⟩) := by
  rw [Store.begin, if_neg (by decide)]

theorem begin_intent (s : Store) (intent : Intent) : s.begin true (some intent) =
    ({ snapshot := .unknown, epoch := s.epoch + 1, sequence := s.sequence + 1, lastObservation := s.sequence + 1,
       operation := some (s.sequence + 1) }, some ⟨s.epoch + 1, s.sequence + 1, false, false⟩) := by
  rw [Store.begin, if_neg (by decide)]
  rfl

theorem epoch_le_begin (s : Store) (intent : Option Intent) : s.epoch ≤ (s.begin window intent).1.epoch := by
  cases window with
  | false => rw [begin_noWindow]
  | true =>
    cases intent with
    | none => rw [begin_plain]
    | some intent =>
      rw [begin_intent]
      exact Nat.le_succ _

theorem epoch_le_perform (s : Session) (call : Call) : s.store.epoch ≤ (perform window s call).store.epoch := by
  rcases call_cases call with ⟨intent, rfl⟩ | ⟨n, rfl⟩ | ⟨n, hn⟩
  · exact epoch_le_begin s.store intent
  · rcases perform_finish s n with hsame | ⟨_, _, _, hperform⟩
    · rw [hsame]
    · rw [hperform]
  · rcases perform_observation s hn with hsame | ⟨_, _, _, _, _, epoch, hepoch, hperform⟩
    · rw [hsame]
    · rw [hperform]
      exact hepoch

theorem epoch_le_final (s : Session) (calls : List Call) :
    s.store.epoch ≤ (final (perform window) s calls).store.epoch :=
  final_of_step (I := fun s' => s.store.epoch ≤ s'.store.epoch)
    (fun s' call h => Nat.le_trans h (epoch_le_perform s' call)) (Nat.le_refl _) calls

theorem ticket_of_begin {intent : Option Intent} {n : Nat} {ticket : Ticket}
    (h : (perform window s (.begin intent)).ticket n = some ticket) :
    s.ticket n = some ticket ∨ n = s.tickets.length ∧ (s.store.begin window intent).2 = some ticket := by
  by_cases hlt : n < s.tickets.length
  · exact .inl (ticket_perform hlt (.begin intent) ▸ h)
  · have hle : n < s.tickets.length + 1 := by
      have hlength := lt_of_ticket h
      rwa [perform, List.length_append] at hlength
    have hlast : n = s.tickets.length := by omega
    rw [hlast, ticket_begin] at h
    exact .inr ⟨hlast, h⟩

theorem invariant_begin (hs : Invariant window s) (intent : Option Intent) :
    Invariant window (perform window s (.begin intent)) := by
  cases window with
  | false =>
    have hticket : ∀ {n ticket}, (perform false s (.begin intent)).ticket n = some ticket → s.ticket n = some ticket := by
      intro n ticket h
      rcases ticket_of_begin h with hold | ⟨-, hnew⟩
      · exact hold
      · rw [begin_noWindow] at hnew
        cases hnew
    have hstore : (perform false s (.begin intent)).store = s.store := by rw [perform, begin_noWindow]
    refine ⟨fun h => hs.hasWindow (hticket h), fun h => absurd h Bool.false_ne_true,
      fun h => hs.ticketSequence (hticket h), ?_, ?_, ?_⟩
    · intro n ticket h
      rw [hstore]
      exact hs.ticketEpoch (hticket h)
    · rw [hstore]
      exact hs.lastObservation
    · rw [hstore]
      exact hs.operation
  | true =>
    have hnew : (s.store.begin true intent).1.sequence = s.store.sequence + 1 ∧
        (s.store.begin true intent).1.lastObservation ≤ s.store.sequence + 1 ∧
        ∃ confirmed observable, (s.store.begin true intent).2 =
          some ⟨(s.store.begin true intent).1.epoch, s.store.sequence + 1, confirmed, observable⟩ := by
      cases intent with
      | none =>
        rw [begin_plain]
        exact ⟨rfl, Nat.le_succ_of_le hs.lastObservation, _, _, rfl⟩
      | some intent =>
        rw [begin_intent]
        exact ⟨rfl, Nat.le_refl _, _, _, rfl⟩
    obtain ⟨hsequence, hlast, confirmed, observable, hticket⟩ := hnew
    refine ⟨fun _ => rfl, fun _ => ?_, ?_, ?_, ?_, fun h => absurd h Bool.noConfusion⟩
    · rw [perform, hsequence, hs.sequence rfl, List.length_append]
      rfl
    · intro n ticket h
      rcases ticket_of_begin h with hold | ⟨rfl, hreturned⟩
      · exact hs.ticketSequence hold
      · rw [hticket] at hreturned
        cases hreturned
        rw [hs.sequence rfl]
    · intro n ticket h
      rcases ticket_of_begin h with hold | ⟨rfl, hreturned⟩
      · exact Nat.le_trans (hs.ticketEpoch hold) (epoch_le_begin s.store intent)
      · rw [hticket] at hreturned
        cases hreturned
        exact Nat.le_refl _
    · rw [perform, hsequence]
      exact hlast

theorem invariant_observation (hs : Invariant window s) {call : Call} {n : Nat} (h : call.observes = some n) :
    Invariant window (perform window s call) := by
  rcases perform_observation s h with hsame | ⟨ticket, hticket, hcurrent, -, snapshot, epoch, hepoch, hperform⟩
  · rwa [hsame]
  · rw [hperform]
    refine ⟨hs.hasWindow, hs.sequence, hs.ticketSequence, fun h => Nat.le_trans (hs.ticketEpoch h) hepoch, ?_, hs.operation⟩
    rw [hs.ticketSequence hticket, hs.sequence hcurrent.1]
    exact lt_of_ticket hticket

theorem invariant_perform (hs : Invariant window s) (call : Call) : Invariant window (perform window s call) := by
  rcases call_cases call with ⟨intent, rfl⟩ | ⟨n, rfl⟩ | ⟨n, hn⟩
  · exact invariant_begin hs intent
  · rcases perform_finish s n with hsame | ⟨_, _, _, hperform⟩
    · rwa [hsame]
    · rw [hperform]
      exact ⟨hs.hasWindow, hs.sequence, hs.ticketSequence, hs.ticketEpoch, hs.lastObservation, fun _ => rfl⟩
  · exact invariant_observation hs hn

theorem invariant_after (window : Bool) (calls : List Call) : Invariant window (after window calls) := by
  have hnone : ∀ n, ({} : Session).ticket n = none := fun n => rfl
  refine final_of_step (I := Invariant window) (fun _ call hs => invariant_perform hs call) ?_ calls
  exact ⟨fun h => absurd h (by simp [hnone]), fun _ => rfl, fun h => absurd h (by simp [hnone]),
    fun h => absurd h (by simp [hnone]), Nat.le_refl 0, fun _ => rfl⟩

/-! ### Silent tickets -/

/-- No observation with the ticket `n` is accepted any more. -/
def Silent (s : Session) (n : Nat) : Prop :=
  ∀ ticket, s.ticket n = some ticket → ticket.observable = false ∨ ticket.epoch < s.store.epoch

theorem not_current_of_silent {n : Nat} {ticket : Ticket} (h : Silent s n) (hticket : s.ticket n = some ticket) :
    ¬ s.store.current window ticket := by
  intro hcurrent
  rcases h ticket hticket with hobservable | hepoch
  · exact absurd hcurrent.2.1 (by rw [hobservable]; decide)
  · exact absurd hcurrent.2.2.1 (Nat.ne_of_lt hepoch)

theorem snapshot_finish (s : Session) (n : Nat) :
    (perform window s (.finish n)).store.snapshot = s.store.snapshot := by
  rcases perform_finish s n with hsame | ⟨_, _, _, hperform⟩
  · rw [hsame]
  · rw [hperform]

/-- A silent ticket does not change the snapshot. -/
theorem snapshot_of_silent {call : Call} {n : Nat} (huses : call.uses = some n) (h : Silent s n) :
    (perform window s call).store.snapshot = s.store.snapshot := by
  rcases call_cases call with ⟨intent, rfl⟩ | ⟨m, rfl⟩ | ⟨m, hm⟩
  · cases huses
  · exact snapshot_finish s m
  · have hsame : m = n := Option.some.inj ((uses_of_observes hm).symm.trans huses)
    rcases perform_observation s hm with hignored | ⟨ticket, hticket, hcurrent, _⟩
    · rw [hignored]
    · exact absurd hcurrent (not_current_of_silent (hsame ▸ h) hticket)

/-- What was begun before a login or logout is of an earlier epoch. -/
theorem silent_of_before {calls earlier later : List Call} {intent : Intent} {n : Nat}
    (hsplit : calls = earlier ++ .begin (some intent) :: later) (hn : n < begun earlier) :
    Silent (after window calls) n := by
  intro ticket hticket
  right
  have hs := invariant_after window earlier
  have hcalls : after window calls =
      final (perform window) (after window earlier) (.begin (some intent) :: later) := by rw [hsplit, after_append]
  rw [← length_tickets window] at hn
  rw [hcalls, ticket_final hn] at hticket
  obtain rfl : window = true := hs.hasWindow hticket
  calc ticket.epoch ≤ (after true earlier).store.epoch := hs.ticketEpoch hticket
    _ < (perform true (after true earlier) (.begin (some intent))).store.epoch := by
      rw [perform, begin_intent]
      exact Nat.lt_succ_self _
    _ ≤ (after true calls).store.epoch := by
      rw [hcalls, final_cons]
      exact epoch_le_final _ later

/-! ### Pending operations -/

/-- The ticket `n` is that of the pending operation, and can still end it. -/
structure Pending (s : Session) (n : Nat) : Prop where
  operation : s.store.operation = some (n + 1)
  ticket : ∃ ticket, s.ticket n = some ticket ∧ ticket.epoch = s.store.epoch

theorem observation_of_operation {call : Call} {n m : Nat} (h : call.observes = some n)
    (hoperation : s.store.operation = some m) : perform window s call = s := by
  rcases perform_observation s h with hsame | ⟨_, _, hcurrent, _⟩
  · exact hsame
  · exact absurd (hoperation.symm.trans hcurrent.2.2.2.2) (Option.some_ne_none m)

/-- An operation stays pending until it is finished or another begins. -/
theorem pending_perform (hs : Invariant window s) {n : Nat} (h : Pending s n) {call : Call} (hfinish : call ≠ .finish n)
    (hbegin : ∀ intent, call ≠ .begin (some intent)) : Pending (perform window s call) n := by
  cases call with
  | begin intent =>
    cases intent with
    | some intent => exact absurd rfl (hbegin intent)
    | none =>
      obtain ⟨ticket, hticket, hepoch⟩ := h.ticket
      obtain rfl : window = true := hs.hasWindow hticket
      refine ⟨?_, ticket, (ticket_perform (lt_of_ticket hticket) _).trans hticket, ?_⟩
      · rw [perform, begin_plain]
        exact h.operation
      · rw [perform, begin_plain]
        exact hepoch
  | finish m =>
    rcases perform_finish s m with hsame | ⟨ticket, hticket, hoperation, _⟩
    · rwa [hsame]
    · rw [h.operation, hs.ticketSequence hticket] at hoperation
      have hm : n = m := by injection hoperation with hsucc; exact Nat.succ.inj hsucc
      exact absurd (hm ▸ rfl) hfinish
  | confirm m => rwa [observation_of_operation rfl h.operation]
  | authenticationRequired m _ => rwa [observation_of_operation rfl h.operation]

theorem pending_final (hs : Invariant window s) {n : Nat} (h : Pending s n) {calls : List Call}
    (hfinish : .finish n ∉ calls) (hbegin : ∀ intent, .begin (some intent) ∉ calls) :
    Pending (final (perform window) s calls) n := by
  induction calls generalizing s with
  | nil => exact h
  | cons call calls ih =>
    refine ih (invariant_perform hs call) (pending_perform hs h ?_ ?_) ?_ ?_
    · exact fun heq => hfinish (heq ▸ List.mem_cons_self)
    · exact fun intent heq => hbegin intent (heq ▸ List.mem_cons_self)
    · exact fun hmem => hfinish (List.mem_cons_of_mem _ hmem)
    · exact fun intent hmem => hbegin intent (List.mem_cons_of_mem _ hmem)

theorem pending_begin (hs : Invariant true s) (intent : Intent) :
    Pending (perform true s (.begin (some intent))) s.tickets.length := by
  refine ⟨?_, _, ticket_begin _ |>.trans (congrArg Prod.snd (begin_intent _ _)), ?_⟩
  · rw [perform, begin_intent, ← hs.sequence rfl]
  · rw [perform, begin_intent]

/-- While a login or logout is in progress its operation is pending. -/
theorem pending_of_inProgress {calls : List Call} {n : Nat} (h : InProgress calls n) : Pending (after true calls) n := by
  obtain ⟨earlier, intent, later, hbegun, hfinish, hbegin⟩ := h
  have hs := invariant_after true earlier
  rw [hbegun.split, after_split, ← hbegun.number, ← length_tickets true]
  rw [← hbegun.number, ← length_tickets true] at hfinish
  exact pending_final (invariant_perform hs _) (pending_begin hs intent) hfinish hbegin

/-- What is begun while an operation is pending is not observable. -/
theorem silent_of_during {calls earlier later : List Call} {intent : Option Intent} {n m : Nat}
    (hbegun : Begun calls n earlier intent later) (h : InProgress (earlier ++ [.begin intent]) m) :
    Silent (after window calls) n := by
  intro ticket hticket
  left
  obtain rfl : window = true := (invariant_after window calls).hasWindow hticket
  have hpending := (pending_of_inProgress h).operation
  rw [ticket_of_begun hbegun] at hticket
  rw [after_concat, perform] at hpending
  cases intent with
  | none =>
    rw [begin_plain] at hticket hpending
    cases hticket
    exact decide_eq_false fun hnone => Option.some_ne_none _ (hpending.symm.trans hnone)
  | some intent =>
    rw [begin_intent] at hticket
    cases hticket
    rfl

theorem silent_of_outrun {calls : List Call} {n : Nat} (h : Outrun calls n) : Silent (after window calls) n := by
  cases h with
  | before hsplit hn => exact silent_of_before hsplit hn
  | during hbegun hprogress => exact silent_of_during hbegun hprogress

/-- Nothing but a login or logout makes an operation pending. -/
theorem operation_perform (h : s.store.operation = none) {call : Call} (hbegin : ∀ intent, call ≠ .begin (some intent)) :
    (perform window s call).store.operation = none := by
  rcases call_cases call with ⟨intent, rfl⟩ | ⟨n, rfl⟩ | ⟨n, hn⟩
  · cases intent with
    | some intent => exact absurd rfl (hbegin intent)
    | none =>
      cases window with
      | false => rwa [perform, begin_noWindow]
      | true => rwa [perform, begin_plain]
  · rcases perform_finish s n with hsame | ⟨_, _, _, hperform⟩
    · rwa [hsame]
    · rw [hperform]
  · rcases perform_observation s hn with hsame | ⟨_, _, _, _, _, _, _, hperform⟩
    · rwa [hsame]
    · rwa [hperform]

theorem operation_final (h : s.store.operation = none) {calls : List Call}
    (hbegin : ∀ intent, .begin (some intent) ∉ calls) : (final (perform window) s calls).store.operation = none := by
  induction calls generalizing s with
  | nil => exact h
  | cons call calls ih =>
    refine ih (operation_perform h ?_) ?_
    · exact fun intent heq => hbegin intent (heq ▸ List.mem_cons_self)
    · exact fun intent hmem => hbegin intent (List.mem_cons_of_mem _ hmem)

theorem operation_finish (hs : Invariant true s) {n : Nat} (h : Pending s n) :
    (perform true s (.finish n)).store.operation = none := by
  obtain ⟨ticket, hticket, hepoch⟩ := h.ticket
  have hpending : true = true ∧ ticket.epoch = s.store.epoch ∧ s.store.operation = some ticket.sequence :=
    ⟨rfl, hepoch, by rw [h.operation, hs.ticketSequence hticket]⟩
  rw [perform, hticket, Store.finish, if_pos hpending]

/-- The latest login or logout has been finished. -/
theorem operation_of_finished {calls earlier later : List Call} {intent : Intent} {n : Nat}
    (hbegun : Begun calls n earlier (some intent) later) (hbegin : ∀ intent, .begin (some intent) ∉ later)
    (hfinish : .finish n ∈ later) : (after window calls).store.operation = none := by
  cases window with
  | false => exact (invariant_after false calls).operation rfl
  | true =>
    obtain ⟨during, rest, rfl, hduring⟩ := List.eq_append_cons_of_mem hfinish
    have hprogress : InProgress (earlier ++ .begin (some intent) :: during) n :=
      ⟨earlier, intent, during, ⟨rfl, hbegun.number⟩, hduring, fun intent hmem =>
        hbegin intent (List.mem_append_left _ hmem)⟩
    have hcalls : calls = (earlier ++ .begin (some intent) :: during) ++ .finish n :: rest := by
      rw [hbegun.split, List.append_assoc, List.cons_append]
    rw [hcalls, after_split]
    apply operation_final (operation_finish (invariant_after true _) (pending_of_inProgress hprogress))
    exact fun intent hmem => hbegin intent (List.mem_append_right _ (List.mem_cons_of_mem _ hmem))

/-- However the latest login or logout ends, nothing is pending once it has settled. -/
theorem operation_of_settled {path : String} {intent : Intent} {outcome : Outcome} {calls earlier later : List Call}
    {n : Nat} (hintent : intentOf path = some intent) (hbegun : Begun calls n earlier (intentOf path) later)
    (hbegin : ∀ intent, .begin (some intent) ∉ later) (hsettled : (settle path n outcome).Sublist later) :
    (after window calls).store.operation = none := by
  rw [hintent] at hbegun
  exact operation_of_finished hbegun hbegin (hsettled.subset (finish_mem_settle path n outcome))

/-! ### Observations in order -/

theorem lastObservation_le_perform (hs : Invariant window s) (call : Call) :
    s.store.lastObservation ≤ (perform window s call).store.lastObservation := by
  rcases call_cases call with ⟨intent, rfl⟩ | ⟨n, rfl⟩ | ⟨n, hn⟩
  · cases window with
    | false => rw [perform, begin_noWindow]
    | true =>
      cases intent with
      | none => rw [perform, begin_plain]
      | some intent =>
        rw [perform, begin_intent]
        exact Nat.le_succ_of_le hs.lastObservation
  · rcases perform_finish s n with hsame | ⟨_, _, _, hperform⟩
    · rw [hsame]
    · rw [hperform]
  · rcases perform_observation s hn with hsame | ⟨_, _, hcurrent, _, _, _, _, hperform⟩
    · rw [hsame]
    · rw [hperform]
      exact hcurrent.2.2.2.1

theorem lastObservation_le_final (hs : Invariant window s) (calls : List Call) :
    s.store.lastObservation ≤ (final (perform window) s calls).store.lastObservation := by
  induction calls generalizing s with
  | nil => exact Nat.le_refl _
  | cons call calls ih => exact Nat.le_trans (lastObservation_le_perform hs call) (ih (invariant_perform hs call))

theorem lastObservation_of_accepts {ticket : Ticket} {call : Call} (h : Accepts window s ticket call) :
    (perform window s call).store.lastObservation = ticket.sequence := by
  cases call with
  | begin intent => cases h
  | finish n => cases h
  | confirm n => rw [perform, h.1, Store.confirm, if_pos h.2]
  | authenticationRequired n detail => rw [perform, h.1, Store.authenticationRequired, if_pos h.2]

/-- An observation is ignored where one with a larger number has been accepted. -/
theorem ignored_of_accepted {earlier later : List Call} {accepted call : Call} {ticket late : Ticket} {n : Nat}
    (haccepts : Accepts window (after window earlier) ticket accepted) (hcall : call.observes = some n)
    (hlate : (after window (earlier ++ accepted :: later)).ticket n = some late)
    (hlt : late.sequence < ticket.sequence) :
    perform window (after window (earlier ++ accepted :: later)) call = after window (earlier ++ accepted :: later) := by
  have hs := invariant_after window earlier
  have hlast : ticket.sequence ≤ (after window (earlier ++ accepted :: later)).store.lastObservation := by
    rw [after_split, ← lastObservation_of_accepts haccepts]
    exact lastObservation_le_final (invariant_perform hs accepted) later
  rcases perform_observation _ hcall with hsame | ⟨late', hticket, hcurrent, _⟩
  · exact hsame
  · cases hlate.symm.trans hticket
    exact absurd (Nat.le_trans hlast hcurrent.2.2.2.1) (Nat.not_le_of_lt hlt)

/-! ### The end of a session -/

/-- Only an accepted observation turns the banner to `ended`. -/
theorem ends_cases {detail : String} {call : Call} (hbefore : s.store.snapshot ≠ .ended detail)
    (hafter : (perform window s call).store.snapshot = .ended detail) :
    ∃ n ticket, call = .authenticationRequired n detail ∧ s.ticket n = some ticket ∧ s.store.mayEnd window ticket ∧
      (perform window s call).store.epoch = s.store.epoch + 1 := by
  cases call with
  | begin intent =>
    cases window with
    | false =>
      rw [perform, begin_noWindow] at hafter
      exact absurd hafter hbefore
    | true =>
      cases intent with
      | none =>
        rw [perform, begin_plain] at hafter
        exact absurd hafter hbefore
      | some intent =>
        rw [perform, begin_intent] at hafter
        cases hafter
  | finish n => exact absurd ((snapshot_finish s n).symm.trans hafter) hbefore
  | confirm n =>
    cases hticket : s.ticket n with
    | none =>
      rw [perform, hticket, Store.confirm] at hafter
      exact absurd hafter hbefore
    | some ticket =>
      rw [perform, hticket, Store.confirm] at hafter
      split at hafter
      · cases hafter
      · exact absurd hafter hbefore
  | authenticationRequired n detail' =>
    cases hticket : s.ticket n with
    | none =>
      rw [perform, hticket, Store.authenticationRequired] at hafter
      exact absurd hafter hbefore
    | some ticket =>
      by_cases hends : s.store.mayEnd window ticket
      · rw [perform, hticket, Store.authenticationRequired, if_pos hends] at hafter ⊢
        cases hafter
        exact ⟨n, ticket, rfl, hticket, hends, rfl⟩
      · rw [perform, hticket, Store.authenticationRequired, if_neg hends] at hafter
        exact absurd hafter hbefore

/-- A ticket that is accepted was begun in the present epoch, and a confirmed one while the banner was `confirmed`. -/
theorem begun_of_mayEnd {calls : List Call} {n : Nat} {ticket : Ticket}
    (hticket : (after window calls).ticket n = some ticket) (h : (after window calls).store.mayEnd window ticket) :
    ∃ earlier later, Begun calls n earlier none later ∧ (after window earlier).store.snapshot = .confirmed ∧
      (after window earlier).store.epoch = (after window calls).store.epoch := by
  have hn := lt_of_ticket hticket
  rw [length_tickets] at hn
  obtain ⟨earlier, intent, later, hbegun⟩ := exists_begun hn
  obtain rfl : window = true := h.1.1
  rw [ticket_of_begun hbegun] at hticket
  cases intent with
  | some intent =>
    rw [begin_intent] at hticket
    cases hticket
    exact absurd h.2.1 Bool.false_ne_true
  | none =>
    rw [begin_plain] at hticket
    cases hticket
    exact ⟨earlier, later, hbegun, of_decide_eq_true h.2.1, h.1.2.2.1⟩

/-- Where the banner turned to `ended`, the epoch moved past every ticket begun up to then. -/
theorem epoch_of_ends {calls earlier later : List Call} {call : Call} {detail : String}
    (hsplit : calls = earlier ++ call :: later) (h : Ends window earlier call detail) :
    (after window earlier).store.epoch < (after window calls).store.epoch := by
  have hends := h.2
  rw [after_concat] at hends
  obtain ⟨_, _, _, _, _, hepoch⟩ := ends_cases h.1 hends
  calc (after window earlier).store.epoch
      < (perform window (after window earlier) call).store.epoch := by
        rw [hepoch]
        exact Nat.lt_succ_self _
    _ ≤ (after window calls).store.epoch := by
        rw [hsplit, after_split]
        exact epoch_le_final _ later

/-- The banner turns to `ended` from `confirmed`, for a request begun while it was `confirmed` and since it last was
`ended`. -/
structure EndsRightly (window : Bool) (calls : List Call) (call : Call) (detail : String) : Prop where
  confirmed : (after window calls).store.snapshot = .confirmed
  ticket : ∃ n earlier later, call = .authenticationRequired n detail ∧ Begun calls n earlier none later ∧
    (after window earlier).store.snapshot = .confirmed ∧
    ∀ before ending since detail', calls = before ++ ending :: since → Ends window before ending detail' →
      before.length < earlier.length

theorem endsRightly_of_ends {calls : List Call} {call : Call} {detail : String} (h : Ends window calls call detail) :
    EndsRightly window calls call detail := by
  have hends := h.2
  rw [after_concat] at hends
  obtain ⟨n, ticket, hcall, hticket, hmayEnd, -⟩ := ends_cases h.1 hends
  obtain ⟨earlier, later, hbegun, hconfirmed, hepoch⟩ := begun_of_mayEnd hticket hmayEnd
  refine ⟨hmayEnd.2.2, n, earlier, later, hcall, hbegun, hconfirmed, ?_⟩
  intro before ending since detail' hsplit hended
  by_contra hlate
  obtain ⟨between, rfl⟩ : earlier <+: before := List.prefix_of_prefix_length_le
    ⟨_, hbegun.split.symm⟩ ⟨_, hsplit.symm⟩ (Nat.le_of_not_lt hlate)
  have hle : (after window earlier).store.epoch ≤ (after window (earlier ++ between)).store.epoch := by
    rw [after_append]
    exact epoch_le_final _ between
  have hlt := epoch_of_ends hsplit hended
  omega

/-- Late responses never rewrite the banner: a ticket that a login or logout has outrun does not change it, an
observation is ignored where a later one has been accepted, a session ends only as it should, and no operation outlives
the latest login or logout. -/
theorem late_responses_ignored (window : Bool) (calls : List Call) :
    (∀ call n, call.uses = some n → Outrun calls n →
      (after window (calls ++ [call])).store.snapshot = (after window calls).store.snapshot) ∧
    (∀ earlier accepted later ticket call n late, calls = earlier ++ accepted :: later →
      Accepts window (after window earlier) ticket accepted → call.observes = some n →
      (after window calls).ticket n = some late → late.sequence < ticket.sequence →
        after window (calls ++ [call]) = after window calls) ∧
    (∀ call detail, Ends window calls call detail → EndsRightly window calls call detail) ∧
    (∀ n earlier intent later, Begun calls n earlier (some intent) later →
      (∀ intent, .begin (some intent) ∉ later) → .finish n ∈ later → (after window calls).store.operation = none) := by
  refine ⟨?_, ?_, fun call detail => endsRightly_of_ends, fun n earlier intent later => operation_of_finished⟩
  · intro call n huses hrun
    rw [after_concat]
    exact snapshot_of_silent huses (silent_of_outrun hrun)
  · intro earlier accepted later ticket call n late hsplit haccepts hcall hlate hlt
    subst hsplit
    rw [after_concat]
    exact ignored_of_accepted haccepts hcall hlate hlt

end EPlatform.SessionStatus
