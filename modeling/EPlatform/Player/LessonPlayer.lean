import EPlatform.Player.Heartbeat
import EPlatform.Runs.Run

/-!
# The player claims what was watched

The refs of `LessonPlayer` and what happens to them while it is mounted. Each event is one turn of the page's event loop.
What a run has claimed and what is left unreported add up to the time that was watched, and what is left stays so small
that no beat comes near the server's bound.
-/

namespace EPlatform.LessonPlayer

open Runs

/-- A beat that was sent, by `beaconProgress` if it is the last of the page. -/
structure Report where
  beat : Beat
  final : Bool

structure Player where
  position : ℚ := 0
  playing : Bool := false
  unreported : ℚ := 0
  lastSentPosition : Option Int := none
  ready : Bool := false
  rate : PlaybackRate := DEFAULT_PLAYBACK_RATE
  secondsSinceBeat : Nat := 0
  mounted : Bool := true
  sent : List Report := []

/-- What can happen. The controls are rendered when the stored position has been read and not before. -/
inductive Event
  | loaded (existing : Option Int)
  | restoreRate (stored : Option ℚ)
  | tick (currentTime : Option ℚ)
  | togglePlay
  | onPlay
  | onPause
  | seek (seconds : ℚ)
  | changeRate (next : PlaybackRate)
  | onHide
  | refused
  | unmount

namespace Player

def send (p : Player) (final : Bool) : Player :=
  if p.ready = false then p
  else
    let claimable : ℚ := ⌊p.unreported⌋
    let beat : Beat := ⟨p.position, claimable⟩
    if worthSending beat p.lastSentPosition = false then p
    else
      { p with
        unreported := p.unreported - claimable
        lastSentPosition := some (round beat.positionSeconds)
        sent := p.sent ++ [⟨beat, final⟩] }

/-- The ticker's callback. `currentTime` is that of the video element, where there is one. -/
def tick (p : Player) (currentTime : Option ℚ) : Player :=
  let position :=
    match currentTime with
    | none => if p.playing then p.position + p.rate.value else p.position
    | some currentTime => currentTime
  let p :=
    { p with
      unreported := p.unreported + watchedSince 1 p.playing p.rate.value
      position := position
      secondsSinceBeat := p.secondsSinceBeat + 1 }
  if BEAT_SECONDS ≤ p.secondsSinceBeat then { p with secondsSinceBeat := 0 }.send false else p

/-- Something a control does. -/
def control (p : Player) (act : Player → Player) : Player := if p.ready = false then p else act p

def perform (p : Player) (event : Event) : Player :=
  if p.mounted = false then p
  else
    match event with
    | .loaded none => { p with ready := true }
    | .loaded (some lastPositionSeconds) =>
      { p with position := lastPositionSeconds, lastSentPosition := some lastPositionSeconds, ready := true }
    | .restoreRate stored => { p with rate := readPlaybackRate stored }
    | .tick currentTime => p.tick currentTime
    | .togglePlay => p.control fun p => { p with playing := !p.playing }
    | .onPlay => p.control fun p => { p with playing := true }
    | .onPause => p.control fun p => { p with playing := false }
    | .seek seconds => p.control fun p => { p with position := seconds }
    | .changeRate next => p.control fun p => { p with rate := next }
    | .onHide => p.send true
    | .refused => { p with playing := false }
    | .unmount => { p.send true with mounted := false }

/-- What a run of events on a new player comes to. -/
def after (events : List Event) : Player := final perform {} events

/-- What is watched in an event: a tick while the player is playing is a second at its speed. -/
def watchedIn (p : Player) : Event → ℚ
  | .tick _ => if p.mounted ∧ p.playing then p.rate.value else 0
  | _ => 0

def claimed (p : Player) : ℚ := (p.sent.map fun report => report.beat.watchedDeltaSeconds).sum

variable {p : Player}

/-! ### One send -/

/-- A send either is declined, and then there is no whole second to claim, or claims every whole second. -/
theorem send_cases (p : Player) (final : Bool) :
    (p.send final = p ∧ (p.ready = true → p.unreported < 1)) ∨
      (p.ready = true ∧ p.send final =
        { p with
          unreported := Int.fract p.unreported
          lastSentPosition := some (round p.position)
          sent := p.sent ++ [⟨⟨p.position, ⌊p.unreported⌋⟩, final⟩] }) := by
  by_cases hready : p.ready = false
  · exact .inl ⟨if_pos hready, fun h => absurd (hready.symm.trans h) (by decide)⟩
  · by_cases hworth : worthSending ⟨p.position, ⌊p.unreported⌋⟩ p.lastSentPosition = false
    · refine .inl ⟨?_, fun _ => ?_⟩
      · unfold send
        rw [if_neg hready]
        exact if_pos hworth
      · by_contra hlarge
        have hpos : (0 : ℚ) < ⌊p.unreported⌋ := by
          exact_mod_cast Int.floor_pos.mpr (not_lt.mp hlarge)
        have hsends : worthSending ⟨p.position, ⌊p.unreported⌋⟩ p.lastSentPosition = true := worthSending_of_pos hpos _
        exact absurd (hworth.symm.trans hsends) (by decide)
    · refine .inr ⟨Bool.eq_true_of_not_eq_false hready, ?_⟩
      unfold send
      rw [if_neg hready]
      exact if_neg hworth

theorem claimed_send (p : Player) (final : Bool) :
    (p.send final).claimed + (p.send final).unreported = p.claimed + p.unreported := by
  rcases send_cases p final with ⟨hsame, -⟩ | ⟨-, hsent⟩
  · rw [hsame]
  · rw [hsent]
    simp only [claimed, List.map_append, List.sum_append, List.map_cons, List.map_nil, List.sum_cons, List.sum_nil]
    linarith [Int.floor_add_fract p.unreported]

@[simp] theorem secondsSinceBeat_send (p : Player) (final : Bool) :
    (p.send final).secondsSinceBeat = p.secondsSinceBeat := by
  rcases send_cases p final with ⟨hsame, -⟩ | ⟨-, hsent⟩
  · rw [hsame]
  · rw [hsent]

@[simp] theorem ready_send (p : Player) (final : Bool) : (p.send final).ready = p.ready := by
  rcases send_cases p final with ⟨hsame, -⟩ | ⟨-, hsent⟩
  · rw [hsame]
  · rw [hsent]

/-! ### One event -/

/-- Nothing is watched, claimed or held back, and nothing starts to play before the stored position has been read. -/
structure Quiet (p q : Player) : Prop where
  sent : q.sent = p.sent
  unreported : q.unreported = p.unreported
  secondsSinceBeat : q.secondsSinceBeat = p.secondsSinceBeat
  idle : q.ready = false → p.ready = false ∧ (p.playing = false → q.playing = false)

theorem quiet_refl (p : Player) : Quiet p p := ⟨rfl, rfl, rfl, fun h => ⟨h, id⟩⟩

theorem quiet_control {act : Player → Player} (hact : p.ready = true → Quiet p (act p)) : Quiet p (p.control act) := by
  unfold control
  split
  · exact quiet_refl p
  · rename_i hready
    exact hact (Bool.eq_true_of_not_eq_false hready)

/-- An event is a tick, or a last send, or quiet. -/
theorem perform_cases (p : Player) (event : Event) :
    (∃ currentTime, event = .tick currentTime ∧ p.mounted = true ∧ p.perform event = p.tick currentTime) ∨
      p.watchedIn event = 0 ∧
        (Quiet p (p.perform event) ∨ ∃ mounted, p.perform event = { p.send true with mounted := mounted }) := by
  unfold perform
  split
  · rename_i hmounted
    refine .inr ⟨?_, .inl (quiet_refl p)⟩
    cases event with
    | tick currentTime => exact if_neg (by rw [hmounted]; simp)
    | _ => rfl
  rename_i hmounted
  have hready : ∀ q : Player, p.ready = true → q.ready = p.ready →
      q.ready = false → p.ready = false ∧ (p.playing = false → q.playing = false) :=
    fun q htrue heq hfalse => absurd (hfalse.symm.trans (heq.trans htrue)) (by decide)
  cases event with
  | loaded existing => cases existing <;> exact .inr ⟨rfl, .inl ⟨rfl, rfl, rfl, nofun⟩⟩
  | restoreRate stored => exact .inr ⟨rfl, .inl ⟨rfl, rfl, rfl, fun h => ⟨h, id⟩⟩⟩
  | tick currentTime => exact .inl ⟨currentTime, rfl, Bool.eq_true_of_not_eq_false hmounted, rfl⟩
  | togglePlay => exact .inr ⟨rfl, .inl (quiet_control fun h => ⟨rfl, rfl, rfl, hready _ h rfl⟩)⟩
  | onPlay => exact .inr ⟨rfl, .inl (quiet_control fun h => ⟨rfl, rfl, rfl, hready _ h rfl⟩)⟩
  | onPause => exact .inr ⟨rfl, .inl (quiet_control fun h => ⟨rfl, rfl, rfl, hready _ h rfl⟩)⟩
  | seek seconds => exact .inr ⟨rfl, .inl (quiet_control fun h => ⟨rfl, rfl, rfl, hready _ h rfl⟩)⟩
  | changeRate next => exact .inr ⟨rfl, .inl (quiet_control fun h => ⟨rfl, rfl, rfl, hready _ h rfl⟩)⟩
  | onHide => exact .inr ⟨rfl, .inr ⟨(p.send true).mounted, rfl⟩⟩
  | refused => exact .inr ⟨rfl, .inl ⟨rfl, rfl, rfl, fun h => ⟨h, fun _ => rfl⟩⟩⟩
  | unmount => exact .inr ⟨rfl, .inr ⟨false, rfl⟩⟩

/-- A tick adds what was watched, and may send. -/
theorem tick_cases (p : Player) (currentTime : Option ℚ) : ∃ position,
    (p.secondsSinceBeat + 1 < BEAT_SECONDS ∧ p.tick currentTime =
      { p with
        unreported := p.unreported + if p.playing then p.rate.value else 0
        position := position
        secondsSinceBeat := p.secondsSinceBeat + 1 }) ∨
    (BEAT_SECONDS ≤ p.secondsSinceBeat + 1 ∧ p.tick currentTime =
      { p with
        unreported := p.unreported + if p.playing then p.rate.value else 0
        position := position
        secondsSinceBeat := 0 }.send false) := by
  rw [← watchedSince_one]
  unfold tick
  dsimp only
  split
  · rename_i hbeat
    exact ⟨_, .inr ⟨hbeat, rfl⟩⟩
  · rename_i hbeat
    exact ⟨_, .inl ⟨not_le.mp hbeat, rfl⟩⟩

/-! ### What was watched -/

theorem claimed_tick (p : Player) (currentTime : Option ℚ) :
    (p.tick currentTime).claimed + (p.tick currentTime).unreported =
      p.claimed + p.unreported + if p.playing then p.rate.value else 0 := by
  rw [add_assoc]
  obtain ⟨position, ⟨-, htick⟩ | ⟨-, htick⟩⟩ := tick_cases p currentTime
  · rw [htick]
    rfl
  · rw [htick]
    exact claimed_send _ false

/-- An event raises what is claimed and unreported together by what is watched in it. -/
theorem claimed_perform (p : Player) (event : Event) : (p.perform event).claimed + (p.perform event).unreported =
    p.claimed + p.unreported + p.watchedIn event := by
  rcases perform_cases p event with ⟨currentTime, rfl, hmounted, htick⟩ | ⟨hnothing, hquiet | ⟨mounted, hsend⟩⟩
  · have hwatched : p.watchedIn (.tick currentTime) = if p.playing then p.rate.value else 0 := by
      simp [watchedIn, hmounted]
    rw [htick, hwatched, claimed_tick]
  · rw [hnothing, add_zero, claimed, hquiet.sent, hquiet.unreported, claimed]
  · rw [hnothing, add_zero, hsend]
    exact claimed_send p true

/-! ### Remainders -/

/-- What the player has sent and holds back. Nothing is held or sent before the stored position has been read. -/
structure Sound (p : Player) : Prop where
  nonneg : 0 ≤ p.unreported
  idle : p.ready = false → p.unreported = 0 ∧ p.playing = false ∧ p.sent = []
  whole : ∀ report ∈ p.sent, ∃ n : Nat, report.beat.watchedDeltaSeconds = n ∧ n ≤ 23

/-- No more is left than a second and what fifteen ticks can add. -/
structure Invariant (p : Player) : Prop extends Sound p where
  bound : p.unreported < 1 + 3 / 2 * p.secondsSinceBeat
  cadence : p.secondsSinceBeat < BEAT_SECONDS

theorem sound_send (h : Sound p) (hsmall : p.unreported < 24) (final : Bool) :
    Sound (p.send final) ∧ (p.send final).unreported < 1 := by
  rcases send_cases p final with ⟨hsame, hdeclined⟩ | ⟨hready, hsent⟩
  · rw [hsame]
    refine ⟨h, ?_⟩
    by_cases hready : p.ready = true
    · exact hdeclined hready
    · rw [(h.idle (Bool.eq_false_of_not_eq_true hready)).1]
      exact one_pos
  · rw [hsent]
    refine ⟨⟨Int.fract_nonneg _, fun hidle => absurd (hidle.symm.trans hready) (by decide), ?_⟩, Int.fract_lt_one _⟩
    intro report hreport
    rcases List.mem_append.mp hreport with hold | hnew
    · exact h.whole report hold
    · obtain ⟨n, hn⟩ := Int.eq_ofNat_of_zero_le (Int.floor_nonneg.mpr h.nonneg)
      have hlt : ⌊p.unreported⌋ < 24 := Int.floor_lt.mpr (by exact_mod_cast hsmall)
      rw [List.mem_singleton.mp hnew]
      refine ⟨n, ?_, by omega⟩
      change (⌊p.unreported⌋ : ℚ) = n
      rw [hn]
      rfl

theorem invariant_send (h : Invariant p) (final : Bool) : Invariant (p.send final) := by
  have hcadence : (p.secondsSinceBeat : ℚ) < 15 := by exact_mod_cast h.cadence
  obtain ⟨hsound, hless⟩ := sound_send h.toSound (by linarith [h.bound]) final
  refine ⟨hsound, ?_, by rw [secondsSinceBeat_send]; exact h.cadence⟩
  have hpos : (0 : ℚ) ≤ (p.send final).secondsSinceBeat := Nat.cast_nonneg _
  linarith

theorem invariant_tick (h : Invariant p) (currentTime : Option ℚ) : Invariant (p.tick currentTime) := by
  have hwatched : 0 ≤ (if p.playing then p.rate.value else 0) ∧ (if p.playing then p.rate.value else 0) ≤ 3 / 2 := by
    split
    · exact ⟨p.rate.pos.le, p.rate.le⟩
    · norm_num
  have hidle : p.ready = false → p.unreported + (if p.playing then p.rate.value else 0) = 0 ∧ p.playing = false ∧
      p.sent = [] := by
    intro hready
    obtain ⟨hnone, hpaused, hsent⟩ := h.idle hready
    refine ⟨?_, hpaused, hsent⟩
    rw [hnone, hpaused, zero_add]
    exact if_neg (by decide)
  obtain ⟨position, ⟨hbeat, htick⟩ | ⟨hbeat, htick⟩⟩ := tick_cases p currentTime
  · rw [htick]
    refine ⟨⟨add_nonneg h.nonneg hwatched.1, hidle, h.whole⟩, ?_, hbeat⟩
    push_cast
    linarith [h.bound]
  · have hlast : p.secondsSinceBeat = 14 := by
      have hcadence := h.cadence
      unfold BEAT_SECONDS at hbeat hcadence
      omega
    have hbound := h.bound
    rw [hlast] at hbound
    push_cast at hbound
    rw [htick]
    have hbefore : Sound { p with
        unreported := p.unreported + if p.playing then p.rate.value else 0
        position := position
        secondsSinceBeat := 0 } := ⟨add_nonneg h.nonneg hwatched.1, hidle, h.whole⟩
    have hsound := sound_send hbefore (by dsimp only; linarith) false
    refine ⟨hsound.1, ?_, by rw [secondsSinceBeat_send]; exact Nat.succ_pos 14⟩
    rw [secondsSinceBeat_send]
    simpa using hsound.2

theorem invariant_perform (h : Invariant p) (event : Event) : Invariant (p.perform event) := by
  rcases perform_cases p event with ⟨currentTime, -, -, htick⟩ | ⟨-, hquiet | ⟨mounted, hsend⟩⟩
  · rw [htick]
    exact invariant_tick h currentTime
  · refine ⟨⟨hquiet.unreported ▸ h.nonneg, fun hready => ?_, hquiet.sent ▸ h.whole⟩, ?_, hquiet.secondsSinceBeat ▸ h.cadence⟩
    · obtain ⟨hbefore, hplaying⟩ := hquiet.idle hready
      obtain ⟨hnone, hpaused, hsent⟩ := h.idle hbefore
      exact ⟨hquiet.unreported.trans hnone, hplaying hpaused, hquiet.sent.trans hsent⟩
    · rw [hquiet.unreported, hquiet.secondsSinceBeat]
      exact h.bound
  · have hsent := invariant_send h true
    rw [hsend]
    exact ⟨⟨hsent.nonneg, hsent.idle, hsent.whole⟩, hsent.bound, hsent.cadence⟩

theorem invariant_after (events : List Event) : Invariant (after events) := by
  refine final_of_step (I := Invariant) (fun _ event h => invariant_perform h event) ?_ events
  exact ⟨⟨le_refl 0, fun _ => ⟨rfl, rfl, rfl⟩, nofun⟩, by norm_num, by decide⟩

theorem unreported_of_send {final : Bool} (h : (p.send final).sent ≠ p.sent) :
    0 ≤ (p.send final).unreported ∧ (p.send final).unreported < 1 := by
  rcases send_cases p final with ⟨hsame, -⟩ | ⟨-, hsent⟩
  · exact absurd (congrArg sent hsame) h
  · rw [hsent]
    exact ⟨Int.fract_nonneg _, Int.fract_lt_one _⟩

/-- A turn in which a beat is sent leaves less than a second. -/
theorem unreported_of_sent {event : Event} (h : (p.perform event).sent ≠ p.sent) :
    0 ≤ (p.perform event).unreported ∧ (p.perform event).unreported < 1 := by
  rcases perform_cases p event with ⟨currentTime, -, -, htick⟩ | ⟨-, hquiet | ⟨mounted, hsend⟩⟩
  · rw [htick] at h ⊢
    obtain ⟨position, ⟨-, htick⟩ | ⟨-, htick⟩⟩ := tick_cases p currentTime
    · rw [htick] at h
      exact absurd rfl h
    · rw [htick] at h ⊢
      exact unreported_of_send h
  · exact absurd hquiet.sent h
  · rw [hsend] at h ⊢
    exact unreported_of_send h

/-! ### Before the stored position -/

theorem ready_tick (p : Player) (currentTime : Option ℚ) : (p.tick currentTime).ready = p.ready := by
  obtain ⟨position, ⟨-, htick⟩ | ⟨-, htick⟩⟩ := tick_cases p currentTime
  · rw [htick]
  · rw [htick, ready_send]

/-- Only reading the stored position makes the player ready. -/
theorem ready_perform {event : Event} (h : ∀ existing, event ≠ .loaded existing) (hready : p.ready = false) :
    (p.perform event).ready = false := by
  have hcontrol : ∀ act : Player → Player, (p.control act).ready = false := by
    intro act
    rw [control, if_pos hready]
    exact hready
  unfold perform
  split
  · exact hready
  cases event with
  | loaded existing => exact absurd rfl (h existing)
  | restoreRate stored => exact hready
  | tick currentTime => exact (ready_tick p currentTime).trans hready
  | togglePlay => exact hcontrol _
  | onPlay => exact hcontrol _
  | onPause => exact hcontrol _
  | seek seconds => exact hcontrol _
  | changeRate next => exact hcontrol _
  | onHide => exact (ready_send p true).trans hready
  | refused => exact hready
  | unmount => exact (ready_send p true).trans hready

theorem ready_final {events : List Event} (h : ∀ existing, .loaded existing ∉ events) (hready : p.ready = false) :
    (final perform p events).ready = false := by
  induction events generalizing p with
  | nil => exact hready
  | cons event events ih =>
    refine ih (fun existing hmem => h existing (List.mem_cons_of_mem _ hmem)) (ready_perform ?_ hready)
    exact fun existing heq => h existing (heq ▸ List.mem_cons_self)

end Player

open Player

/-- The player claims exactly what was watched, in whole seconds and in beats the server does not trim. -/
theorem claims_what_was_watched (events : List Event) :
    (after events).claimed + (after events).unreported = total perform watchedIn {} events ∧
    (∀ event, (after (events ++ [event])).sent ≠ (after events).sent →
      0 ≤ (after (events ++ [event])).unreported ∧ (after (events ++ [event])).unreported < 1) ∧
    (∀ report ∈ (after events).sent, ∃ n : Nat, report.beat.watchedDeltaSeconds = n ∧
      report.beat.body.watchedDeltaSeconds = n ∧ n ≤ 23 ∧ n ≤ PROGRESS_MAX_HEARTBEAT_SECONDS ∧
      ∀ settings : Learning.Settings, 23 ≤ settings.progressMaxHeartbeatSeconds → ∀ watchedSeconds,
        Learning.accumulate settings watchedSeconds n none = watchedSeconds + n ∧
        ∀ duration, duration ≠ 0 →
          Learning.accumulate settings watchedSeconds n (some duration) = min (watchedSeconds + n) duration) ∧
    ((∀ existing, .loaded existing ∉ events) → (after events).sent = []) := by
  refine ⟨?_, ?_, ?_, ?_⟩
  · have hmeasure := measure_final (m := fun p : Player => p.claimed + p.unreported) claimed_perform {} events
    refine hmeasure.trans ?_
    change (0 : ℚ) + 0 + _ = _
    rw [zero_add, zero_add]
  · intro event hsent
    have hstep : after (events ++ [event]) = (after events).perform event := by
      rw [after, final_append, final_cons, final_nil, after]
    rw [hstep] at hsent ⊢
    exact unreported_of_sent hsent
  · intro report hreport
    obtain ⟨n, hn, hle⟩ := (invariant_after events).whole report hreport
    refine ⟨n, hn, ?_, hle, Nat.le_trans hle (by decide), fun settings hsettings watchedSeconds => ?_⟩
    · rw [Beat.body, hn, round_natCast]
      exact max_eq_right (Int.natCast_nonneg n)
    · exact accumulate_of_le (Nat.le_trans hle hsettings) watchedSeconds
  · intro hnone
    exact ((invariant_after events).idle (ready_final hnone rfl)).2.2

/-- Two beats at the fastest speed: 22 seconds, then 23. -/
example : (after (.loaded none :: .changeRate ⟨3 / 2, by simp [PLAYBACK_RATES]⟩ :: .onPlay ::
    List.replicate 30 (.tick none))).sent.map (·.beat.watchedDeltaSeconds) = [22, 23] := by
  decide +kernel

end EPlatform.LessonPlayer
