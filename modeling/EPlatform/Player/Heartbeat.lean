import EPlatform.Learning.Progress
import Mathlib.Data.Rat.Floor
import Mathlib.Tactic.Linarith

/-!
# Heartbeats of the player

The arithmetic of `heartbeat.ts` and the speeds of `preferences.ts`, over the rationals. `watchedDeltaSeconds` of a beat is
a number like any other here, and that it is a whole one is proved.
-/

namespace EPlatform.LessonPlayer

def PLAYBACK_RATES : List ℚ := [1 / 2, 3 / 4, 1, 5 / 4, 3 / 2]

/-- A speed that is offered. -/
structure PlaybackRate where
  value : ℚ
  isOffered : value ∈ PLAYBACK_RATES

def DEFAULT_PLAYBACK_RATE : PlaybackRate := ⟨1, by simp [PLAYBACK_RATES]⟩

/-- `readPlaybackRate`, of the number that is stored. There is none where storage is empty, blocked or holds a text. -/
def readPlaybackRate : Option ℚ → PlaybackRate
  | some parsed => if h : parsed ∈ PLAYBACK_RATES then ⟨parsed, h⟩ else DEFAULT_PLAYBACK_RATE
  | none => DEFAULT_PLAYBACK_RATE

def BEAT_SECONDS : Nat := 15

def MAX_DELTA_SECONDS : ℚ := 60

/-- The server's setting where the environment has none. -/
def PROGRESS_MAX_HEARTBEAT_SECONDS : Nat := 60

structure Beat where
  positionSeconds : ℚ
  watchedDeltaSeconds : ℚ

/-- `Math.round`. -/
def round (x : ℚ) : Int := ⌊x + 1 / 2⌋

def watchedSince (elapsedSeconds : ℚ) (playing : Bool) (rate : ℚ) : ℚ :=
  if playing = false ∨ elapsedSeconds ≤ 0 then 0
  else
    let multiplier := if 0 < rate then rate else 1
    min (elapsedSeconds * multiplier) MAX_DELTA_SECONDS

def worthSending (beat : Beat) (lastSentPosition : Option Int) : Bool :=
  if beat.watchedDeltaSeconds ≤ 0 ∧ beat.positionSeconds ≤ 0 then false
  else if 0 < beat.watchedDeltaSeconds then true
  else
    match lastSentPosition with
    | none => true
    | some last => round beat.positionSeconds ≠ last

/-- The body of the request that `recordProgress` and `beaconProgress` make of a beat. -/
def Beat.body (beat : Beat) : Learning.Heartbeat where
  positionSeconds := max 0 (round beat.positionSeconds)
  watchedDeltaSeconds := max 0 (round beat.watchedDeltaSeconds)

/-! ### Bounds -/

theorem PlaybackRate.pos (rate : PlaybackRate) : 0 < rate.value := by
  obtain ⟨value, hvalue⟩ := rate
  simp only [PLAYBACK_RATES, List.mem_cons, List.not_mem_nil, or_false] at hvalue
  rcases hvalue with rfl | rfl | rfl | rfl | rfl <;> norm_num

theorem PlaybackRate.le (rate : PlaybackRate) : rate.value ≤ 3 / 2 := by
  obtain ⟨value, hvalue⟩ := rate
  simp only [PLAYBACK_RATES, List.mem_cons, List.not_mem_nil, or_false] at hvalue
  rcases hvalue with rfl | rfl | rfl | rfl | rfl <;> norm_num

/-- A second at an offered speed is never cut off. -/
theorem watchedSince_one (playing : Bool) (rate : PlaybackRate) :
    watchedSince 1 playing rate.value = if playing then rate.value else 0 := by
  cases playing with
  | false => rfl
  | true =>
    have hle : 1 * rate.value ≤ MAX_DELTA_SECONDS := by
      rw [one_mul, MAX_DELTA_SECONDS]
      linarith [rate.le]
    rw [watchedSince, if_neg (by norm_num), if_pos rate.pos, min_eq_left hle, one_mul]
    rfl

/-- A beat with something watched is always worth sending. -/
theorem worthSending_of_pos {beat : Beat} (h : 0 < beat.watchedDeltaSeconds) (lastSentPosition : Option Int) :
    worthSending beat lastSentPosition = true := by
  unfold worthSending
  rw [if_neg fun hnone => absurd hnone.1 (not_le.mpr h), if_pos h]

theorem round_natCast (n : Nat) : round n = n := by
  rw [round, Int.floor_eq_iff]
  constructor
  · push_cast
    linarith
  · push_cast
    linarith

/-- Where the setting is large enough, the server adds all that a beat claims, up to the lesson's length. -/
theorem accumulate_of_le {settings : Learning.Settings} {n : Nat} (h : n ≤ settings.progressMaxHeartbeatSeconds)
    (watchedSeconds : Int) : Learning.accumulate settings watchedSeconds n none = watchedSeconds + n ∧
      ∀ duration, duration ≠ 0 →
        Learning.accumulate settings watchedSeconds n (some duration) = min (watchedSeconds + n) duration := by
  have hclamp : max 0 (min (n : Int) settings.progressMaxHeartbeatSeconds) = n := by omega
  constructor
  · rw [Learning.accumulate, hclamp]
  · intro duration hduration
    rw [Learning.accumulate, hclamp]
    exact if_neg hduration

end EPlatform.LessonPlayer
