import EPlatform.Transcripts.Serving

/-!
# The cache is never stale

Between two approvals of a transcript its `updated_at` moves at least twice, whatever wrote its cues in between: so no
version that was served can come back while instants two microseconds apart are different floats.
-/

namespace EPlatform.Transcripts

open Formats Runs

/-! ### Versions -/

theorem timestampOf_ne {t t' : Nat} (hfar : t + 2 ≤ t') (hintime : t' < FLOATS_DIFFER_BEFORE) :
    timestampOf t ≠ timestampOf t' := by
  have hle : t ≤ t' := Nat.le_of_add_right_le hfar
  let unit := 2 ^ (34 + LEAST_PLACE - 53)
  have hplaces : LEAST_PLACE = 19 + (34 + LEAST_PLACE - 53) := rfl
  have hunit : 2 ^ LEAST_PLACE = 524288 * unit := by
    calc 2 ^ LEAST_PLACE = 2 ^ (19 + (34 + LEAST_PLACE - 53)) := congrArg (2 ^ ·) hplaces
      _ = 2 ^ 19 * unit := pow_add 2 19 _
      _ = 524288 * unit := by norm_num
  have hpos : 0 < unit := Nat.two_pow_pos _
  have hapart : t * 2 ^ LEAST_PLACE + 1000000 * 2 ^ (34 + LEAST_PLACE - 53) < t' * 2 ^ LEAST_PLACE := by
    calc t * 2 ^ LEAST_PLACE + 1000000 * unit
        < t * 2 ^ LEAST_PLACE + 2 * 2 ^ LEAST_PLACE := by
          rw [hunit]
          omega
      _ = (t + 2) * 2 ^ LEAST_PLACE := (Nat.add_mul t 2 _).symm
      _ ≤ t' * 2 ^ LEAST_PLACE := Nat.mul_le_mul_right _ hfar
  exact nearestDouble_ne (by decide) hle hintime hapart

/-! ### What an operation does to the version -/

/-- Where an operation at `now` leads the rows: cues change without a new `updated_at` only while the transcript is
neither approved before nor after. -/
inductive Advance (now : Instant) (before after : Rows) : Prop
  | same (h : after = before)
  | unread (hpk : after.transcript.pk = before.transcript.pk) (hbefore : before.transcript.status ≠ .approved)
    (hafter : after.transcript.status ≠ .approved) (htime : after.transcript.updatedAt = before.transcript.updatedAt)
  | touched (hpk : after.transcript.pk = before.transcript.pk) (hafter : after.transcript.status ≠ .approved)
    (htime : after.transcript.updatedAt = now)
  | approved (hpk : after.transcript.pk = before.transcript.pk) (hbefore : before.transcript.status ≠ .approved)
    (htime : after.transcript.updatedAt = now)

theorem serviceOf_advance {action : ReviewAction} {actor : User} {now : Instant} {rows rows' : Rows}
    (h : serviceOf action rows.transcript actor now rows = .ok rows') : Advance now rows rows' := by
  cases action with
  | startReview =>
    obtain ⟨-, -, rfl⟩ := startReview_ok.mp h
    exact .touched rfl (by simp) rfl
  | approve =>
    obtain ⟨-, hmove, -, rfl⟩ := approve_ok.mp h
    have hbefore : rows.transcript.status = .inReview := by simpa [ALLOWED_TRANSITIONS] using hmove
    exact .approved rfl (by simp [hbefore]) rfl
  | reopen =>
    obtain ⟨-, -, rfl⟩ := reopen_ok.mp h
    exact .touched rfl (by simp) rfl

theorem editSegment_advance {segment : TranscriptSegment} {actor : User} {edit : SegmentEdit} {now : Instant}
    {rows rows' : Rows} (h : editSegment segment rows.transcript actor edit now rows = .ok rows') :
    Advance now rows rows' := by
  obtain ⟨-, -, rfl⟩ := editSegment_ok.mp h
  have hstatus := returnToReview_status rows.transcript
    ((rows.saveSegment { edit.merge segment with isEdited := true } now).touch now)
  refine .touched ?_ ?_ ?_
  · unfold returnToReview
    split <;> rfl
  · rw [hstatus]
    split
    · decide
    · rename_i hnot
      exact hnot
  · unfold returnToReview
    split <;> rfl

theorem operate_advance (provider : String) (s : Callbacks) (operation : Operation) :
    Advance operation.now s.db.rows (operate provider s operation).db.rows := by
  have hoperates := operate_operates provider s operation
  generalize (operate provider s operation).db.rows = after at hoperates
  cases hoperates with
  | stays => exact .same rfl
  | corrects h => exact editSegment_advance h
  | reviews h => exact serviceOf_advance h
  | fails hbefore => exact .unread rfl hbefore (by simp [recordFailure]) rfl
  | transcribes result hbefore => exact .unread rfl hbefore (by simp [transcribe]) rfl

/-! ### Every version that was served -/

/-- The response is of the words there are, under the version they are served with. -/
structure Served.IsCurrent (served : Served) (rows : Rows) : Prop where
  approved : rows.transcript.status = .approved
  version : served.version = etagOf rows.transcript
  segments : served.segments = rows.segments
  body : renderVtt (inPositionOrder rows.segments) = .ok served.body

/-- The response is of an approval that was withdrawn: its version is behind by one operation, and by two once the
transcript is approved again. -/
def Served.IsPast (served : Served) (rows : Rows) : Prop :=
  ∃ t : Nat, served.version = ⟨rows.transcript.pk, timestampOf t⟩ ∧
    t + (if rows.transcript.status = .approved then 2 else 1) ≤ rows.transcript.updatedAt ∧
    rows.transcript.updatedAt < FLOATS_DIFFER_BEFORE

/-- The invariant: each response is current or past, and the cache holds nothing that was not served. -/
structure Coherent (s : Serving) : Prop where
  clock : s.rows.transcript.updatedAt ≤ s.clock
  served : ∀ served ∈ s.served, served.IsCurrent s.rows ∨ served.IsPast s.rows
  cached : ∀ entry ∈ s.cache, ∃ served ∈ s.served, served.version = entry.1 ∧ served.body = entry.2

theorem start_coherent (db : Database) (events : List (WebhookEvent TranscriptionResult)) :
    Coherent (.start db events) :=
  ⟨le_rfl, by simp [Serving.start], by simp [Serving.start]⟩

/-- A response with the version of an approved transcript is of its words. -/
theorem Coherent.isCurrent {s : Serving} (h : Coherent s) {served : Served} (hserved : served ∈ s.served)
    (happroved : s.rows.transcript.status = .approved) (hversion : served.version = etagOf s.rows.transcript) :
    served.IsCurrent s.rows := by
  rcases h.served served hserved with hcurrent | ⟨t, hold, hbehind, hintime⟩
  · exact hcurrent
  · rw [if_pos happroved] at hbehind
    have hsame : timestampOf t = timestampOf s.rows.transcript.updatedAt :=
      congrArg ETag.timestamp (hold.symm.trans hversion)
    exact absurd hsame (timestampOf_ne hbehind hintime)

/-- An operation at a later time makes a past response of a current one, unless it leaves the rows alone. -/
theorem Served.advance {served : Served} {clock now : Instant} {before after : Rows}
    (h : served.IsCurrent before ∨ served.IsPast before) (hclock : before.transcript.updatedAt ≤ clock)
    (hticks : clock < now) (hintime : now < FLOATS_DIFFER_BEFORE) (hadvance : Advance now before after) :
    served.IsCurrent after ∨ served.IsPast after := by
  have hpast : ∃ t, served.version = ⟨before.transcript.pk, timestampOf t⟩ ∧ t ≤ before.transcript.updatedAt ∧
      (before.transcript.status ≠ .approved → t + 1 ≤ before.transcript.updatedAt) := by
    rcases h with hcurrent | ⟨t, hversion, hbehind, -⟩
    · exact ⟨_, hcurrent.version, le_rfl, fun hnot => absurd hcurrent.approved hnot⟩
    · refine ⟨t, hversion, Nat.le_of_add_right_le hbehind, fun hnot => ?_⟩
      rw [if_neg hnot] at hbehind
      exact hbehind
  obtain ⟨t, hversion, hle, hlt⟩ := hpast
  cases hadvance with
  | same hsame =>
    rw [hsame]
    exact h
  | unread hpk hbefore hafter htime =>
    rcases h with hcurrent | ⟨t, hversion, hbehind, hlimit⟩
    · exact absurd hcurrent.approved hbefore
    · rw [if_neg hbefore] at hbehind
      exact .inr ⟨t, by rw [hpk, hversion], by rw [if_neg hafter, htime]; exact hbehind, by rw [htime]; exact hlimit⟩
  | touched hpk hafter htime =>
    refine .inr ⟨t, by rw [hpk, hversion], ?_, by rw [htime]; exact hintime⟩
    rw [if_neg hafter, htime]
    exact Nat.succ_le_of_lt (Nat.lt_of_le_of_lt (Nat.le_trans hle hclock) hticks)
  | approved hpk hbefore htime =>
    have hbehind : t + 1 < now := Nat.lt_of_le_of_lt (Nat.le_trans (hlt hbefore) hclock) hticks
    refine .inr ⟨t, by rw [hpk, hversion], ?_, by rw [htime]; exact hintime⟩
    rw [htime]
    split
    · exact Nat.succ_le_of_lt hbehind
    · exact Nat.le_of_lt hbehind

/-! ### Steps -/

section Step

variable {provider language : String} {s : Serving}

theorem approvedTranscriptFor_eq_some {transcript : Transcript}
    (h : approvedTranscriptFor language s.rows = some transcript) :
    s.rows.transcript.status = .approved ∧ transcript = s.rows.transcript := by
  unfold approvedTranscriptFor at h
  split at h
  · rename_i hserved
    exact ⟨hserved.2.2, (Option.some.inj h).symm⟩
  · cases h

theorem Coherent.handle (h : Coherent s) {operation : Operation} (hticks : s.clock < operation.now)
    (hintime : operation.now < FLOATS_DIFFER_BEFORE) : Coherent (serve provider language s (.handle operation)) := by
  have hadvance := operate_advance provider s.callbacks operation
  refine ⟨?_, fun served hserved => ?_, h.cached⟩
  · have hbefore : s.rows.transcript.updatedAt ≤ operation.now := Nat.le_of_lt (Nat.lt_of_le_of_lt h.clock hticks)
    show (operate provider s.callbacks operation).db.rows.transcript.updatedAt ≤ operation.now
    cases hadvance with
    | same hsame =>
      rw [hsame]
      exact hbefore
    | unread hpk hnot hafter htime =>
      rw [htime]
      exact hbefore
    | touched hpk hafter htime => exact htime.le
    | approved hpk hnot htime => exact htime.le
  · exact Served.advance (h.served served hserved) h.clock hticks hintime hadvance

/-- A response is given its place in the cache and on record. -/
theorem Coherent.answer (h : Coherent s) {body : String} {cache : List (ETag × String)}
    (happroved : s.rows.transcript.status = .approved)
    (hbody : renderVtt (inPositionOrder s.rows.segments) = .ok body)
    (hcache : ∀ entry ∈ cache, entry = (etagOf s.rows.transcript, body) ∨ entry ∈ s.cache) :
    Coherent { s with
      cache := cache
      served := s.served ++ [⟨etagOf s.rows.transcript, body, s.rows.segments⟩] } := by
  refine ⟨h.clock, fun served hserved => ?_, fun entry hentry => ?_⟩
  · rcases List.mem_append.mp hserved with hearlier | hnew
    · exact h.served served hearlier
    · rw [List.mem_singleton.mp hnew]
      exact .inl ⟨happroved, rfl, rfl, hbody⟩
  · rcases hcache entry hentry with rfl | hcached
    · exact ⟨_, List.mem_append_right _ (List.mem_singleton_self _), rfl, rfl⟩
    · obtain ⟨served, hserved, hmatches⟩ := h.cached entry hcached
      exact ⟨served, List.mem_append_left _ hserved, hmatches⟩

/-- Every response with the current version has the current body. -/
theorem Coherent.body_eq (h : Coherent s) {body : String} (happroved : s.rows.transcript.status = .approved)
    (hbody : renderVtt (inPositionOrder s.rows.segments) = .ok body) :
    ∀ earlier ∈ s.served, earlier.version = etagOf s.rows.transcript → earlier.body = body := by
  intro earlier hearlier hversion
  exact Except.ok.inj ((h.isCurrent hearlier happroved hversion).body.symm.trans hbody)

theorem Coherent.get (h : Coherent s) (ifNoneMatch : Option ETag) :
    Coherent (getSubtitles language ifNoneMatch s).1 ∧ IsFresh s ifNoneMatch (getSubtitles language ifNoneMatch s).2 := by
  rw [getSubtitles]
  cases hfound : approvedTranscriptFor language s.rows with
  | none => exact ⟨h, trivial⟩
  | some transcript =>
    obtain ⟨happroved, rfl⟩ := approvedTranscriptFor_eq_some hfound
    simp only
    by_cases hmatch : ifNoneMatch = some (etagOf s.rows.transcript)
    · rw [if_pos hmatch]
      refine ⟨h, happroved, fun earlier hearlier hheader => ?_⟩
      have hversion : earlier.version = etagOf s.rows.transcript := Option.some.inj (hheader.symm.trans hmatch)
      exact (h.isCurrent hearlier happroved hversion).segments
    · rw [if_neg hmatch]
      cases hcached : s.cache.lookup (etagOf s.rows.transcript) with
      | some body =>
        have hentry : (etagOf s.rows.transcript, body) ∈ s.cache := by
          obtain ⟨before, after, hsplit, -⟩ := List.lookup_eq_some_iff.mp hcached
          rw [hsplit]
          exact List.mem_append_right _ List.mem_cons_self
        obtain ⟨served, hserved, hversion, rfl⟩ := h.cached _ hentry
        have hbody := (h.isCurrent hserved happroved hversion).body
        exact ⟨h.answer happroved hbody fun entry hold => .inr hold, happroved, hbody, h.body_eq happroved hbody⟩
      | none =>
        obtain ⟨body, hbody⟩ := exists_renderVtt s.callbacks.db.valid.segments
        have hbody : renderVtt (inPositionOrder s.rows.segments) = .ok body := hbody
        simp only [hbody]
        exact ⟨h.answer happroved hbody fun entry hentry => List.mem_cons.mp hentry, happroved, hbody,
          h.body_eq happroved hbody⟩

end Step

theorem serve_coherent (provider language : String) (s : Serving) (step : ServingStep) (h : Coherent s)
    (hstep : Ticks s step ∧ InTime step) : Coherent (serve provider language s step) := by
  cases step with
  | handle operation => exact h.handle hstep.1 hstep.2
  | get ifNoneMatch => exact (h.get ifNoneMatch).1
  | evict version => exact ⟨h.clock, h.served, fun entry hentry => h.cached entry (List.mem_of_mem_filter hentry)⟩

theorem answersFresh (language : String) {s : Serving} (h : Coherent s) (step : ServingStep) :
    AnswersFresh language s step := by
  cases step with
  | handle operation => trivial
  | get ifNoneMatch => exact (h.get ifNoneMatch).2
  | evict version => trivial

/-- Every learner is answered with the words there are, in every run whose operations are at increasing times that the
floats tell apart. -/
theorem along_answersFresh (provider language : String) (db : Database)
    (events : List (WebhookEvent TranscriptionResult)) (run : List ServingStep)
    (hrun : Along (serve provider language) (fun s step => Ticks s step ∧ InTime step) (.start db events) run) :
    Along (serve provider language) (AnswersFresh language) (.start db events) run :=
  along_of_along (serve_coherent provider language) (fun _ step h _ => answersFresh language h step)
    (start_coherent db events) hrun

def reviewer : User := ⟨7, "teacher@example.test", .instructor, false⟩

/-- A transcript with one cue, under review. -/
def awaitingApproval : Database where
  rows :=
    { transcript := { submitted.db.rows.transcript with status := .inReview }
      segments := [⟨10, 1, 0, 900, "ola", false, 0⟩]
      nextPk := 11 }
  valid := by decide

/-- The cue is approved, watched, corrected, approved and watched again, all within six microseconds. -/
def correctedBetweenApprovals (now : Instant) : List ServingStep :=
  [.handle (.review (.post .approve reviewer) (now + 2)), .get none,
    .handle (.review (.patch 10 ⟨some "hola", none, none⟩ reviewer) (now + 5)),
    .handle (.review (.post .approve reviewer) (now + 8)), .get none]

/-- In the year 2026. -/
theorem corrected_words_are_served :
    Along (serve "fake" "es") (AnswersFresh "es") (.start awaitingApproval [])
      (correctedBetweenApprovals 1767225600000000) :=
  along_answersFresh "fake" "es" awaitingApproval [] _ (by decide)

/-- In the year 6325 both approvals have one float, and the words that were corrected are served from the cache. -/
theorem old_words_are_served :
    Along (serve "fake" "es") Ticks (.start awaitingApproval []) (correctedBetweenApprovals 137438953472000000) ∧
      ¬ Along (serve "fake" "es") (AnswersFresh "es") (.start awaitingApproval [])
        (correctedBetweenApprovals 137438953472000000) := by
  decide +kernel

end EPlatform.Transcripts
