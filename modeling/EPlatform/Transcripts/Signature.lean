import EPlatform.Lessons.Subtitles
import EPlatform.Transcripts.Review

/-!
# A transcript's signature and its status

One transcript from its first request on: what the provider answers and reports, corrections, and the review's
transitions, one operation after the other. The table's constraint asks an approved transcript for a signature; that
nothing else carries one is up to the operations.
-/

namespace EPlatform.Transcripts

open Runs MediaAssets

/-- What the transcript is of, and the settings its tasks read. -/
structure Recording where
  asset : MediaAsset
  instructor : Uuid
  language : String
  provider : String
  maxRetries : Int
  deriving DecidableEq, Repr

/-- A transcript, if it was asked for, and the recorded events of its provider. -/
structure Life where
  transcript : Option Database
  results : List (WebhookEvent TranscriptionResult)
  deriving DecidableEq

def Life.status (s : Life) : Option TranscriptStatus := s.transcript.map (·.rows.transcript.status)

/-- What the environment brings to one request: the asset's status, if the asset is still there, and the answer. -/
structure Attempt where
  status : Option MediaAssetStatus
  newPk : Uuid
  retries : Nat
  takenJobs : List (String × String)
  answer : Except Raised TranscriptionJob
  now : Instant

/-- `request_transcription`, run to its end. -/
def requestTranscription (r : Recording) (attempt : Attempt) (found : Option Database) : Option Database :=
  match Lessons.planRequest (attempt.status.map fun status => { r.asset with status }) with
  | .error _ => found
  | .ok asset =>
    let db := getOrCreate attempt.newPk asset.pk r.instructor r.language attempt.now found
    match planSubmission db.rows.transcript with
    | .error _ => some db
    | .ok _ =>
      some (db.settle (writeSubmission r.maxRetries attempt.retries attempt.takenJobs attempt.answer db.rows))

inductive LifeStep
  | request (attempt : Attempt)
  | handle (operation : Operation)

def live (r : Recording) (s : Life) : LifeStep → Life
  | .request attempt => { s with transcript := requestTranscription r attempt s.transcript }
  | .handle operation =>
    match s.transcript with
    | none => { s with results := Lessons.markUnknown s.results operation }
    | some db =>
      let after := operate r.provider ⟨db, s.results⟩ operation
      ⟨some after.db, after.events⟩

/-! ### What the review promises -/

def Transcript.IsSigned (transcript : Transcript) : Prop := transcript.reviewedBy.isSome ∧ transcript.approvedAt.isSome

instance : DecidablePred Transcript.IsSigned := fun _ => inferInstanceAs (Decidable (_ ∧ _))

def LifeStep.isEdit : LifeStep → Bool
  | .handle (.review (.patch ..) _) => true
  | _ => false

def LifeStep.isApprove : LifeStep → Bool
  | .handle (.review (.post .approve _) _) => true
  | _ => false

def SignedIffApproved (s : Life) : Prop :=
  ∀ db ∈ s.transcript, db.rows.transcript.status = .approved ↔ db.rows.transcript.IsSigned

instance : DecidablePred SignedIffApproved := fun s => inferInstanceAs (Decidable (∀ db ∈ s.transcript, _ ↔ _))

/-- What a step from `s` to `s'` may do. -/
structure FollowsReview (s : Life) (step : LifeStep) (s' : Life) : Prop where
  signed : SignedIffApproved s'
  intoApproved : s.status ≠ some .approved → s'.status = some .approved →
    step.isApprove ∧ s.status = some .inReview ∧ ∀ db ∈ s.transcript, db.rows.segments ≠ []
  intoReview : s.status ≠ some .inReview → s'.status = some .inReview →
    s.status = some .machine ∨ (s.status = some .approved ∧ step.isEdit)
  outOfApproved : s.status = some .approved → s'.status ≠ some .approved → step.isEdit

instance (s : Life) (step : LifeStep) (s' : Life) : Decidable (FollowsReview s step s') :=
  decidable_of_iff
    (SignedIffApproved s' ∧
      (s.status ≠ some .approved → s'.status = some .approved →
        step.isApprove ∧ s.status = some .inReview ∧ ∀ db ∈ s.transcript, db.rows.segments ≠ []) ∧
      (s.status ≠ some .inReview → s'.status = some .inReview →
        s.status = some .machine ∨ (s.status = some .approved ∧ step.isEdit)) ∧
      (s.status = some .approved → s'.status ≠ some .approved → step.isEdit))
    ⟨fun ⟨h₁, h₂, h₃, h₄⟩ => ⟨h₁, h₂, h₃, h₄⟩, fun ⟨h₁, h₂, h₃, h₄⟩ => ⟨h₁, h₂, h₃, h₄⟩⟩

/-- No reviewer opens a transcript that is approved. -/
def OpensUnapproved (s : Life) : LifeStep → Prop
  | .handle (.review (.post .startReview actor) _) =>
    ∀ db ∈ s.transcript, mayReview db.rows.transcript actor → db.rows.transcript.status ≠ .approved
  | _ => True

/-! ### What a step can do to the status -/

/-- Where a step leads a transcript, by the operation that takes it there. -/
inductive Passage (step : LifeStep) (before : Rows) (after : Transcript) : Prop
  | stays (hstatus : after.status = before.transcript.status)
    (hsignature : after.IsSigned ↔ before.transcript.IsSigned)
  | unread (hbefore : before.transcript.status ≠ .approved)
    (hafter : after.status ≠ .approved ∧ after.status ≠ .inReview)
    (hsignature : after.IsSigned ↔ before.transcript.IsSigned)
  | opened (hbefore : before.transcript.status = .machine) (hafter : after.status = .inReview)
    (hsignature : after.IsSigned ↔ before.transcript.IsSigned)
  | approved (hstep : step.isApprove) (hbefore : before.transcript.status = .inReview) (hsegments : before.segments ≠ [])
    (hafter : after.status = .approved) (hsigned : after.IsSigned)
  | corrected (hstep : step.isEdit) (hbefore : before.transcript.status = .approved) (hafter : after.status = .inReview)
    (hsigned : ¬ after.IsSigned)
  | withdrawn (hbefore : before.transcript.status = .approved)
    (hstep : ∃ actor now, step = .handle (.review (.post .startReview actor) now) ∧ mayReview before.transcript actor)

theorem Passage.refl (step : LifeStep) (rows : Rows) : Passage step rows rows.transcript := .stays rfl Iff.rfl

theorem writeSubmission_passage {step : LifeStep} {maxRetries : Int} {retries : Nat} {takenJobs : List (String × String)}
    {answer : Except Raised TranscriptionJob} {rows rows' : Rows} (hplan : planSubmission rows.transcript = .ok ())
    (h : writeSubmission maxRetries retries takenJobs answer rows = .ok rows') : Passage step rows rows'.transcript := by
  have hbefore : rows.transcript.status ≠ .approved := by
    intro happroved
    exact (planSubmission_ok hplan).2 (by simp [happroved])
  obtain ⟨⟨left, outcome⟩, hperform, rfl⟩ := map_eq_ok.mp h
  unfold performSubmission at hperform
  split at hperform
  · simp only at hperform
    split_ifs at hperform <;> cases hperform
    · exact .unread hbefore ⟨by simp [recordFailure], by simp [recordFailure]⟩ Iff.rfl
    · exact .stays rfl Iff.rfl
  · split_ifs at hperform <;> cases hperform
    · exact .unread hbefore ⟨by simp [recordFailure], by simp [recordFailure]⟩ Iff.rfl
    · exact .unread hbefore ⟨by simp [saveSubmission], by simp [saveSubmission]⟩ Iff.rfl

/-- A request leaves a transcript as it is, or goes on from the one it finds or creates. -/
theorem requestTranscription_passage (r : Recording) (attempt : Attempt) (found : Option Database) (step : LifeStep) :
    requestTranscription r attempt found = found ∨
      ∃ db, requestTranscription r attempt found = some db ∧
        Passage step (getOrCreate attempt.newPk r.asset.pk r.instructor r.language attempt.now found).rows
          db.rows.transcript := by
  unfold requestTranscription
  cases hasset : attempt.status with
  | none => exact .inl rfl
  | some status =>
    simp only [Option.map_some, Lessons.planRequest]
    by_cases hready : status = .ready
    · refine .inr ?_
      simp only [hready, ne_eq, not_true_eq_false, if_false]
      generalize getOrCreate attempt.newPk r.asset.pk r.instructor r.language attempt.now found = db
      cases hplan : planSubmission db.rows.transcript with
      | error outcome => exact ⟨db, rfl, .refl step db.rows⟩
      | ok u =>
        refine ⟨_, rfl, ?_⟩
        refine Database.settle_induction (P := fun rows : Rows => Passage step db.rows rows.transcript)
          (.refl step db.rows) ?_
        intro rows hok _
        exact writeSubmission_passage hplan hok
    · exact .inl (by simp [hready])

theorem serviceOf_passage {action : ReviewAction} {actor : User} {now : Instant} {rows rows' : Rows}
    (h : serviceOf action rows.transcript actor now rows = .ok rows') :
    Passage (.handle (.review (.post action actor) now)) rows rows'.transcript := by
  cases action with
  | startReview =>
    obtain ⟨hmay, hmove, rfl⟩ := startReview_ok.mp h
    by_cases happroved : rows.transcript.status = .approved
    · exact .withdrawn happroved ⟨actor, now, rfl, hmay⟩
    · refine .opened ?_ rfl Iff.rfl
      simpa [ALLOWED_TRANSITIONS, happroved] using hmove
  | approve =>
    obtain ⟨-, hmove, hsegments, rfl⟩ := approve_ok.mp h
    refine .approved rfl ?_ hsegments rfl ⟨rfl, rfl⟩
    simpa [ALLOWED_TRANSITIONS] using hmove
  | reopen =>
    obtain ⟨-, hmove, rfl⟩ := reopen_ok.mp h
    have hbefore : rows.transcript.status = .inReview := by simpa [ALLOWED_TRANSITIONS] using hmove
    exact .unread (by simp [hbefore]) ⟨by simp, by simp⟩ Iff.rfl

theorem editSegment_passage {pk : Uuid} {segment : TranscriptSegment} {actor : User} {edit : SegmentEdit} {now : Instant}
    {rows rows' : Rows} (h : editSegment segment rows.transcript actor edit now rows = .ok rows') :
    Passage (.handle (.review (.patch pk edit actor) now)) rows rows'.transcript := by
  obtain ⟨-, -, rfl⟩ := editSegment_ok.mp h
  by_cases happroved : rows.transcript.status = .approved
  · refine .corrected rfl happroved ?_ ?_
    · rw [returnToReview_status, if_pos happroved]
    · simp [returnToReview, happroved, Transcript.IsSigned]
  · have hkeeps : returnToReview rows.transcript
        ((rows.saveSegment { edit.merge segment with isEdited := true } now).touch now) =
          (rows.saveSegment { edit.merge segment with isEdited := true } now).touch now := if_pos happroved
    rw [hkeeps]
    exact .stays rfl Iff.rfl

theorem operate_passage (provider : String) (s : Callbacks) (operation : Operation) :
    Passage (.handle operation) s.db.rows (operate provider s operation).db.rows.transcript := by
  have hoperates := operate_operates provider s operation
  generalize (operate provider s operation).db.rows = after at hoperates
  cases hoperates with
  | stays => exact .refl _ s.db.rows
  | corrects h => exact editSegment_passage h
  | reviews h => exact serviceOf_passage h
  | fails hbefore => exact .unread hbefore ⟨by simp [recordFailure], by simp [recordFailure]⟩ Iff.rfl
  | transcribes result hbefore => exact .unread hbefore ⟨by simp [transcribe], by simp [transcribe]⟩ Iff.rfl

/-! ### Runs -/

section Step

variable {s : Life} {step : LifeStep} {before : Rows} {db : Database} {results : List (WebhookEvent TranscriptionResult)}
  (hbefore : (∃ found, s.transcript = some found ∧ found.rows = before) ∨
    (s.transcript = none ∧ before.transcript.status = .pending))

include hbefore

/-- A transcript that is only created now comes from where a request starts it. -/
theorem status_eq_iff {status : TranscriptStatus} (hne : status ≠ .pending) :
    s.status = some status ↔ before.transcript.status = status := by
  rcases hbefore with ⟨found, hfound, rfl⟩ | ⟨hnone, hpending⟩
  · simp [Life.status, hfound]
  · simp [Life.status, hnone, hpending, hne.symm]

/-- What a step may do, in terms of the rows it starts from and leads to. -/
theorem followsReview_of (hsigned : db.rows.transcript.status = .approved ↔ db.rows.transcript.IsSigned)
    (happroved : before.transcript.status ≠ .approved → db.rows.transcript.status = .approved →
      step.isApprove ∧ before.transcript.status = .inReview ∧ before.segments ≠ [])
    (hreview : before.transcript.status ≠ .inReview → db.rows.transcript.status = .inReview →
      before.transcript.status = .machine ∨ (before.transcript.status = .approved ∧ step.isEdit))
    (hleft : before.transcript.status = .approved → db.rows.transcript.status ≠ .approved → step.isEdit) :
    FollowsReview s step ⟨some db, results⟩ := by
  have hfrom : ∀ status, status ≠ .pending → (s.status = some status ↔ before.transcript.status = status) :=
    fun _ hne => status_eq_iff hbefore hne
  have hto : ∀ status, (⟨some db, results⟩ : Life).status = some status ↔ db.rows.transcript.status = status :=
    fun _ => Option.some_inj
  constructor
  · intro found hfound
    cases hfound
    exact hsigned
  · intro hnot hthen
    rw [Ne, hfrom _ (by decide)] at hnot
    obtain ⟨hstep, hwas, hsegments⟩ := happroved hnot ((hto _).mp hthen)
    refine ⟨hstep, (hfrom _ (by decide)).mpr hwas, fun found hfound => ?_⟩
    rcases hbefore with ⟨found', hfound', rfl⟩ | ⟨hnone, -⟩
    · obtain rfl := Option.some.inj (hfound'.symm.trans hfound)
      exact hsegments
    · exact absurd (hnone.symm.trans hfound) (by simp)
  · intro hnot hthen
    rw [Ne, hfrom _ (by decide)] at hnot
    rw [hfrom _ (by decide), hfrom _ (by decide)]
    exact hreview hnot ((hto _).mp hthen)
  · intro hwas hnot
    rw [Ne, hto] at hnot
    exact hleft ((hfrom _ (by decide)).mp hwas) hnot

/-- Every passage but a withdrawal is one the review promises. -/
theorem Passage.followsReview (h : Passage step before db.rows.transcript)
    (hsigned : before.transcript.status = .approved ↔ before.transcript.IsSigned) (hopens : OpensUnapproved s step) :
    FollowsReview s step ⟨some db, results⟩ := by
  cases h with
  | stays hsame hsignature =>
    refine followsReview_of hbefore ?_ ?_ ?_ ?_
    · rw [hsame, hsignature]
      exact hsigned
    · exact fun hnot hthen => absurd (hsame.symm.trans hthen) hnot
    · exact fun hnot hthen => absurd (hsame.symm.trans hthen) hnot
    · exact fun hwas hnot => absurd (hsame.trans hwas) hnot
  | unread hnot hafter hsignature =>
    refine followsReview_of hbefore (iff_of_false hafter.1 ?_) ?_ ?_ ?_
    · exact fun hafterSigned => hnot (hsigned.mpr (hsignature.mp hafterSigned))
    · exact fun _ hthen => absurd hthen hafter.1
    · exact fun _ hthen => absurd hthen hafter.2
    · exact fun hwas => absurd hwas hnot
  | opened hwas hafter hsignature =>
    have hunapproved : before.transcript.status ≠ .approved := by simp [hwas]
    refine followsReview_of hbefore (iff_of_false (by simp [hafter]) ?_) ?_ ?_ ?_
    · exact fun hafterSigned => hunapproved (hsigned.mpr (hsignature.mp hafterSigned))
    · exact fun _ hthen => absurd (hafter.symm.trans hthen) (by decide)
    · exact fun _ _ => .inl hwas
    · exact fun hwasApproved => absurd hwasApproved hunapproved
  | approved hstep hwas hne hafter hafterSigned =>
    refine followsReview_of hbefore (iff_of_true hafter hafterSigned) ?_ ?_ ?_
    · exact fun _ _ => ⟨hstep, hwas, hne⟩
    · exact fun _ hthen => absurd (hafter.symm.trans hthen) (by decide)
    · exact fun _ hnot => absurd hafter hnot
  | corrected hstep hwas hafter hunsigned =>
    refine followsReview_of hbefore (iff_of_false (by simp [hafter]) hunsigned) ?_ ?_ ?_
    · exact fun hnot => absurd hwas hnot
    · exact fun _ _ => .inr ⟨hwas, hstep⟩
    · exact fun _ _ => hstep
  | withdrawn hwas hstep =>
    obtain ⟨actor, now, rfl, hmay⟩ := hstep
    rcases hbefore with ⟨found, hfound, rfl⟩ | ⟨-, hpending⟩
    · exact absurd hwas (hopens found hfound hmay)
    · exact absurd (hwas.symm.trans hpending) (by decide)

end Step

theorem followsReview_refl {s s' : Life} (h : SignedIffApproved s) (hsame : s'.transcript = s.transcript)
    (step : LifeStep) : FollowsReview s step s' := by
  have hstatus : s'.status = s.status := by rw [Life.status, hsame, Life.status]
  constructor
  · unfold SignedIffApproved
    rw [hsame]
    exact h
  · exact fun hnot hthen => absurd (hstatus ▸ hthen) hnot
  · exact fun hnot hthen => absurd (hstatus ▸ hthen) hnot
  · exact fun hwas hnot => absurd (hstatus.trans hwas) hnot

theorem live_followsReview {r : Recording} {s : Life} {step : LifeStep} (hs : SignedIffApproved s)
    (hopens : OpensUnapproved s step) : FollowsReview s step (live r s step) := by
  cases step with
  | request attempt =>
    simp only [live]
    rcases requestTranscription_passage r attempt s.transcript (.request attempt) with hsame | ⟨db, hafter, hpassage⟩
    · exact followsReview_refl hs hsame _
    · rw [hafter]
      cases hfound : s.transcript with
      | none =>
        rw [hfound] at hpassage
        exact hpassage.followsReview (.inr ⟨hfound, rfl⟩) (by simp [getOrCreate, Transcript.new, Transcript.IsSigned])
          hopens
      | some found =>
        rw [hfound] at hpassage
        exact hpassage.followsReview (.inl ⟨found, hfound, rfl⟩) (hs found hfound) hopens
  | handle operation =>
    cases hfound : s.transcript with
    | none =>
      simp only [live, hfound]
      exact followsReview_refl hs hfound.symm _
    | some found =>
      have hpassage := operate_passage r.provider ⟨found, s.results⟩ operation
      simp only [live, hfound]
      exact hpassage.followsReview (.inl ⟨found, hfound, rfl⟩) (hs found hfound) hopens

/-- The rows `start_review` leaves when it is let through. -/
theorem startReview_settles {db : Database} {actor : User} (now : Instant) (hmay : mayReview db.rows.transcript actor)
    (hmove : (db.rows.transcript.status, .inReview) ∈ ALLOWED_TRANSITIONS) :
    (db.settle (startReview db.rows.transcript actor now db.rows)).rows.transcript.status = .inReview := by
  let opened : Rows :=
    { db.rows with transcript := { db.rows.transcript with status := .inReview, updatedAt := now } }
  have hvalid : opened.Valid := by
    have h := db.valid
    exact ⟨⟨by simp [opened], h.1.2, h.1.3, h.1.4⟩, h.2, h.3, h.4, h.5⟩
  have hok : startReview db.rows.transcript actor now db.rows = .ok opened := startReview_ok.mpr ⟨hmay, hmove, rfl⟩
  rw [hok, Database.settle_ok hvalid]

/-- An approved transcript that is opened leaves its approval without an edit. -/
theorem not_followsReview {r : Recording} {s : Life} {step : LifeStep} (hopens : ¬ OpensUnapproved s step) :
    ¬ FollowsReview s step (live r s step) := by
  unfold OpensUnapproved at hopens
  split at hopens
  · rename_i actor now
    push Not at hopens
    obtain ⟨db, hdb, hmay, happroved⟩ := hopens
    have hmove : (db.rows.transcript.status, .inReview) ∈ ALLOWED_TRANSITIONS := by
      rw [happroved]
      decide
    have hafter : (live r s (.handle (.review (.post .startReview actor) now))).status = some .inReview := by
      simp only [live, Option.mem_def.mp hdb, operate, loadReview, hmay, if_true, Life.status, Option.map_some]
      exact congrArg some (startReview_settles now hmay hmove)
    intro hfollows
    have hbefore : s.status = some .approved := by rw [Life.status, Option.mem_def.mp hdb, Option.map_some, happroved]
    exact absurd (hfollows.outOfApproved hbefore (by simp [hafter])) (by simp [LifeStep.isEdit])
  · exact absurd trivial hopens

theorem followsReview_iff (r : Recording) {s : Life} (step : LifeStep) (hs : SignedIffApproved s) :
    FollowsReview s step (live r s step) ↔ OpensUnapproved s step := by
  constructor
  · intro hfollows
    by_contra hopens
    exact not_followsReview hopens hfollows
  · exact live_followsReview hs

/-- Status and signature agree, and every move is one the review promises, in exactly the runs in which no approved
transcript is opened for review. -/
theorem along_followsReview_iff (r : Recording) (results : List (WebhookEvent TranscriptionResult))
    (run : List LifeStep) :
    Along (live r) (fun s step => FollowsReview s step (live r s step)) ⟨none, results⟩ run ↔
      Along (live r) OpensUnapproved ⟨none, results⟩ run := by
  have hstart : SignedIffApproved ⟨none, results⟩ := by simp [SignedIffApproved]
  apply along_congr_of_guard (I := SignedIffApproved)
  · exact fun s step _ hfollows => hfollows.signed
  · exact fun s step hs => followsReview_iff r step hs
  · exact hstart

/-- A lesson of the platform, ready to be transcribed, and the report its provider will send. -/
def recording : Recording where
  asset :=
    { pk := 2, sourceObjectKey := ⟨3, "a", "mp4"⟩, sourceBytes := 1, sourceChecksum := "", provider := "fake",
      providerAssetId := "asset", providerPlaybackId := "playback", durationSeconds := some 60, status := .ready,
      errorMessage := "", retryCount := 0, updatedAt := 0 }
  instructor := 7
  language := "es"
  provider := "fake"
  maxRetries := 3

/-- The report is applied, the transcript is opened and approved, and then opened once more. -/
theorem opening_an_approved_transcript :
    ¬ Along (live recording) (fun s step => FollowsReview s step (live recording s step)) ⟨none, submitted.events⟩
      [.request ⟨some .ready, 1, 0, [], .ok ⟨"fake", "job-1", .processing⟩, 90⟩,
        .handle (.callback 50 100), .handle (.review (.post .startReview teacher) 101),
        .handle (.review (.post .approve teacher) 102), .handle (.review (.post .startReview teacher) 103)] := by
  decide

end EPlatform.Transcripts
