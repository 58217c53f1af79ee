import EPlatform.Reading.Endpoints

/-!
# Both gates, on every route

Each of the five endpoints is the same two gates before what it serves. So a lesson's content leaves the server only through
both, and what a caller may not see does not change an answer.
-/

namespace EPlatform.Reading

open Runs Runs.Query Entitlements Transcripts

/-! ### What is promised -/

/-- The lesson a request is about. -/
def Request.Names : Request → LoadedLesson → Prop
  | .lesson pk, loaded => loaded.lesson.pk = pk
  | .lessonBySlug courseSlug lessonSlug, loaded => loaded.course.slug = courseSlug ∧ loaded.lesson.slug = lessonSlug
  | .subtitles pk _, loaded => loaded.lesson.pk = pk
  | .panel pk _, loaded => loaded.lesson.pk = pk
  | .playbackToken pk, loaded => loaded.lesson.pk = pk

instance : (request : Request) → DecidablePred request.Names
  | .lesson _ => fun _ => inferInstanceAs (Decidable (_ = _))
  | .lessonBySlug _ _ => fun _ => inferInstanceAs (Decidable (_ ∧ _))
  | .subtitles _ _ => fun _ => inferInstanceAs (Decidable (_ = _))
  | .panel _ _ => fun _ => inferInstanceAs (Decidable (_ = _))
  | .playbackToken _ => fun _ => inferInstanceAs (Decidable (_ = _))

/-- The first gate: it is published, or the caller teaches the course or administers the platform. -/
def MaySee (user : Caller) (loaded : LoadedLesson) : Prop :=
  loaded.course.status = .published ∨ ∃ account, user.signedIn = some account ∧
    (loaded.course.instructor = account.pk ∨ account.role = .admin ∨ account.isSuperuser = true)

/-- The second gate. -/
def Allows (settings : Settings) (l : Library) (user : Caller) (moment : Moment) (loaded : LoadedLesson) : Prop :=
  ∃ decision, decisionOn settings l user moment loaded = .ok decision ∧ decision.allowed = true

/-- The thing asked for exists. -/
def Request.IsThere (l : Library) (loaded : LoadedLesson) : Request → Prop
  | .lesson _ => True
  | .lessonBySlug _ _ => True
  | .subtitles _ _ => ∃ transcript ∈ l.transcriptsJoined, l.IsApprovedFor loaded transcript
  | .panel _ _ => ∃ transcript ∈ l.transcriptsJoined, l.IsApprovedFor loaded transcript
  | .playbackToken _ => ∃ asset ∈ l.assets, asset.lesson = loaded.lesson.pk ∧ asset.mediaAsset.status = .ready

/-- The caller holds the version of the transcript there is. -/
def Request.HasCurrent (l : Library) (loaded : LoadedLesson) : Request → Prop
  | .subtitles _ ifNoneMatch =>
    ∃ transcript ∈ l.transcriptsJoined, l.IsApprovedFor loaded transcript ∧
      ifNoneMatch = some (etagOf transcript.row.transcript)
  | .panel _ ifNoneMatch =>
    ∃ transcript ∈ l.transcriptsJoined, l.IsApprovedFor loaded transcript ∧
      ifNoneMatch = some (etagOf transcript.row.transcript)
  | _ => False

/-- A body, cues or a token. -/
def Response.Discloses : Response → Prop
  | .lesson _ => True
  | .subtitles _ _ => True
  | .panel _ _ => True
  | .token _ => True
  | _ => False

instance : DecidablePred Response.Discloses
  | .lesson _ => inferInstanceAs (Decidable True)
  | .subtitles _ _ => inferInstanceAs (Decidable True)
  | .panel _ _ => inferInstanceAs (Decidable True)
  | .token _ => inferInstanceAs (Decidable True)
  | .notModified => inferInstanceAs (Decidable False)
  | .notFound => inferInstanceAs (Decidable False)
  | .noTranscript => inferInstanceAs (Decidable False)
  | .entitlementDenied _ _ => inferInstanceAs (Decidable False)
  | .notPlayable _ => inferInstanceAs (Decidable False)
  | .serverError => inferInstanceAs (Decidable False)

/-- What is disclosed is of this lesson. -/
def IsOfLesson (settings : Settings) (s : Site) (moment : Moment) (loaded : LoadedLesson) : Response → Prop
  | .lesson lesson => lesson = gatedLessonSerializer loaded
  | .subtitles version body =>
    ∃ transcript ∈ s.library.transcriptsJoined, s.library.IsApprovedFor loaded transcript ∧
      version = etagOf transcript.row.transcript ∧
        (s.cache.lookup version = some body ∨ renderVtt (inPositionOrder transcript.row.segments) = .ok body)
  | .panel version transcript =>
    ∃ approved ∈ s.library.transcriptsJoined, s.library.IsApprovedFor loaded approved ∧
      version = etagOf approved.row.transcript ∧ transcript = lessonTranscriptSerializer approved
  | .token token =>
    ∃ asset ∈ s.library.assets, asset.lesson = loaded.lesson.pk ∧ asset.mediaAsset.status = .ready ∧
      token = moment.getPlaybackToken asset.mediaAsset.providerPlaybackId settings.mediaPlaybackTokenTtlSeconds
  | _ => True

/-- What a caller is answered, gate by gate. -/
structure IsGated (settings : Settings) (user : Caller) (s : Site) (moment : Moment) (request : Request)
    (response : Response) : Prop where
  discloses_iff : response.Discloses ↔ ∃ loaded ∈ s.library.lessonsJoined, request.Names loaded ∧ MaySee user loaded ∧
    Allows settings s.library user moment loaded ∧ request.IsThere s.library loaded ∧ ¬ request.HasCurrent s.library loaded
  isOfLesson : ∀ loaded ∈ s.library.lessonsJoined, request.Names loaded → response.Discloses →
    IsOfLesson settings s moment loaded response
  notFound : (∀ loaded ∈ s.library.lessonsJoined, request.Names loaded → ¬ MaySee user loaded) → response = .notFound
  entitlementDenied : ∀ loaded ∈ s.library.lessonsJoined, request.Names loaded → MaySee user loaded → ∀ decision,
    decisionOn settings s.library user moment loaded = .ok decision → decision.allowed = false →
      response = .entitlementDenied decision.reason decision.cta
  notModified : ∀ loaded ∈ s.library.lessonsJoined, request.Names loaded → MaySee user loaded →
    Allows settings s.library user moment loaded → request.HasCurrent s.library loaded → response = .notModified

/-! ### The gates -/

section Gates

variable {settings : Settings} {l : Library} {user : Caller} {moment : Moment} {loaded : LoadedLesson}
  {lookup : LoadedLesson → Prop} [DecidablePred lookup] {request : Request} {s s' : Site}

theorem isVisible_iff : isVisible user loaded = true ↔ MaySee user loaded := by
  rw [isVisible, MaySee]
  cases hsigned : user.signedIn with
  | none => simp [isPublished]
  | some account =>
    by_cases hstaff : account.role = .admin ∨ account.isSuperuser = true
    · simp [hstaff]
    · obtain ⟨hrole, hsuperuser⟩ := not_or.mp hstaff
      simp [hrole, hsuperuser, isPublished]

theorem exists_decisionOn (settings : Settings) (l : Library) (user : Caller) (moment : Moment) (loaded : LoadedLesson) :
    ∃ decision, decisionOn settings l user moment loaded = .ok decision := by
  obtain ⟨decision, hdecision, -⟩ := resolveAccess_spec settings.entitlementGracePeriodDays l.subscriptions l.overrides user
    ⟨loaded.lesson.isPreview, loaded.course.instructor⟩ moment.now moment.overridesNow
  exact ⟨decision, hdecision⟩

/-- Both gates, one after the other. -/
def passGates (settings : Settings) (l : Library) (user : Caller) (moment : Moment) (lookup : LoadedLesson → Prop)
    [DecidablePred lookup] : Except Raised LoadedLesson := do
  let loaded ← getObjectOr404 lookup (lessonsVisibleTo user l)
  isEntitledToLesson settings l user moment loaded
  return loaded

/-- What a request is served once it has passed. -/
def contents (settings : Settings) (s : Site) (moment : Moment) (loaded : LoadedLesson) :
    Request → Except Raised (Response × List (ETag × String))
  | .lesson _ => .ok (.lesson (gatedLessonSerializer loaded), s.cache)
  | .lessonBySlug _ _ => .ok (.lesson (gatedLessonSerializer loaded), s.cache)
  | .subtitles _ ifNoneMatch => sendSubtitles s.library loaded ifNoneMatch s.cache
  | .panel _ ifNoneMatch => .ok (sendPanel s.library loaded ifNoneMatch, s.cache)
  | .playbackToken _ => uncached s (catchNotPlayable (mint settings s.library moment loaded))

theorem passGates_bind {α : Type} (f : LoadedLesson → Except Raised α) :
    passGates settings l user moment lookup >>= f =
      getObjectOr404 lookup (lessonsVisibleTo user l) >>= fun loaded =>
        isEntitledToLesson settings l user moment loaded >>= fun _ => f loaded := by
  simp only [passGates, bind_assoc, pure_bind]

theorem uncached_bind {α : Type} (s : Site) (x : Except Raised α) (f : α → Except Raised Response) :
    uncached s (x >>= f) = x >>= fun a => uncached s (f a) := by
  cases x <;> rfl

/-- What the view catches comes from the mint, never from the decision. -/
theorem catchNotPlayable_issuePlaybackToken :
    catchNotPlayable (issuePlaybackToken settings l user moment loaded) =
      isEntitledToLesson settings l user moment loaded >>= fun _ => catchNotPlayable (mint settings l moment loaded) := by
  rw [issuePlaybackToken, isEntitledToLesson]
  cases decisionOn settings l user moment loaded with
  | error e => rfl
  | ok decision =>
    dsimp only
    split <;> rfl

/-- Every view goes through both gates first. -/
theorem view_eq (settings : Settings) (user : Caller) (s : Site) (moment : Moment) (request : Request) :
    view settings user s moment request =
      passGates settings s.library user moment request.Names >>= fun loaded => contents settings s moment loaded request := by
  rw [passGates_bind]
  cases request with
  | lesson pk =>
    simp only [view, lessonViewSet, uncached_bind]
    rfl
  | lessonBySlug courseSlug lessonSlug =>
    simp only [view, lessonBySlugView, uncached_bind]
    rfl
  | subtitles pk ifNoneMatch => rfl
  | panel pk ifNoneMatch =>
    simp only [view, lessonTranscriptPanelView, uncached_bind]
    rfl
  | playbackToken pk =>
    simp only [view, lessonPlaybackTokenView, catchNotPlayable_issuePlaybackToken, uncached_bind]
    rfl

/-- The first gate hides what it stops. -/
theorem passGates_of_hidden (h : ∀ loaded ∈ l.lessonsJoined, lookup loaded → ¬ MaySee user loaded) :
    passGates settings l user moment lookup = .error .http404 := by
  have hnone : one lookup (lessonsVisibleTo user l) = .error .noRow := by
    apply one_of_forall_not
    intro loaded hloaded hlookup
    obtain ⟨hjoined, hvisible⟩ := mem_lessonsVisibleTo.mp hloaded
    exact h loaded hjoined hlookup (isVisible_iff.mp hvisible)
  rw [passGates, getObjectOr404, hnone]
  rfl

/-- What the first gate lets through meets the second. -/
theorem passGates_of_maySee (hvalid : l.Valid) (hone : AtMostOne lookup l.lessonsJoined) (hloaded : loaded ∈ l.lessonsJoined)
    (hlookup : lookup loaded) (hsee : MaySee user loaded) {decision : AccessDecision}
    (hdecision : decisionOn settings l user moment loaded = .ok decision) :
    passGates settings l user moment lookup =
      if !decision.allowed then .error (.entitlementDenied decision) else .ok loaded := by
  have hvisible : loaded ∈ lessonsVisibleTo user l := mem_lessonsVisibleTo.mpr ⟨hloaded, isVisible_iff.mpr hsee⟩
  have hone' : AtMostOne lookup (lessonsVisibleTo user l) := fun a ha hkept b hb hkept' =>
    hone a (List.mem_of_mem_filter ha) hkept b (List.mem_of_mem_filter hb) hkept'
  rw [passGates, getObjectOr404, one_of_mem (nodup_lessonsVisibleTo hvalid user) hone' hvisible hlookup]
  show (isEntitledToLesson settings l user moment loaded >>= fun _ => pure loaded) = _
  rw [isEntitledToLesson, hdecision]
  dsimp only
  split <;> rfl

/-- No two lessons go by one name. -/
theorem atMostOne_names (hvalid : l.Valid) (request : Request) : AtMostOne request.Names l.lessonsJoined := by
  intro a ha hnames b hb hnames'
  cases request with
  | lessonBySlug courseSlug lessonSlug =>
    exact loaded_eq_of_slugs hvalid ha hb (hnames.1.trans hnames'.1.symm) (hnames.2.trans hnames'.2.symm)
  | lesson pk => exact loaded_eq_of_pk hvalid ha hb (Eq.trans hnames (Eq.symm hnames'))
  | subtitles pk ifNoneMatch => exact loaded_eq_of_pk hvalid ha hb (Eq.trans hnames (Eq.symm hnames'))
  | panel pk ifNoneMatch => exact loaded_eq_of_pk hvalid ha hb (Eq.trans hnames (Eq.symm hnames'))
  | playbackToken pk => exact loaded_eq_of_pk hvalid ha hb (Eq.trans hnames (Eq.symm hnames'))

end Gates

/-! ### What is behind them -/

section Contents

variable {settings : Settings} {l : Library} {s : Site} {moment : Moment} {loaded : LoadedLesson}
  {ifNoneMatch : Option ETag} {request : Request} {response : Response} {transcript : LoadedTranscript}

/-- What a request is served, and that it is what is there. -/
structure IsServed (settings : Settings) (s : Site) (moment : Moment) (loaded : LoadedLesson) (request : Request)
    (response : Response) : Prop where
  discloses_iff : response.Discloses ↔ request.IsThere s.library loaded ∧ ¬ request.HasCurrent s.library loaded
  isOfLesson : response.Discloses → IsOfLesson settings s moment loaded response
  notModified : request.HasCurrent s.library loaded → response = .notModified

/-- With the approved transcript in hand, what is there and what the caller has are read off it. -/
theorem exists_approved_iff (hfind : approvedTranscriptFor l loaded = some transcript) (hvalid : l.Valid)
    {P : LoadedTranscript → Prop} :
    (∃ other ∈ l.transcriptsJoined, l.IsApprovedFor loaded other ∧ P other) ↔ P transcript := by
  obtain ⟨hmem, happroved⟩ := (approvedTranscriptFor_eq_some hvalid).mp hfind
  constructor
  · rintro ⟨other, hother, happroved', hP⟩
    rwa [atMostOne_isApprovedFor hvalid loaded transcript hmem happroved other hother happroved']
  · intro hP
    exact ⟨transcript, hmem, happroved, hP⟩

theorem not_approved (hfind : approvedTranscriptFor l loaded = none) :
    ∀ transcript ∈ l.transcriptsJoined, ¬ l.IsApprovedFor loaded transcript := by
  simpa [approvedTranscriptFor] using hfind

/-- The two transcript views agree on what is there and what is new. -/
theorem isThere_and_new_iff (hfind : approvedTranscriptFor l loaded = some transcript) (hvalid : l.Valid) (pk : Uuid) :
    (Request.subtitles pk ifNoneMatch).IsThere l loaded ∧ ¬ (Request.subtitles pk ifNoneMatch).HasCurrent l loaded ↔
      ifNoneMatch ≠ some (etagOf transcript.row.transcript) := by
  obtain ⟨hmem, happroved⟩ := (approvedTranscriptFor_eq_some hvalid).mp hfind
  simp only [Request.IsThere, Request.HasCurrent, exists_approved_iff hfind hvalid]
  exact and_iff_right ⟨transcript, hmem, happroved⟩

theorem isServed_noTranscript (hfind : approvedTranscriptFor s.library loaded = none) (pk : Uuid) :
    IsServed settings s moment loaded (.subtitles pk ifNoneMatch) .noTranscript where
  discloses_iff := by
    refine iff_of_false id ?_
    rintro ⟨⟨transcript, hmem, happroved⟩, -⟩
    exact not_approved hfind transcript hmem happroved
  isOfLesson := False.elim
  notModified := by
    rintro ⟨transcript, hmem, happroved, -⟩
    exact absurd happroved (not_approved hfind transcript hmem)

theorem isServed_notModified (hfind : approvedTranscriptFor s.library loaded = some transcript) (hvalid : s.library.Valid)
    (hcurrent : ifNoneMatch = some (etagOf transcript.row.transcript)) (pk : Uuid) :
    IsServed settings s moment loaded (.subtitles pk ifNoneMatch) .notModified where
  discloses_iff := by
    rw [isThere_and_new_iff hfind hvalid]
    exact iff_of_false id fun hnew => hnew hcurrent
  isOfLesson := False.elim
  notModified := fun _ => rfl

/-- A response with content, to whoever does not have it yet. -/
theorem isServed_of_new (response : Response) (hfind : approvedTranscriptFor s.library loaded = some transcript)
    (hvalid : s.library.Valid)
    (hnew : ifNoneMatch ≠ some (etagOf transcript.row.transcript)) (hdiscloses : response.Discloses)
    (hof : IsOfLesson settings s moment loaded response) (pk : Uuid) :
    IsServed settings s moment loaded (.subtitles pk ifNoneMatch) response where
  discloses_iff := by
    rw [isThere_and_new_iff hfind hvalid]
    exact iff_of_true hdiscloses hnew
  isOfLesson := fun _ => hof
  notModified := fun hcurrent => absurd hcurrent ((isThere_and_new_iff hfind hvalid pk).mpr hnew).2

/-- Afterwards the cache has a body under the version, and under the others what it had. -/
theorem exists_getOrSet {render : Except String String} {rendered : String} (version : ETag)
    (hrender : render = .ok rendered) (cache : List (ETag × String)) :
    ∃ cache', getOrSet version render cache = .ok ((cache.lookup version).getD rendered, cache') ∧
      ∀ other, cache'.lookup other =
        if other = version then some ((cache.lookup version).getD rendered) else cache.lookup other := by
  subst hrender
  unfold getOrSet
  cases hcached : cache.lookup version with
  | some body =>
    refine ⟨cache, rfl, fun other => ?_⟩
    split
    · rename_i hsame
      rw [hsame, hcached]
      rfl
    · rfl
  | none =>
    refine ⟨(version, rendered) :: cache, rfl, fun other => ?_⟩
    rw [List.lookup_cons]
    by_cases hsame : other = version
    · rw [if_pos hsame, beq_iff_eq.mpr hsame]
      rfl
    · rw [if_neg hsame, beq_eq_false_iff_ne.mpr hsame]

theorem sendSubtitles_served (hvalid : s.library.Valid) (pk : Uuid) :
    ∃ response cache, sendSubtitles s.library loaded ifNoneMatch s.cache = .ok (response, cache) ∧
      IsServed settings s moment loaded (.subtitles pk ifNoneMatch) response := by
  rw [sendSubtitles]
  cases hfind : approvedTranscriptFor s.library loaded with
  | none => exact ⟨.noTranscript, s.cache, rfl, isServed_noTranscript hfind pk⟩
  | some transcript =>
    obtain ⟨hmem, happroved⟩ := (approvedTranscriptFor_eq_some hvalid).mp hfind
    dsimp only
    by_cases hcurrent : ifNoneMatch = some (etagOf transcript.row.transcript)
    · rw [if_pos hcurrent]
      exact ⟨.notModified, s.cache, rfl, isServed_notModified hfind hvalid hcurrent pk⟩
    · rw [if_neg hcurrent]
      obtain ⟨rendered, hrendered⟩ := exists_renderVtt (hvalid.segments _ (mem_transcriptsJoined.mp hmem).1)
      obtain ⟨cache, hset, -⟩ := exists_getOrSet (etagOf transcript.row.transcript) hrendered s.cache
      rw [hset]
      refine ⟨.subtitles _ _, cache, rfl, isServed_of_new (.subtitles _ _) hfind hvalid hcurrent trivial ?_ pk⟩
      refine ⟨transcript, hmem, happroved, rfl, ?_⟩
      cases hcached : s.cache.lookup (etagOf transcript.row.transcript) with
      | some body => exact .inl rfl
      | none => exact .inr hrendered

theorem sendPanel_served (hvalid : s.library.Valid) (pk : Uuid) :
    IsServed settings s moment loaded (.panel pk ifNoneMatch) (sendPanel s.library loaded ifNoneMatch) := by
  -- To the panel's request the same is there, and new, as to the one for subtitles.
  suffices h : IsServed settings s moment loaded (.subtitles pk ifNoneMatch) (sendPanel s.library loaded ifNoneMatch) from
    ⟨h.discloses_iff, h.isOfLesson, h.notModified⟩
  rw [sendPanel]
  cases hfind : approvedTranscriptFor s.library loaded with
  | none => exact isServed_noTranscript hfind pk
  | some transcript =>
    obtain ⟨hmem, happroved⟩ := (approvedTranscriptFor_eq_some hvalid).mp hfind
    dsimp only
    by_cases hcurrent : ifNoneMatch = some (etagOf transcript.row.transcript)
    · rw [if_pos hcurrent]
      exact isServed_notModified hfind hvalid hcurrent pk
    · rw [if_neg hcurrent]
      exact isServed_of_new (.panel _ _) hfind hvalid hcurrent trivial ⟨transcript, hmem, happroved, rfl, rfl⟩ pk

theorem isThere_playbackToken_iff (hvalid : l.Valid) (pk : Uuid) :
    (Request.playbackToken pk).IsThere l loaded ↔ ∃ asset, mediaAssetOf l loaded = some asset ∧ asset.status = .ready := by
  constructor
  · rintro ⟨row, hrow, hlesson, hstatus⟩
    refine ⟨row.mediaAsset, (mediaAssetOf_eq_some hvalid).mpr ?_, hstatus⟩
    rw [← hlesson]
    exact hrow
  · rintro ⟨asset, hasset, hstatus⟩
    exact ⟨_, (mediaAssetOf_eq_some hvalid).mp hasset, rfl, hstatus⟩

theorem isServed_notPlayable (hvalid : s.library.Valid) (pk : Uuid) (status : Option MediaAssets.MediaAssetStatus)
    (hready : ¬ ∃ asset, mediaAssetOf s.library loaded = some asset ∧ asset.status = .ready) :
    IsServed settings s moment loaded (.playbackToken pk) (.notPlayable status) where
  discloses_iff := by
    rw [isThere_playbackToken_iff hvalid]
    exact iff_of_false id fun hthere => hready hthere.1
  isOfLesson := False.elim
  notModified := False.elim

theorem mint_served (settings : Settings) (hvalid : s.library.Valid) (moment : Moment) (loaded : LoadedLesson) (pk : Uuid) :
    ∃ response, catchNotPlayable (mint settings s.library moment loaded) = .ok response ∧
      IsServed settings s moment loaded (.playbackToken pk) response := by
  rw [mint]
  cases hasset : mediaAssetOf s.library loaded with
  | none => exact ⟨.notPlayable none, rfl, isServed_notPlayable hvalid pk _ (by simp [hasset])⟩
  | some asset =>
    dsimp only
    by_cases hstatus : asset.status = .ready
    · rw [if_neg (not_not_intro hstatus)]
      have hthere := (isThere_playbackToken_iff hvalid pk).mpr ⟨asset, hasset, hstatus⟩
      refine ⟨_, rfl, iff_of_true trivial ⟨hthere, id⟩, fun _ => ?_, False.elim⟩
      exact ⟨_, (mediaAssetOf_eq_some hvalid).mp hasset, rfl, hstatus, rfl⟩
    · rw [if_pos hstatus]
      exact ⟨.notPlayable (some asset.status), rfl, isServed_notPlayable hvalid pk _ (by simpa [hasset] using hstatus)⟩

theorem contents_served (settings : Settings) (hvalid : s.library.Valid) (moment : Moment) (loaded : LoadedLesson)
    (request : Request) :
    ∃ response cache, contents settings s moment loaded request = .ok (response, cache) ∧
      IsServed settings s moment loaded request response := by
  cases request with
  | lesson pk => exact ⟨_, _, rfl, iff_of_true trivial ⟨trivial, id⟩, fun _ => rfl, False.elim⟩
  | lessonBySlug courseSlug lessonSlug =>
    exact ⟨_, _, rfl, iff_of_true trivial ⟨trivial, id⟩, fun _ => rfl, False.elim⟩
  | subtitles pk ifNoneMatch => exact sendSubtitles_served hvalid pk
  | panel pk ifNoneMatch => exact ⟨_, _, rfl, sendPanel_served hvalid pk⟩
  | playbackToken pk =>
    obtain ⟨response, hminted, hserved⟩ := mint_served settings hvalid moment loaded pk
    refine ⟨response, s.cache, ?_, hserved⟩
    rw [contents, hminted]
    rfl

end Contents

/-! ### One request -/

section OneRequest

variable {settings : Settings} {user : Caller} {s s' : Site} {moment : Moment} {loaded other : LoadedLesson}
  {request : Request} {decision : AccessDecision}

/-- The lesson a request names is past the first gate, and this is what the second decides. -/
structure AtGate (settings : Settings) (user : Caller) (s : Site) (moment : Moment) (request : Request)
    (loaded : LoadedLesson) (decision : AccessDecision) : Prop where
  joined : loaded ∈ s.library.lessonsJoined
  named : request.Names loaded
  seen : MaySee user loaded
  decided : decisionOn settings s.library user moment loaded = .ok decision

/-- The lesson a request names is not past the first gate. -/
def IsHidden (user : Caller) (s : Site) (request : Request) : Prop :=
  ∀ loaded ∈ s.library.lessonsJoined, request.Names loaded → ¬ MaySee user loaded

theorem isHidden_or_atGate (settings : Settings) (user : Caller) (s : Site) (moment : Moment) (request : Request) :
    IsHidden user s request ∨ ∃ loaded decision, AtGate settings user s moment request loaded decision := by
  by_cases hhidden : IsHidden user s request
  · exact .inl hhidden
  · obtain ⟨loaded, hjoined, hnamed, hseen⟩ :
        ∃ loaded ∈ s.library.lessonsJoined, request.Names loaded ∧ MaySee user loaded := by
      simpa [IsHidden] using hhidden
    obtain ⟨decision, hdecided⟩ := exists_decisionOn settings s.library user moment loaded
    exact .inr ⟨loaded, decision, hjoined, hnamed, hseen, hdecided⟩

theorem AtGate.eq (h : AtGate settings user s moment request loaded decision) (hother : other ∈ s.library.lessonsJoined)
    (hnamed : request.Names other) : other = loaded :=
  atMostOne_names s.valid request other hother hnamed loaded h.joined h.named

theorem AtGate.allows_iff (h : AtGate settings user s moment request loaded decision) :
    Allows settings s.library user moment loaded ↔ decision.allowed = true := by
  simp [Allows, h.decided]

theorem AtGate.passGates (h : AtGate settings user s moment request loaded decision) :
    passGates settings s.library user moment request.Names =
      if !decision.allowed then .error (.entitlementDenied decision) else .ok loaded :=
  passGates_of_maySee s.valid (atMostOne_names s.valid request) h.joined h.named h.seen h.decided

theorem respond_of_hidden (h : IsHidden user s request) : respond settings user s moment request = (s, .notFound) := by
  rw [respond, view_eq, passGates_of_hidden h]
  rfl

theorem AtGate.respond_of_refused (h : AtGate settings user s moment request loaded decision)
    (hrefused : decision.allowed = false) :
    respond settings user s moment request = (s, .entitlementDenied decision.reason decision.cta) := by
  rw [respond, view_eq, h.passGates, hrefused]
  rfl

theorem AtGate.respond_of_allowed (h : AtGate settings user s moment request loaded decision)
    (hallowed : decision.allowed = true) {response : Response} {cache : List (ETag × String)}
    (hcontents : contents settings s moment loaded request = .ok (response, cache)) :
    respond settings user s moment request = ({ s with cache := cache }, response) := by
  have hview : view settings user s moment request = contents settings s moment loaded request := by
    rw [view_eq, h.passGates, hallowed]
    rfl
  rw [respond, hview, hcontents]

theorem isGated_of_hidden (h : IsHidden user s request) : IsGated settings user s moment request .notFound where
  discloses_iff := by
    refine iff_of_false id ?_
    rintro ⟨loaded, hloaded, hnamed, hseen, -⟩
    exact h loaded hloaded hnamed hseen
  isOfLesson := fun _ _ _ => False.elim
  notFound := fun _ => rfl
  entitlementDenied := fun loaded hloaded hnamed hseen => absurd hseen (h loaded hloaded hnamed)
  notModified := fun loaded hloaded hnamed hseen => absurd hseen (h loaded hloaded hnamed)

/-- A refusal names its reason. -/
theorem AtGate.isGated_of_refused (h : AtGate settings user s moment request loaded decision)
    (hrefused : decision.allowed = false) :
    IsGated settings user s moment request (.entitlementDenied decision.reason decision.cta) where
  discloses_iff := by
    refine iff_of_false id ?_
    rintro ⟨other, hother, hnamed, -, hallows, -⟩
    rw [h.eq hother hnamed, h.allows_iff, hrefused] at hallows
    cases hallows
  isOfLesson := fun _ _ _ => False.elim
  notFound := fun hnone => absurd h.seen (hnone loaded h.joined h.named)
  entitlementDenied := by
    intro other hother hnamed _ decision' hdecision' _
    rw [h.eq hother hnamed, h.decided, Except.ok.injEq] at hdecision'
    rw [hdecision']
  notModified := by
    intro other hother hnamed _ hallows
    rw [h.eq hother hnamed, h.allows_iff, hrefused] at hallows
    cases hallows

/-- Past both gates, what is served is all there is to say. -/
theorem AtGate.isGated_of_allowed (h : AtGate settings user s moment request loaded decision)
    (hallowed : decision.allowed = true) {response : Response} (hserved : IsServed settings s moment loaded request response) :
    IsGated settings user s moment request response where
  discloses_iff := by
    rw [hserved.discloses_iff]
    constructor
    · intro hthere
      exact ⟨loaded, h.joined, h.named, h.seen, h.allows_iff.mpr hallowed, hthere⟩
    · rintro ⟨other, hother, hnamed, -, -, hthere⟩
      exact h.eq hother hnamed ▸ hthere
  isOfLesson := fun other hother hnamed hdiscloses => h.eq hother hnamed ▸ hserved.isOfLesson hdiscloses
  notFound := fun hnone => absurd h.seen (hnone loaded h.joined h.named)
  entitlementDenied := by
    intro other hother hnamed _ decision' hdecision' hrefused
    rw [h.eq hother hnamed, h.decided, Except.ok.injEq] at hdecision'
    rw [← hdecision', hallowed] at hrefused
    cases hrefused
  notModified := fun other hother hnamed _ _ hcurrent => hserved.notModified (h.eq hother hnamed ▸ hcurrent)

theorem respond_isGated (settings : Settings) (user : Caller) (s : Site) (moment : Moment) (request : Request) :
    IsGated settings user s moment request (respond settings user s moment request).2 := by
  rcases isHidden_or_atGate settings user s moment request with hhidden | ⟨loaded, decision, hgate⟩
  · rw [respond_of_hidden hhidden]
    exact isGated_of_hidden hhidden
  · cases hallowed : decision.allowed with
    | false =>
      rw [hgate.respond_of_refused hallowed]
      exact hgate.isGated_of_refused hallowed
    | true =>
      obtain ⟨response, cache, hcontents, hserved⟩ := contents_served settings s.valid moment loaded request
      rw [hgate.respond_of_allowed hallowed hcontents]
      exact hgate.isGated_of_allowed hallowed hserved

end OneRequest

/-! ### What the gates alone do not promise -/

/-- Both gates and an approved transcript, of whatever kind, are all it takes to be sent subtitles. -/
def GatesSuffice (settings : Settings) (user : Caller) (s : Site) (moment : Moment) (pk : Uuid) (ifNoneMatch : Option ETag) :
    Prop :=
  (respond settings user s moment (.subtitles pk ifNoneMatch)).2.Discloses ↔
    ∃ loaded ∈ s.library.lessonsJoined, loaded.lesson.pk = pk ∧ MaySee user loaded ∧
      Allows settings s.library user moment loaded ∧
        ∃ transcript ∈ s.library.transcriptsJoined, s.library.IsOf loaded transcript ∧
          transcript.row.transcript.status = .approved

def greetings : LoadedLesson where
  lesson := ⟨⟨5, 3, 4, "greetings", "Greetings", "Hola", .video, 0, true, 0⟩, 0⟩
  course := ⟨3, "spanish-a1", "Spanish A1", "", 1, .a1, [], 7, .published, some 0, none, 0⟩

/-- An approved transcript of the preview lesson. -/
def greeting (kind : TranscriptKind) : LoadedTranscript where
  row :=
    { transcript := { Transcript.new 9 8 7 "es" 0 with
        kind := kind, status := .approved, reviewedBy := some 7, approvedAt := some 0 }
      segments := [⟨1, 0, 0, 1000, "Hola", false, 0⟩] }
  language := ⟨1, "es", "Spanish"⟩

def shelf (kind : TranscriptKind) : Library where
  languages := [(greeting kind).language]
  courses := [greetings.course]
  lessons := [greetings.lesson]
  assets := [⟨5, ⟨8, ⟨5, "token", "mp4"⟩, 1, "", "fake", "asset", "playback", some 60, .ready, "", 0, 0⟩⟩]
  transcripts := [(greeting kind).row]
  subscriptions := []
  overrides := []

theorem shelf_valid (kind : TranscriptKind) : (shelf kind).Valid := by
  cases kind <;> decide

def openShelf (kind : TranscriptKind) : Site := ⟨⟨shelf kind, shelf_valid kind⟩, []⟩

def today : Moment := ⟨0, 0, fun playbackId _ => ⟨"signed", playbackId, 0⟩⟩

/-- Words that have not changed are not sent again, and a translation is not what a lesson's subtitles are. -/
theorem gates_do_not_suffice :
    ¬ GatesSuffice ⟨3, 300⟩ .anonymous (openShelf .target) today 5 (some (etagOf (greeting .target).row.transcript)) ∧
      ¬ GatesSuffice ⟨3, 300⟩ .anonymous (openShelf .translation) today 5 none := by
  have hloaded : ∀ kind, greetings ∈ (openShelf kind).library.lessonsJoined := fun kind => by cases kind <;> decide
  have hsee : MaySee .anonymous greetings := .inl rfl
  have hallows : ∀ kind, Allows ⟨3, 300⟩ (openShelf kind).library .anonymous today greetings :=
    fun kind => ⟨ALLOW_PREVIEW, rfl, rfl⟩
  have hgreeting : ∀ kind, greeting kind ∈ (openShelf kind).library.transcriptsJoined ∧
      (openShelf kind).library.IsOf greetings (greeting kind) := fun kind => by cases kind <;> decide
  have hsuffice : ∀ kind ifNoneMatch, GatesSuffice ⟨3, 300⟩ .anonymous (openShelf kind) today 5 ifNoneMatch →
      (respond ⟨3, 300⟩ .anonymous (openShelf kind) today (.subtitles 5 ifNoneMatch)).2.Discloses := by
    intro kind ifNoneMatch h
    exact h.mpr ⟨greetings, hloaded kind, rfl, hsee, hallows kind, greeting kind, (hgreeting kind).1, (hgreeting kind).2, rfl⟩
  have hgated := respond_isGated ⟨3, 300⟩ .anonymous
  constructor
  · generalize hversion : etagOf (greeting .target).row.transcript = version
    intro h
    have hcurrent : (Request.subtitles 5 (some version)).HasCurrent (openShelf .target).library greetings :=
      ⟨greeting .target, (hgreeting .target).1, ⟨(hgreeting .target).2, rfl, rfl, rfl⟩, congrArg some hversion.symm⟩
    have hunchanged := (hgated (openShelf .target) today (.subtitles 5 (some version))).notModified greetings
      (hloaded .target) rfl hsee (hallows .target) hcurrent
    have hdiscloses := hsuffice .target _ h
    rw [hunchanged] at hdiscloses
    exact hdiscloses
  · intro h
    obtain ⟨loaded, -, -, -, -, ⟨transcript, hmem, -, -, hkind, -⟩, -⟩ :=
      (hgated _ _ _).discloses_iff.mp (hsuffice .translation none h)
    have htranslation : ∀ transcript ∈ (openShelf .translation).library.transcriptsJoined,
        transcript.row.transcript.kind ≠ .target := by decide
    exact htranslation transcript hmem hkind

end EPlatform.Reading
