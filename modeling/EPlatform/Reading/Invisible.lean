import EPlatform.Reading.Gates

/-!
# Nothing about hidden lessons

Two states that differ in nothing but lessons a caller may not see give it the same answers, request after request. The cache
is part of the state: what a request leaves in it is decided by what the caller may see.
-/

namespace EPlatform.Reading

open Runs Runs.Query Entitlements Transcripts

/-- Two states that differ, for this caller, in nothing but lessons that are invisible to it. -/
structure SameFor (user : Caller) (s s' : Site) : Prop where
  subscriptions : s.library.subscriptions = s'.library.subscriptions
  overrides : s.library.overrides = s'.library.overrides
  lessons : ∀ loaded, MaySee user loaded → (loaded ∈ s.library.lessonsJoined ↔ loaded ∈ s'.library.lessonsJoined)
  assets : ∀ loaded ∈ s.library.lessonsJoined, MaySee user loaded → ∀ asset, asset.lesson = loaded.lesson.pk →
    (asset ∈ s.library.assets ↔ asset ∈ s'.library.assets)
  transcripts : ∀ loaded ∈ s.library.lessonsJoined, MaySee user loaded → ∀ transcript,
    (transcript ∈ s.library.transcriptsJoined ∧ s.library.IsOf loaded transcript ↔
      transcript ∈ s'.library.transcriptsJoined ∧ s'.library.IsOf loaded transcript)
  cache : ∀ loaded ∈ s.library.lessonsJoined, MaySee user loaded → ∀ transcript ∈ s.library.transcriptsJoined,
    s.library.IsOf loaded transcript →
      s.cache.lookup (etagOf transcript.row.transcript) = s'.cache.lookup (etagOf transcript.row.transcript)

/-! ### Two runs -/

section TwoRuns

variable {settings : Settings} {user : Caller} {s s' : Site} {moment : Moment} {loaded : LoadedLesson} {request : Request}

theorem SameFor.withCache (h : SameFor user s s') {cache cache' : List (ETag × String)}
    (hcache : ∀ version, s.cache.lookup version = s'.cache.lookup version → cache.lookup version = cache'.lookup version) :
    SameFor user { s with cache := cache } { s' with cache := cache' } :=
  { h with cache := fun loaded hloaded hsee transcript htranscript hof =>
      hcache _ (h.cache loaded hloaded hsee transcript htranscript hof) }

theorem SameFor.decisionOn_eq (h : SameFor user s s') :
    decisionOn settings s'.library user moment loaded = decisionOn settings s.library user moment loaded := by
  rw [decisionOn, decisionOn, h.subscriptions, h.overrides]

theorem SameFor.approvedTranscriptFor_eq (h : SameFor user s s') (hloaded : loaded ∈ s.library.lessonsJoined)
    (hsee : MaySee user loaded) : approvedTranscriptFor s'.library loaded = approvedTranscriptFor s.library loaded := by
  refine find_congr_of_atMostOne (atMostOne_isApprovedFor s'.valid loaded) (atMostOne_isApprovedFor s.valid loaded) ?_
  intro transcript
  have hsame := h.transcripts loaded hloaded hsee transcript
  simp only [Library.IsApprovedFor, ← and_assoc]
  rw [hsame]

theorem SameFor.mediaAssetOf_eq (h : SameFor user s s') (hloaded : loaded ∈ s.library.lessonsJoined)
    (hsee : MaySee user loaded) : mediaAssetOf s'.library loaded = mediaAssetOf s.library loaded := by
  apply Option.ext
  intro asset
  rw [mediaAssetOf_eq_some s'.valid, mediaAssetOf_eq_some s.valid]
  exact (h.assets loaded hloaded hsee _ rfl).symm

/-- Subtitles are sent alike: from the caches if both have them, and rendered from the same rows if neither has. -/
theorem SameFor.sendSubtitles_eq (h : SameFor user s s') (hloaded : loaded ∈ s.library.lessonsJoined)
    (hsee : MaySee user loaded) (ifNoneMatch : Option ETag) :
    ∃ response cache cache', sendSubtitles s.library loaded ifNoneMatch s.cache = .ok (response, cache) ∧
      sendSubtitles s'.library loaded ifNoneMatch s'.cache = .ok (response, cache') ∧
        SameFor user { s with cache := cache } { s' with cache := cache' } := by
  simp only [sendSubtitles, h.approvedTranscriptFor_eq hloaded hsee]
  cases hfind : approvedTranscriptFor s.library loaded with
  | none => exact ⟨_, _, _, rfl, rfl, h⟩
  | some transcript =>
    obtain ⟨hmem, happroved⟩ := (approvedTranscriptFor_eq_some s.valid).mp hfind
    dsimp only
    split
    · exact ⟨_, _, _, rfl, rfl, h⟩
    · obtain ⟨rendered, hrendered⟩ := exists_renderVtt (s.valid.segments _ (mem_transcriptsJoined.mp hmem).1)
      obtain ⟨cache, hset, hafter⟩ := exists_getOrSet (etagOf transcript.row.transcript) hrendered s.cache
      obtain ⟨cache', hset', hafter'⟩ := exists_getOrSet (etagOf transcript.row.transcript) hrendered s'.cache
      have hcached := h.cache loaded hloaded hsee transcript hmem happroved.1
      rw [← hcached] at hset' hafter'
      rw [hset, hset']
      refine ⟨_, cache, cache', rfl, rfl, h.withCache fun version hversion => ?_⟩
      rw [hafter, hafter', hversion]

theorem SameFor.contents_eq (h : SameFor user s s') (settings : Settings) (moment : Moment) (request : Request)
    (hloaded : loaded ∈ s.library.lessonsJoined) (hsee : MaySee user loaded) :
    ∃ response cache cache', contents settings s moment loaded request = .ok (response, cache) ∧
      contents settings s' moment loaded request = .ok (response, cache') ∧
        SameFor user { s with cache := cache } { s' with cache := cache' } := by
  cases request with
  | lesson pk => exact ⟨_, _, _, rfl, rfl, h⟩
  | lessonBySlug courseSlug lessonSlug => exact ⟨_, _, _, rfl, rfl, h⟩
  | subtitles pk ifNoneMatch => exact h.sendSubtitles_eq hloaded hsee ifNoneMatch
  | panel pk ifNoneMatch =>
    simp only [contents, sendPanel, h.approvedTranscriptFor_eq hloaded hsee]
    exact ⟨_, _, _, rfl, rfl, h⟩
  | playbackToken pk =>
    obtain ⟨response, hminted, -⟩ := mint_served settings s.valid moment loaded pk
    have hminted' : catchNotPlayable (mint settings s'.library moment loaded) = .ok response := by
      rw [← hminted, mint, mint, h.mediaAssetOf_eq hloaded hsee]
    simp only [contents, hminted, hminted']
    exact ⟨_, _, _, rfl, rfl, h⟩

theorem SameFor.isHidden (h : SameFor user s s') (hhidden : IsHidden user s request) : IsHidden user s' request :=
  fun loaded hloaded hnamed hseen => hhidden loaded ((h.lessons loaded hseen).mpr hloaded) hnamed hseen

theorem SameFor.atGate (h : SameFor user s s') {decision : AccessDecision}
    (hgate : AtGate settings user s moment request loaded decision) :
    AtGate settings user s' moment request loaded decision where
  joined := (h.lessons loaded hgate.seen).mp hgate.joined
  named := hgate.named
  seen := hgate.seen
  decided := h.decisionOn_eq.trans hgate.decided

/-- A request is answered alike, and what it leaves behind in the cache is alike. -/
theorem SameFor.respond_eq (h : SameFor user s s') (settings : Settings) (moment : Moment) (request : Request) :
    (respond settings user s moment request).2 = (respond settings user s' moment request).2 ∧
      SameFor user (respond settings user s moment request).1 (respond settings user s' moment request).1 := by
  rcases isHidden_or_atGate settings user s moment request with hhidden | ⟨loaded, decision, hgate⟩
  · rw [respond_of_hidden hhidden, respond_of_hidden (h.isHidden hhidden)]
    exact ⟨rfl, h⟩
  · have hgate' := h.atGate hgate
    cases hallowed : decision.allowed with
    | false =>
      rw [hgate.respond_of_refused hallowed, hgate'.respond_of_refused hallowed]
      exact ⟨rfl, h⟩
    | true =>
      obtain ⟨response, cache, cache', hcontents, hcontents', hsame⟩ :=
        h.contents_eq settings moment request hgate.joined hgate.seen
      rw [hgate.respond_of_allowed hallowed hcontents, hgate'.respond_of_allowed hallowed hcontents']
      exact ⟨rfl, hsame⟩

theorem lookup_expire (version other : ETag) (cache : List (ETag × String)) :
    (cache.filter (·.1 ≠ version)).lookup other = if other = version then none else cache.lookup other := by
  induction cache with
  | nil => simp
  | cons entry cache ih =>
    obtain ⟨key, body⟩ := entry
    by_cases hkey : key = version
    · rw [List.filter_cons_of_neg (by simpa using hkey), ih, List.lookup_cons]
      split
      · rfl
      · rename_i hother
        rw [beq_eq_false_iff_ne.mpr (hkey ▸ hother)]
    · rw [List.filter_cons_of_pos (by simpa using hkey), List.lookup_cons, List.lookup_cons, ih]
      by_cases hsame : other = key
      · subst hsame
        rw [beq_self_eq_true, if_neg hkey, if_neg hkey]
      · rw [beq_eq_false_iff_ne.mpr hsame]

theorem unobservable_sameFor (settings : Settings) (user : Caller) :
    Unobservable (Site.handle settings user) (SameFor user) where
  reply_eq := by
    intro s s' event h
    cases event with
    | request moment request => exact congrArg some (h.respond_eq settings moment request).1
    | expire version => rfl
  keeps := by
    intro s s' event h
    cases event with
    | request moment request => exact (h.respond_eq settings moment request).2
    | expire version =>
      refine h.withCache fun other hother => ?_
      rw [lookup_expire, lookup_expire, hother]

end TwoRuns

/-! ### Without what is invisible -/

section OnlyVisible

variable {user : Caller} {l : Library} {s : Site} {loaded : LoadedLesson}

/-- The lessons that are visible to a caller, and what hangs off them. -/
def onlyVisible (user : Caller) (l : Library) : Library :=
  { l with
    lessons := l.lessons.filter fun lesson => ∃ loaded ∈ lessonsVisibleTo user l, loaded.lesson = lesson
    assets := l.assets.filter fun asset => ∃ loaded ∈ lessonsVisibleTo user l, loaded.lesson.pk = asset.lesson
    transcripts := l.transcripts.filter fun row =>
      ∃ asset ∈ l.assets, asset.mediaAsset.pk = row.transcript.mediaAsset ∧
        ∃ loaded ∈ lessonsVisibleTo user l, loaded.lesson.pk = asset.lesson }

theorem unique_filter {κ ρ : Type} {key : ρ → κ} {rows : List ρ} (h : Table.Unique key rows) (keep : ρ → Bool) :
    Table.Unique key (rows.filter keep) := h.sublist (List.filter_sublist.map key)

theorem onlyVisible_valid (user : Caller) (hvalid : l.Valid) : (onlyVisible user l).Valid :=
  { hvalid with
    lessonKeys := unique_filter hvalid.lessonKeys _
    lessonSlugUniquePerCourse := unique_filter hvalid.lessonSlugUniquePerCourse _
    assetKeys := unique_filter hvalid.assetKeys _
    oneAssetPerLesson := unique_filter hvalid.oneAssetPerLesson _
    transcriptKeys := unique_filter hvalid.transcriptKeys _
    transcriptUniquePerLanguageAndKind := unique_filter hvalid.transcriptUniquePerLanguageAndKind _
    segments := fun row hrow => hvalid.segments row (List.mem_of_mem_filter hrow) }

/-- The database with nothing in it that the caller may not see. -/
def Site.onlyVisible (user : Caller) (s : Site) : Site :=
  ⟨⟨Reading.onlyVisible user s.library, onlyVisible_valid user s.valid⟩, s.cache⟩

theorem isOf_onlyVisible {transcript : LoadedTranscript} (hvisible : loaded ∈ lessonsVisibleTo user l) :
    (onlyVisible user l).IsOf loaded transcript ↔ l.IsOf loaded transcript := by
  constructor
  · rintro ⟨asset, hasset, hof, hlesson⟩
    exact ⟨asset, List.mem_of_mem_filter hasset, hof, hlesson⟩
  · rintro ⟨asset, hasset, hof, hlesson⟩
    exact ⟨asset, List.mem_filter.mpr ⟨hasset, decide_eq_true ⟨loaded, hvisible, hlesson.symm⟩⟩, hof, hlesson⟩

/-- What is invisible to a caller might as well not be there. -/
theorem sameFor_onlyVisible (user : Caller) (s : Site) : SameFor user s (s.onlyVisible user) where
  subscriptions := rfl
  overrides := rfl
  lessons := by
    intro loaded hsee
    rw [mem_lessonsJoined, mem_lessonsJoined]
    constructor
    · rintro ⟨hlesson, hcourse, hkey⟩
      have hvisible : loaded ∈ lessonsVisibleTo user s.library :=
        mem_lessonsVisibleTo.mpr ⟨mem_lessonsJoined.mpr ⟨hlesson, hcourse, hkey⟩, isVisible_iff.mpr hsee⟩
      exact ⟨List.mem_filter.mpr ⟨hlesson, decide_eq_true ⟨loaded, hvisible, rfl⟩⟩, hcourse, hkey⟩
    · rintro ⟨hlesson, hcourse, hkey⟩
      exact ⟨List.mem_of_mem_filter hlesson, hcourse, hkey⟩
  assets := by
    intro loaded hloaded hsee asset hlesson
    have hvisible := mem_lessonsVisibleTo.mpr ⟨hloaded, isVisible_iff.mpr hsee⟩
    constructor
    · intro hasset
      exact List.mem_filter.mpr ⟨hasset, decide_eq_true ⟨loaded, hvisible, hlesson.symm⟩⟩
    · exact List.mem_of_mem_filter
  transcripts := by
    intro loaded hloaded hsee transcript
    have hvisible := mem_lessonsVisibleTo.mpr ⟨hloaded, isVisible_iff.mpr hsee⟩
    have hof : (s.onlyVisible user).library.IsOf loaded transcript ↔ s.library.IsOf loaded transcript :=
      isOf_onlyVisible hvisible
    rw [hof, mem_transcriptsJoined, mem_transcriptsJoined]
    constructor
    · rintro ⟨⟨hrow, hlanguage, hcode⟩, asset, hasset, hpk, hlesson⟩
      refine ⟨⟨List.mem_filter.mpr ⟨hrow, decide_eq_true ?_⟩, hlanguage, hcode⟩, asset, hasset, hpk, hlesson⟩
      exact ⟨asset, hasset, hpk, loaded, hvisible, hlesson.symm⟩
    · rintro ⟨⟨hrow, hlanguage, hcode⟩, hof⟩
      exact ⟨⟨List.mem_of_mem_filter hrow, hlanguage, hcode⟩, hof⟩
  cache := fun _ _ _ _ _ _ => rfl

end OnlyVisible

/-- The answers to a caller go through both gates, on every route, and say nothing of lessons that are invisible to it: they
are those of any state that differs in nothing else, and of the one without such lessons. -/
theorem reading_throughBothGates (settings : Settings) (user : Caller) :
    (∀ s moment request, IsGated settings user s moment request (respond settings user s moment request).2) ∧
      (∀ s s', SameFor user s s' → ∀ events,
        replies (Site.handle settings user) s events = replies (Site.handle settings user) s' events) ∧
      ∀ s, SameFor user s (s.onlyVisible user) :=
  ⟨respond_isGated settings user, fun _ _ h => (unobservable_sameFor settings user).replies_eq h, sameFor_onlyVisible user⟩

end EPlatform.Reading
