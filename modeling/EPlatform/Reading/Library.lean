import EPlatform.Catalog.Curriculum
import EPlatform.Catalog.Durations
import EPlatform.Entitlements.Resolver
import EPlatform.Transcripts.Serving

/-!
# What there is to read

Every table that a request for a lesson reads, and the two querysets that every such request goes through: the lessons that
are visible to a caller, and the approved transcript of a lesson.
-/

namespace EPlatform.Reading

open Runs Runs.Query Entitlements Transcripts

structure Language where
  pk : Nat
  code : String
  name : String
  deriving DecidableEq, Repr

structure LessonRow extends Catalog.Lesson where
  createdAt : Instant
  deriving DecidableEq, Repr

structure TranscriptRow where
  transcript : Transcript
  segments : List TranscriptSegment
  deriving DecidableEq, Repr

structure Library where
  languages : List Language
  courses : List Catalog.Course
  lessons : List LessonRow
  assets : List Catalog.AssetRow
  transcripts : List TranscriptRow
  subscriptions : List Subscription
  overrides : List AccessOverride
  deriving DecidableEq, Repr

/-! ### Constraints -/

def TranscriptRow.version (row : TranscriptRow) : Uuid × String × TranscriptKind :=
  (row.transcript.mediaAsset, row.transcript.language, row.transcript.kind)

structure Library.Valid (l : Library) : Prop where
  languageKeys : Table.Unique (·.pk) l.languages
  languageCodes : Table.Unique (·.code) l.languages
  courseKeys : Table.Unique (·.pk) l.courses
  courseSlugs : Table.Unique (·.slug) l.courses
  lessonKeys : Table.Unique (·.pk) l.lessons
  lessonSlugUniquePerCourse : Table.Unique (fun lesson : LessonRow => lesson.address) l.lessons
  assetKeys : Table.Unique (·.mediaAsset.pk) l.assets
  oneAssetPerLesson : Table.Unique (·.lesson) l.assets
  transcriptKeys : Table.Unique (·.transcript.pk) l.transcripts
  transcriptUniquePerLanguageAndKind : Table.Unique TranscriptRow.version l.transcripts
  segments : ∀ row ∈ l.transcripts, ∀ segment ∈ row.segments, segment.Valid

instance : DecidablePred Library.Valid := fun l =>
  decidable_of_iff
    (Table.Unique (·.pk) l.languages ∧ Table.Unique (·.code) l.languages ∧ Table.Unique (·.pk) l.courses ∧
      Table.Unique (·.slug) l.courses ∧ Table.Unique (·.pk) l.lessons ∧
      Table.Unique (fun lesson : LessonRow => lesson.address) l.lessons ∧ Table.Unique (·.mediaAsset.pk) l.assets ∧
      Table.Unique (·.lesson) l.assets ∧ Table.Unique (·.transcript.pk) l.transcripts ∧
      Table.Unique TranscriptRow.version l.transcripts ∧
      ∀ row ∈ l.transcripts, ∀ segment ∈ row.segments, segment.Valid)
    ⟨fun ⟨h₁, h₂, h₃, h₄, h₅, h₆, h₇, h₈, h₉, h₁₀, h₁₁⟩ => ⟨h₁, h₂, h₃, h₄, h₅, h₆, h₇, h₈, h₉, h₁₀, h₁₁⟩,
      fun ⟨h₁, h₂, h₃, h₄, h₅, h₆, h₇, h₈, h₉, h₁₀, h₁₁⟩ => ⟨h₁, h₂, h₃, h₄, h₅, h₆, h₇, h₈, h₉, h₁₀, h₁₁⟩⟩

abbrev Database := Runs.Database Library.Valid

/-! ### The lessons visible to a caller -/

/-- A lesson with its course, as `select_related("course")` loads it. -/
structure LoadedLesson where
  lesson : LessonRow
  course : Catalog.Course
  deriving DecidableEq, Repr

def Library.lessonsJoined (l : Library) : List LoadedLesson :=
  innerJoin LoadedLesson.mk (fun lesson course => course.pk = lesson.courseId) l.lessons l.courses

def isPublished (loaded : LoadedLesson) : Bool := loaded.course.status = .published

/-- The filter of `lessons_visible_to`. -/
def isVisible (user : Caller) (loaded : LoadedLesson) : Bool :=
  match user.signedIn with
  | none => isPublished loaded
  | some account =>
    if account.role = .admin || account.isSuperuser then true
    else isPublished loaded || loaded.course.instructor = account.pk

def lessonsVisibleTo (user : Caller) (l : Library) : List LoadedLesson := l.lessonsJoined.filter (isVisible user)

/-! ### The approved transcript of a lesson -/

/-- A transcript with its language, as `select_related("language")` loads it. -/
structure LoadedTranscript where
  row : TranscriptRow
  language : Language
  deriving DecidableEq, Repr

def Library.transcriptsJoined (l : Library) : List LoadedTranscript :=
  innerJoin LoadedTranscript.mk (fun row language => language.code = row.transcript.language) l.transcripts l.languages

/-- `media_asset__lesson=lesson`. -/
def Library.IsOf (l : Library) (loaded : LoadedLesson) (transcript : LoadedTranscript) : Prop :=
  ∃ asset ∈ l.assets, asset.mediaAsset.pk = transcript.row.transcript.mediaAsset ∧ asset.lesson = loaded.lesson.pk

instance (l : Library) (loaded : LoadedLesson) : DecidablePred (l.IsOf loaded) :=
  fun _ => inferInstanceAs (Decidable (∃ asset ∈ l.assets, _))

/-- The filter of `approved_transcript_for`. -/
def Library.IsApprovedFor (l : Library) (loaded : LoadedLesson) (transcript : LoadedTranscript) : Prop :=
  l.IsOf loaded transcript ∧ transcript.language.pk = loaded.course.language ∧ transcript.row.transcript.kind = .target ∧
    transcript.row.transcript.status = .approved

instance (l : Library) (loaded : LoadedLesson) : DecidablePred (l.IsApprovedFor loaded) :=
  fun _ => inferInstanceAs (Decidable (_ ∧ _))

def approvedTranscriptFor (l : Library) (loaded : LoadedLesson) : Option LoadedTranscript :=
  l.transcriptsJoined.find? fun transcript => l.IsApprovedFor loaded transcript

/-- `MediaAsset.objects.filter(lesson=lesson).first()`. -/
def mediaAssetOf (l : Library) (loaded : LoadedLesson) : Option MediaAssets.MediaAsset :=
  (Table.find (·.lesson) loaded.lesson.pk l.assets).map (·.mediaAsset)

/-! ### Each of them is the only one -/

section Keys

variable {l : Library} {loaded loaded' : LoadedLesson} {transcript transcript' : LoadedTranscript}

theorem mem_lessonsJoined :
    loaded ∈ l.lessonsJoined ↔
      loaded.lesson ∈ l.lessons ∧ loaded.course ∈ l.courses ∧ loaded.course.pk = loaded.lesson.courseId := by
  rw [Library.lessonsJoined, mem_innerJoin]
  constructor
  · rintro ⟨lesson, hlesson, course, hcourse, hkey, rfl⟩
    exact ⟨hlesson, hcourse, hkey⟩
  · rintro ⟨hlesson, hcourse, hkey⟩
    exact ⟨loaded.lesson, hlesson, loaded.course, hcourse, hkey, rfl⟩

theorem mem_transcriptsJoined :
    transcript ∈ l.transcriptsJoined ↔
      transcript.row ∈ l.transcripts ∧ transcript.language ∈ l.languages ∧
        transcript.language.code = transcript.row.transcript.language := by
  rw [Library.transcriptsJoined, mem_innerJoin]
  constructor
  · rintro ⟨row, hrow, language, hlanguage, hcode, rfl⟩
    exact ⟨hrow, hlanguage, hcode⟩
  · rintro ⟨hrow, hlanguage, hcode⟩
    exact ⟨transcript.row, hrow, transcript.language, hlanguage, hcode, rfl⟩

theorem mem_lessonsVisibleTo {user : Caller} :
    loaded ∈ lessonsVisibleTo user l ↔ loaded ∈ l.lessonsJoined ∧ isVisible user loaded := List.mem_filter

variable (hvalid : l.Valid)

include hvalid

theorem nodup_lessonsVisibleTo (user : Caller) : (lessonsVisibleTo user l).Nodup := by
  have hmk : Function.Injective2 LoadedLesson.mk := fun _ _ _ _ h => LoadedLesson.mk.inj h
  apply List.Nodup.filter
  exact nodup_innerJoin hmk (List.Nodup.of_map _ hvalid.lessonKeys) (List.Nodup.of_map _ hvalid.courseKeys)

/-- A lesson is loaded with one course. -/
theorem loaded_eq_of_pk (h : loaded ∈ l.lessonsJoined) (h' : loaded' ∈ l.lessonsJoined)
    (hpk : loaded.lesson.pk = loaded'.lesson.pk) : loaded = loaded' := by
  obtain ⟨hlesson, hcourse, hkey⟩ := mem_lessonsJoined.mp h
  obtain ⟨hlesson', hcourse', hkey'⟩ := mem_lessonsJoined.mp h'
  have hlessons : loaded.lesson = loaded'.lesson := hvalid.lessonKeys.eq hlesson hlesson' hpk
  have hcourses : loaded.course = loaded'.course := by
    apply hvalid.courseKeys.eq hcourse hcourse'
    show loaded.course.pk = loaded'.course.pk
    rw [hkey, hkey', hlessons]
  cases loaded
  cases loaded'
  cases hlessons
  cases hcourses
  rfl

theorem loaded_eq_of_slugs (h : loaded ∈ l.lessonsJoined) (h' : loaded' ∈ l.lessonsJoined)
    (hcourseSlug : loaded.course.slug = loaded'.course.slug) (hslug : loaded.lesson.slug = loaded'.lesson.slug) :
    loaded = loaded' := by
  obtain ⟨hlesson, hcourse, hkey⟩ := mem_lessonsJoined.mp h
  obtain ⟨hlesson', hcourse', hkey'⟩ := mem_lessonsJoined.mp h'
  have hcourses : loaded.course = loaded'.course := hvalid.courseSlugs.eq hcourse hcourse' hcourseSlug
  have haddress : loaded.lesson.address = loaded'.lesson.address := by
    rw [Catalog.Lesson.address, Catalog.Lesson.address, ← hkey, ← hkey', hcourses, hslug]
  exact loaded_eq_of_pk hvalid h h' (congrArg (·.pk) (hvalid.lessonSlugUniquePerCourse.eq hlesson hlesson' haddress))

/-- One asset for each lesson and one transcript for each asset, language and kind. -/
theorem atMostOne_isApprovedFor (loaded : LoadedLesson) : AtMostOne (l.IsApprovedFor loaded) l.transcriptsJoined := by
  intro transcript htranscript happroved transcript' htranscript' happroved'
  obtain ⟨⟨asset, hasset, hof, hlesson⟩, hlanguage, hkind, -⟩ := happroved
  obtain ⟨⟨asset', hasset', hof', hlesson'⟩, hlanguage', hkind', -⟩ := happroved'
  obtain ⟨hrow, hmem, hcode⟩ := mem_transcriptsJoined.mp htranscript
  obtain ⟨hrow', hmem', hcode'⟩ := mem_transcriptsJoined.mp htranscript'
  have hassets : asset = asset' := hvalid.oneAssetPerLesson.eq hasset hasset' (hlesson.trans hlesson'.symm)
  have hlanguages : transcript.language = transcript'.language :=
    hvalid.languageKeys.eq hmem hmem' (hlanguage.trans hlanguage'.symm)
  have hversion : transcript.row.version = transcript'.row.version := by
    rw [TranscriptRow.version, TranscriptRow.version, ← hof, ← hof', ← hcode, ← hcode', hkind, hkind', hassets, hlanguages]
  have hrows : transcript.row = transcript'.row :=
    hvalid.transcriptUniquePerLanguageAndKind.eq hrow hrow' hversion
  cases transcript
  cases transcript'
  cases hrows
  cases hlanguages
  rfl

theorem approvedTranscriptFor_eq_some :
    approvedTranscriptFor l loaded = some transcript ↔ transcript ∈ l.transcriptsJoined ∧ l.IsApprovedFor loaded transcript :=
  find_eq_some_iff_of_atMostOne (atMostOne_isApprovedFor hvalid loaded)

theorem mediaAssetOf_eq_some {asset : MediaAssets.MediaAsset} :
    mediaAssetOf l loaded = some asset ↔ ⟨loaded.lesson.pk, asset⟩ ∈ l.assets := by
  rw [mediaAssetOf, Option.map_eq_some_iff]
  constructor
  · rintro ⟨row, hfind, rfl⟩
    obtain ⟨hrow, hlesson⟩ := Table.find_eq_some hfind
    rw [← hlesson]
    exact hrow
  · intro hrow
    cases hfind : Table.find (·.lesson) loaded.lesson.pk l.assets with
    | none => exact absurd rfl (Table.find_eq_none hfind _ hrow)
    | some found =>
      obtain ⟨hfound, hlesson⟩ := Table.find_eq_some hfind
      rw [hvalid.oneAssetPerLesson.eq hfound hrow hlesson]
      exact ⟨_, rfl, rfl⟩

end Keys

end EPlatform.Reading
