import EPlatform.Core.Json
import EPlatform.Core.Text
import EPlatform.Runs.Table

/-!
# The catalogue's skill filter

The options `CourseCatalogue` offers for the tags of its courses, and the courses it shows for one of them.
-/

namespace EPlatform.Catalog

open Runs

/-- The characters `String.prototype.trim` removes: white space and line terminators. -/
def isTrimmed (c : Char) : Bool :=
  let n := c.toNat
  (9 ≤ n && n ≤ 13) || n = 32 || n = 0xa0 || n = 0x1680 || (0x2000 ≤ n && n ≤ 0x200a) || n = 0x2028 || n = 0x2029 ||
    n = 0x202f || n = 0x205f || n = 0x3000 || n = 0xfeff

/-- `s.trim()`. -/
def trim (s : String) : String := String.ofList ((s.toList.dropWhile isTrimmed).rdropWhile isTrimmed)

theorem trim_trim (s : String) : trim (trim s) = trim s := by
  apply String.toList_injective
  simp only [trim, String.toList_ofList, dropWhile_dropEnds, List.rdropWhile_idempotent]

/-- `toLowerCase` leaves only an empty string empty. `localeCompare` is any. -/
structure Locale where
  toLowerCase : String → String
  localeCompare : String → String → Int
  toLowerCase_eq_empty : ∀ s, toLowerCase s = "" ↔ s = ""

structure PublicCourse where
  languageCode : String
  level : String
  skillAreas : Option Json

structure SkillOption where
  value : String
  label : String
  deriving DecidableEq, Repr

def ANY : String := "any"

def skillsOf (course : PublicCourse) : List String := (course.skillAreas.map Json.tags).getD []

namespace Locale

variable (locale : Locale)

/-- `tag.trim().toLowerCase()`. -/
def keyOf (tag : String) : String := locale.toLowerCase (trim tag)

/-- `if (key && !byKey.has(key)) byKey.set(key, tag.trim())`. -/
def collect (byKey : List SkillOption) (tag : String) : List SkillOption :=
  if locale.keyOf tag ≠ "" then (Table.getOrCreate (·.value) ⟨locale.keyOf tag, trim tag⟩ byKey).2 else byKey

def byKey (courses : List PublicCourse) : List SkillOption :=
  courses.foldl (fun byKey course => (skillsOf course).foldl locale.collect byKey) []

def skills (courses : List PublicCourse) : List SkillOption :=
  (locale.byKey courses).mergeSort fun a b => locale.localeCompare a.value b.value ≤ 0

def visible (courses : List PublicCourse) (language level skill : String) : List PublicCourse :=
  courses.filter fun course =>
    (language = ANY ∨ course.languageCode = language) ∧ (level = ANY ∨ course.level = level) ∧
      (skill = ANY ∨ ∃ tag ∈ skillsOf course, locale.keyOf tag = skill)

/-! ### What an option means -/

/-- Equal up to case and surrounding space. -/
def SameTag (tag tag' : String) : Prop := locale.keyOf tag = locale.keyOf tag'

instance (tag tag' : String) : Decidable (locale.SameTag tag tag') := inferInstanceAs (Decidable (_ = _))

/-- A course carries the tag. -/
def Carries (tag : String) (course : PublicCourse) : Prop := ∃ tag' ∈ skillsOf course, locale.SameTag tag' tag

instance (tag : String) : DecidablePred (locale.Carries tag) := fun _ => inferInstanceAs (Decidable (∃ _ ∈ _, _))

/-- Each option narrows to the courses that carry it, and every tag that is not blank has one. -/
structure OptionsNarrow (courses : List PublicCourse) : Prop where
  distinct : ((locale.skills courses).map (·.value)).Nodup
  represented : ∀ course ∈ courses, ∀ tag ∈ skillsOf course, trim tag ≠ "" →
    ∃! option, option ∈ locale.skills courses ∧ locale.SameTag tag option.label
  narrows : ∀ option ∈ locale.skills courses,
    locale.visible courses ANY ANY option.value = courses.filter (locale.Carries option.label)
  inhabited : ∀ option ∈ locale.skills courses, locale.visible courses ANY ANY option.value ≠ []
  all : locale.visible courses ANY ANY ANY = courses

/-! ### The options -/

variable {locale} {courses : List PublicCourse} {option : SkillOption}

theorem keyOf_ne_empty {tag : String} : locale.keyOf tag ≠ "" ↔ trim tag ≠ "" := (locale.toLowerCase_eq_empty _).not

theorem keyOf_trim (tag : String) : locale.keyOf (trim tag) = locale.keyOf tag := by rw [keyOf, trim_trim, keyOf]

/-- The options collected from some tags. -/
structure Collected (locale : Locale) (tags : List String) (byKey : List SkillOption) : Prop where
  distinct : Table.Unique (·.value) byKey
  ofTag : ∀ option ∈ byKey, ∃ tag ∈ tags, locale.keyOf tag ≠ "" ∧ option = ⟨locale.keyOf tag, trim tag⟩
  complete : ∀ tag ∈ tags, locale.keyOf tag ≠ "" → ∃ option ∈ byKey, option.value = locale.keyOf tag

theorem Collected.nil : Collected locale [] [] where
  distinct := List.nodup_nil
  ofTag := by simp
  complete := by simp

section Collect

variable {tags : List String} {byKey : List SkillOption} {tag : String}

theorem Collected.ofTag_append (h : Collected locale tags byKey) (tag : String) (hoption : option ∈ byKey) :
    ∃ tag' ∈ tags ++ [tag], locale.keyOf tag' ≠ "" ∧ option = ⟨locale.keyOf tag', trim tag'⟩ :=
  (h.ofTag option hoption).imp fun _ htag => ⟨List.mem_append_left _ htag.1, htag.2⟩

theorem Collected.collect_blank (h : Collected locale tags byKey) (hkey : ¬ locale.keyOf tag ≠ "") :
    Collected locale (tags ++ [tag]) byKey where
  distinct := h.distinct
  ofTag := fun _ hoption => h.ofTag_append tag hoption
  complete := by
    intro tag' htag' hkey'
    rcases List.mem_append.mp htag' with hin | hlast
    · exact h.complete tag' hin hkey'
    · exact absurd (List.mem_singleton.mp hlast ▸ hkey') hkey

theorem Collected.getOrCreate (h : Collected locale tags byKey) (hkey : locale.keyOf tag ≠ "") :
    Collected locale (tags ++ [tag]) (Table.getOrCreate (·.value) ⟨locale.keyOf tag, trim tag⟩ byKey).2 where
  distinct := Table.unique_getOrCreate h.distinct
  ofTag := by
    intro option hoption
    rcases (Table.mem_getOrCreate h.distinct).mp hoption with ⟨hin, -⟩ | rfl
    · exact h.ofTag_append tag hin
    · rcases Table.getOrCreate_row (·.value) ⟨locale.keyOf tag, trim tag⟩ byKey with ⟨hin, -⟩ | ⟨-, hnew⟩
      · exact h.ofTag_append tag hin
      · exact ⟨tag, by simp, hkey, hnew⟩
  complete := by
    intro tag' htag' hkey'
    by_cases hsame : locale.keyOf tag' = locale.keyOf tag
    · exact ⟨_, (Table.mem_getOrCreate h.distinct).mpr (.inr rfl), (Table.key_getOrCreate _ _ _).trans hsame.symm⟩
    · have hin : tag' ∈ tags := (List.mem_append.mp htag').resolve_right fun hlast =>
        hsame (congrArg locale.keyOf (List.mem_singleton.mp hlast))
      obtain ⟨option, hoption, hvalue⟩ := h.complete tag' hin hkey'
      exact ⟨option, (Table.mem_getOrCreate h.distinct).mpr (.inl ⟨hoption, hvalue ▸ hsame⟩), hvalue⟩

theorem Collected.collect (h : Collected locale tags byKey) (tag : String) :
    Collected locale (tags ++ [tag]) (locale.collect byKey tag) := by
  rw [Locale.collect]
  split
  · exact h.getOrCreate ‹_›
  · exact h.collect_blank ‹_›

end Collect

theorem collected_foldl (tags : List String) : Collected locale tags (tags.foldl locale.collect []) := by
  induction tags using List.reverseRecOn with
  | nil => exact .nil
  | append_singleton tags tag ih =>
    rw [List.foldl_append, List.foldl_cons, List.foldl_nil]
    exact ih.collect tag

theorem collected_byKey (courses : List PublicCourse) :
    Collected locale (courses.flatMap skillsOf) (locale.byKey courses) := by
  rw [byKey, ← List.foldl_flatMap]
  exact collected_foldl _

theorem mem_skills : option ∈ locale.skills courses ↔ option ∈ locale.byKey courses := List.mem_mergeSort

/-- The value of an option is the key of its label. -/
theorem value_eq_keyOf (h : option ∈ locale.skills courses) : option.value = locale.keyOf option.label := by
  obtain ⟨tag, -, -, rfl⟩ := (collected_byKey courses).ofTag option (mem_skills.mp h)
  exact (keyOf_trim tag).symm

theorem skills_distinct (courses : List PublicCourse) : ((locale.skills courses).map (·.value)).Nodup :=
  ((List.mergeSort_perm _ _).map _).nodup_iff.mpr (collected_byKey courses).distinct

theorem exists_option {course : PublicCourse} (hcourse : course ∈ courses) {tag : String} (htag : tag ∈ skillsOf course)
    (hblank : trim tag ≠ "") : ∃ option ∈ locale.skills courses, locale.SameTag tag option.label := by
  have hin : tag ∈ courses.flatMap skillsOf := List.mem_flatMap.mpr ⟨course, hcourse, htag⟩
  obtain ⟨option, hoption, hvalue⟩ := (collected_byKey courses).complete tag hin (keyOf_ne_empty.mpr hblank)
  exact ⟨option, mem_skills.mpr hoption, hvalue.symm.trans (value_eq_keyOf (mem_skills.mpr hoption))⟩

theorem option_unique {option' : SkillOption} (h : option ∈ locale.skills courses) (h' : option' ∈ locale.skills courses)
    (hsame : locale.SameTag option.label option'.label) : option = option' :=
  List.inj_on_of_nodup_map (skills_distinct courses) h h'
    ((value_eq_keyOf h).trans (hsame.trans (value_eq_keyOf h').symm))

/-- Some course carries each option. -/
theorem exists_carries (h : option ∈ locale.skills courses) : ∃ course ∈ courses, locale.Carries option.label course := by
  obtain ⟨tag, htag, -, rfl⟩ := (collected_byKey courses).ofTag option (mem_skills.mp h)
  obtain ⟨course, hcourse, hin⟩ := List.mem_flatMap.mp htag
  exact ⟨course, hcourse, tag, hin, (keyOf_trim tag).symm⟩

/-! ### The courses shown -/

theorem visible_any (courses : List PublicCourse) : locale.visible courses ANY ANY ANY = courses := by simp [visible]

theorem visible_of_ne_any {skill : String} (h : skill ≠ ANY) : locale.visible courses ANY ANY skill =
    courses.filter fun course => ∃ tag ∈ skillsOf course, locale.keyOf tag = skill := by
  simp [visible, h]

/-- A course that carries a tag equal to the value that stands for no filter. -/
def CarriesAny (locale : Locale) (course : PublicCourse) : Prop := ∃ tag ∈ skillsOf course, locale.keyOf tag = ANY

/-- An option shows the courses that carry it, except that the sentinel shows them all. -/
theorem visible_option (h : option ∈ locale.skills courses) : locale.visible courses ANY ANY option.value =
    if option.value = ANY then courses else courses.filter (locale.Carries option.label) := by
  split
  · rename_i hany
    rw [hany, visible_any]
  · rename_i hany
    rw [visible_of_ne_any hany, value_eq_keyOf h]
    rfl

theorem narrows_iff (h : option ∈ locale.skills courses) :
    locale.visible courses ANY ANY option.value = courses.filter (locale.Carries option.label) ↔
      (option.value = ANY → ∀ course ∈ courses, locale.Carries option.label course) := by
  rw [visible_option h]
  split
  · rename_i hany
    rw [eq_comm, List.filter_eq_self]
    simp [hany]
  · rename_i hany
    simp [hany]

theorem carries_any (h : option ∈ locale.skills courses) (hany : option.value = ANY) (course : PublicCourse) :
    locale.Carries option.label course ↔ locale.CarriesAny course := by
  rw [Carries, CarriesAny]
  simp only [SameTag, ← value_eq_keyOf h, hany]

theorem ANY_ne_empty : ANY ≠ "" := by decide

/-- The options narrow to their courses exactly where no course, or every course, carries a tag equal to the sentinel. -/
theorem optionsNarrow_iff (locale : Locale) (courses : List PublicCourse) : locale.OptionsNarrow courses ↔
    (∀ course ∈ courses, ¬ locale.CarriesAny course) ∨ ∀ course ∈ courses, locale.CarriesAny course := by
  constructor
  · intro h
    refine or_iff_not_imp_left.mpr fun hsome => ?_
    obtain ⟨course, hcourse, tag, htag, hkey⟩ : ∃ course ∈ courses, locale.CarriesAny course := by simpa using hsome
    have hblank : trim tag ≠ "" := keyOf_ne_empty.mp (hkey ▸ ANY_ne_empty)
    obtain ⟨option, hoption, hsame⟩ := exists_option hcourse htag hblank
    have hany : option.value = ANY := (value_eq_keyOf hoption).trans (hsame.symm.trans hkey)
    intro course' hcourse'
    exact (carries_any hoption hany course').mp ((narrows_iff hoption).mp (h.narrows option hoption) hany course' hcourse')
  · intro h
    have hnarrows : ∀ option ∈ locale.skills courses,
        locale.visible courses ANY ANY option.value = courses.filter (locale.Carries option.label) := by
      intro option hoption
      refine (narrows_iff hoption).mpr fun hany course hcourse => (carries_any hoption hany course).mpr ?_
      rcases h with hnone | hevery
      · obtain ⟨course', hcourse', hcarries⟩ := exists_carries hoption
        exact absurd ((carries_any hoption hany course').mp hcarries) (hnone course' hcourse')
      · exact hevery course hcourse
    constructor
    · exact skills_distinct courses
    · intro course hcourse tag htag hblank
      obtain ⟨option, hoption, hsame⟩ := exists_option hcourse htag hblank
      exact ⟨option, ⟨hoption, hsame⟩, fun option' h' => option_unique h'.1 hoption (h'.2.symm.trans hsame)⟩
    · exact hnarrows
    · intro option hoption
      obtain ⟨course, hcourse, hcarries⟩ := exists_carries hoption
      rw [hnarrows option hoption]
      exact List.ne_nil_of_mem (List.mem_filter.mpr ⟨hcourse, decide_eq_true hcarries⟩)
    · exact visible_any courses

/-! ### A tag that is the sentinel -/

def ascii : Locale where
  toLowerCase := fun s => .ofList (s.toList.map Char.toLower)
  localeCompare := fun a b => if a < b then -1 else if b < a then 1 else 0
  toLowerCase_eq_empty := fun s => by rw [← String.toList_inj]; simp

def tagged (tag : String) : PublicCourse := ⟨"es", "A1", some (.arr [.str tag])⟩

/-- Choosing "Any" shows the course on grammar as well. -/
theorem any_shows_all : ¬ ascii.OptionsNarrow [tagged "Any", tagged "Grammar"] := by
  intro h
  have hoption : (⟨"any", "Any"⟩ : SkillOption) ∈ ascii.skills [tagged "Any", tagged "Grammar"] :=
    mem_skills.mpr (by decide)
  have hshown := (narrows_iff hoption).mp (h.narrows _ hoption) rfl (tagged "Grammar") (by simp)
  exact absurd hshown (by decide)

end Locale

end EPlatform.Catalog
