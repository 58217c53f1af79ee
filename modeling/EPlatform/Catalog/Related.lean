import EPlatform.Catalog.Course
import EPlatform.Core.Json
import EPlatform.Runs.Query
import Mathlib.Algebra.BigOperators.Group.List.Lemmas
import Mathlib.Algebra.GroupWithZero.Nat
import Mathlib.Data.Prod.Lex

/-!
# Related courses

`related_courses` over the table of courses, whatever their `skill_areas` hold, and the rule it states.
-/

namespace EPlatform.Catalog

open Runs Runs.Query

/-- What the query reads of a course. -/
structure CourseRow where
  pk : Uuid
  language : Nat
  level : Level
  skillAreas : Json
  status : CourseStatus
  publishedAt : Option Instant

/-- The table of courses, with its key and `course_published_has_published_at`. -/
structure CourseTable where
  rows : List CourseRow
  keys : Table.Unique (·.pk) rows
  dated : ∀ row ∈ rows, row.status = .published → row.publishedAt.isSome

inductive RelatedError
  | typeError
  | negativeIndexing
  deriving DecidableEq, Repr

/-- What Python takes for true. -/
def isTruthy : Json → Bool
  | .null => false
  | .bool value => value
  | .num mantissa _ => mantissa ≠ 0
  | .str text => text ≠ ""
  | .arr items => !items.isEmpty
  | .obj fields => !fields.isEmpty

/-- `[area for area in (course.skill_areas or []) if isinstance(area, str)]`. A string is iterated by its characters and
an object by its keys. -/
def areasOf (skillAreas : Json) : Except RelatedError (List String) :=
  if ¬ isTruthy skillAreas then .ok []
  else
    match skillAreas with
    | .arr items => .ok (items.filterMap Json.text)
    | .str text => .ok (text.toList.map String.singleton)
    | .obj fields => .ok (fields.map Prod.fst)
    | _ => .error .typeError

/-- `skill_areas @> '[area]'`: an array with that string in it. -/
def containsArea (skillAreas : Json) (area : String) : Bool := area ∈ skillAreas.tags

/-- `overlap`. -/
def overlap (areas : List String) (candidate : CourseRow) : Nat :=
  (areas.map fun area => if containsArea candidate.skillAreas area then 1 else 0).sum

/-- `published_courses().filter(language=course.language).exclude(pk=course.pk)`. -/
def IsCandidate (course candidate : CourseRow) : Prop :=
  candidate.status = .published ∧ candidate.language = course.language ∧ candidate.pk ≠ course.pk

instance (course : CourseRow) : DecidablePred (IsCandidate course) := fun _ => inferInstanceAs (Decidable (_ ∧ _ ∧ _))

/-- `("-shared", "-same_level", "-published_at")`. -/
def rankBy (shared : CourseRow → Nat) (course candidate : CourseRow) : Nat ×ₗ Nat ×ₗ Instant :=
  toLex (shared candidate, toLex (if candidate.level = course.level then 1 else 0, candidate.publishedAt.getD 0))

def relatedCourses {table : List CourseRow} (course : CourseRow) (limit : Int) (scan : Scan table) :
    Except RelatedError (List CourseRow) := do
  let areas ← areasOf course.skillAreas
  require (0 ≤ limit) .negativeIndexing
  return top (rankBy (overlap areas) course) (IsCandidate course) limit.toNat scan

/-! ### The rule -/

/-- The distinct skill areas a candidate shares with a course. -/
def sharedAreas (course candidate : CourseRow) : Nat :=
  (course.skillAreas.tags.dedup.filter (· ∈ candidate.skillAreas.tags)).length

/-- What the rule says of a result. Only a negative limit may be refused. -/
def FollowsRule (table : List CourseRow) (course : CourseRow) (limit : Int) :
    Except RelatedError (List CourseRow) → Prop
  | .error e => limit < 0 ∧ e = .negativeIndexing
  | .ok listed => IsTop (rankBy (sharedAreas course) course) table (IsCandidate course) limit.toNat listed

/-- No tag is listed more often than another, or there is nothing to iterate. -/
def TagsCountAlike : Json → Prop
  | .arr items => ∀ a ∈ items.filterMap Json.text, ∀ b ∈ items.filterMap Json.text,
      (items.filterMap Json.text).count a = (items.filterMap Json.text).count b
  | skillAreas => isTruthy skillAreas = false

/-! ### Tags that count alike -/

theorem areasOf_eq {skillAreas : Json} (h : TagsCountAlike skillAreas) : areasOf skillAreas = .ok skillAreas.tags ∧
    ∀ a ∈ skillAreas.tags, ∀ b ∈ skillAreas.tags, skillAreas.tags.count a = skillAreas.tags.count b := by
  cases skillAreas with
  | arr items =>
    refine ⟨?_, h⟩
    cases items <;> simp [areasOf, isTruthy, Json.tags]
  | _ => exact ⟨if_pos (by simpa [TagsCountAlike] using h), by simp [Json.tags]⟩

/-- The sum of the cases counts every listed tag. -/
theorem overlap_eq_countP (areas : List String) (candidate : CourseRow) :
    overlap areas candidate = areas.countP (· ∈ candidate.skillAreas.tags) := by
  induction areas with
  | nil => rfl
  | cons area areas ih =>
    rw [List.countP_cons, ← ih, overlap, overlap, List.map_cons, List.sum_cons, Nat.add_comm]
    rfl

theorem overlap_eq (areas : List String) (candidate : CourseRow) :
    overlap areas candidate = ((areas.dedup.filter (· ∈ candidate.skillAreas.tags)).map fun area => areas.count area).sum := by
  rw [List.sum_map_count_dedup_filter_eq_countP, overlap_eq_countP]

/-- Where every tag counts alike, the overlap is a multiple of the number of areas shared. -/
theorem exists_overlap_eq_mul {tags : List String} (h : ∀ a ∈ tags, ∀ b ∈ tags, tags.count a = tags.count b) :
    ∃ m, 0 < m ∧ ∀ candidate : CourseRow,
      overlap tags candidate = m * (tags.dedup.filter (· ∈ candidate.skillAreas.tags)).length := by
  cases htags : tags with
  | nil => exact ⟨1, Nat.one_pos, fun candidate => rfl⟩
  | cons tag rest =>
    have htag : tag ∈ tags := by simp [htags]
    refine ⟨tags.count tag, List.count_pos_iff.mpr htag, fun candidate => ?_⟩
    rw [← htags, overlap_eq]
    have hsame : (tags.dedup.filter (· ∈ candidate.skillAreas.tags)).map (fun area => tags.count area) =
        (tags.dedup.filter (· ∈ candidate.skillAreas.tags)).map fun _ => tags.count tag := by
      refine List.map_congr_left fun area harea => ?_
      exact h area (List.mem_dedup.mp (List.mem_of_mem_filter harea)) tag htag
    rw [hsame, List.map_const', List.sum_replicate_nat, Nat.mul_comm]

theorem rankBy_lt_iff {shared shared' : CourseRow → Nat} (course : CourseRow) {m : Nat} (hm : 0 < m)
    (hshared : ∀ candidate, shared candidate = m * shared' candidate) (a b : CourseRow) :
    rankBy shared course a < rankBy shared course b ↔ rankBy shared' course a < rankBy shared' course b := by
  simp only [rankBy, Prod.Lex.toLex_lt_toLex, hshared, Nat.mul_lt_mul_left hm, Nat.mul_right_inj hm.ne']

theorem relatedCourses_of_areas {course : CourseRow} {areas : List String} (hareas : areasOf course.skillAreas = .ok areas)
    {limit : Int} (hlimit : 0 ≤ limit) {table : List CourseRow} (scan : Scan table) : relatedCourses course limit scan =
      .ok (top (rankBy (overlap areas) course) (IsCandidate course) limit.toNat scan) := by
  rw [relatedCourses, hareas, require, if_pos hlimit]
  rfl

/-- The rule is followed where tags count alike. -/
theorem followsRule_of_countAlike (table : CourseTable) {course : CourseRow} (h : TagsCountAlike course.skillAreas)
    (limit : Int) (scan : Scan table.rows) : FollowsRule table.rows course limit (relatedCourses course limit scan) := by
  obtain ⟨hareas, hcount⟩ := areasOf_eq h
  obtain ⟨m, hm, hoverlap⟩ := exists_overlap_eq_mul hcount
  by_cases hlimit : 0 ≤ limit
  · have htop := top_isTop (rankBy (overlap course.skillAreas.tags) course) (IsCandidate course) limit.toNat
      (List.Nodup.of_map _ table.keys) scan
    rw [relatedCourses_of_areas hareas hlimit]
    exact (isTop_congr (rankBy_lt_iff course hm hoverlap)).mp htop
  · have hrefused : relatedCourses course limit scan = .error .negativeIndexing := by
      rw [relatedCourses, hareas, require, if_neg hlimit]
      rfl
    rw [hrefused]
    exact ⟨Int.not_le.mp hlimit, rfl⟩

/-! ### Tags that do not -/

/-- Another published course of the language and the level, with some tags. -/
def sibling (course : CourseRow) (n : Nat) (tags : List String) : CourseRow where
  pk := course.pk + n
  language := course.language
  level := course.level
  skillAreas := .arr (tags.map .str)
  status := .published
  publishedAt := some n

theorem sibling_tags (course : CourseRow) (n : Nat) (tags : List String) : (sibling course n tags).skillAreas.tags = tags := by
  simp only [sibling, Json.tags, List.filterMap_map]
  exact List.filterMap_some

theorem sibling_isCandidate (course : CourseRow) {n : Nat} (hn : n ≠ 0) (tags : List String) :
    IsCandidate course (sibling course n tags) := ⟨rfl, rfl, by simpa [sibling] using hn⟩

/-- An older and a newer course. -/
def twoSiblings (course : CourseRow) (tags tags' : List String) : CourseTable where
  rows := [sibling course 1 tags, sibling course 2 tags']
  keys := by simp [Table.Unique, sibling]
  dated := by simp [sibling]

/-- Where the rule is followed, of two courses that share as much the older has no greater overlap. -/
theorem overlap_le_of_followsRule {course : CourseRow} {areas : List String} (hareas : areasOf course.skillAreas = .ok areas)
    (hfollows : ∀ (table : CourseTable) (limit : Int) (scan : Scan table.rows),
      FollowsRule table.rows course limit (relatedCourses course limit scan)) {tags tags' : List String}
    (hshared : sharedAreas course (sibling course 1 tags) = sharedAreas course (sibling course 2 tags')) :
    overlap areas (sibling course 1 tags) ≤ overlap areas (sibling course 2 tags') := by
  have hscan : Scan (twoSiblings course tags tags').rows := ⟨_, List.Perm.refl _⟩
  have hrule := hfollows (twoSiblings course tags tags') 1 hscan
  rw [relatedCourses_of_areas hareas (by decide)] at hrule
  have htop := top_isTop (rankBy (overlap areas) course) (IsCandidate course) 1
    (List.Nodup.of_map _ (twoSiblings course tags tags').keys) hscan
  have holder := sibling_isCandidate course Nat.one_ne_zero tags
  have hnewer := sibling_isCandidate course (Nat.succ_ne_zero 1) tags'
  have hlater : rankBy (sharedAreas course) course (sibling course 1 tags) <
      rankBy (sharedAreas course) course (sibling course 2 tags') := by
    rw [rankBy, rankBy, hshared]
    simp [Prod.Lex.toLex_lt_toLex, sibling]
  have hranks := IsTop.agree_of_one hrule htop
    (top_ne_nil _ hscan Nat.one_ne_zero List.mem_cons_self holder) (by simp +contextual [twoSiblings])
    List.mem_cons_self holder (by simp [twoSiblings]) hnewer hlater
  refine Nat.le_of_not_lt fun hless => hranks ?_
  rw [rankBy, rankBy, Prod.Lex.toLex_lt_toLex]
  exact .inl hless

section FollowsRule

variable {course : CourseRow} (hfollows : ∀ (table : CourseTable) (limit : Int) (scan : Scan table.rows),
  FollowsRule table.rows course limit (relatedCourses course limit scan))

include hfollows

theorem areasOf_ne_error (e : RelatedError) : areasOf course.skillAreas ≠ .error e := by
  intro hareas
  have hscan : Scan (twoSiblings course [] []).rows := ⟨_, List.Perm.refl _⟩
  have hrule := hfollows _ 0 hscan
  have hraised : relatedCourses course 0 hscan = .error e := by
    rw [relatedCourses, hareas]
    rfl
  rw [hraised] at hrule
  exact absurd hrule.1 (Int.lt_irrefl 0)

/-- Every area counted is one of the course's tags. -/
theorem mem_tags_of_followsRule {areas : List String} (hareas : areasOf course.skillAreas = .ok areas) {area : String}
    (harea : area ∈ areas) : area ∈ course.skillAreas.tags := by
  by_contra hout
  have hshared : sharedAreas course (sibling course 1 [area]) = sharedAreas course (sibling course 2 []) := by
    simp only [sharedAreas, sibling_tags]
    congr 1
    refine List.filter_congr fun tag htag => ?_
    have hne : tag ≠ area := fun heq => hout (heq ▸ List.mem_dedup.mp htag)
    simp [hne]
  have hoverlap := overlap_le_of_followsRule hareas hfollows hshared
  simp only [overlap_eq_countP, sibling_tags] at hoverlap
  have hnone : areas.countP (· ∈ ([] : List String)) = 0 := by simp
  have hsome : 0 < areas.countP (· ∈ [area]) := List.countP_pos_iff.mpr ⟨area, harea, by simp⟩
  omega

/-- No tag of the course counts more than another. -/
theorem count_le_of_followsRule (hareas : areasOf course.skillAreas = .ok course.skillAreas.tags) {a b : String}
    (ha : a ∈ course.skillAreas.tags) (hb : b ∈ course.skillAreas.tags) :
    course.skillAreas.tags.count a ≤ course.skillAreas.tags.count b := by
  have hone : ∀ {tag}, tag ∈ course.skillAreas.tags → ∀ n,
      sharedAreas course (sibling course n [tag]) = 1 := by
    intro tag htag n
    simp only [sharedAreas, sibling_tags, List.mem_singleton]
    rw [← List.countP_eq_length_filter]
    exact List.count_eq_one_of_mem (List.nodup_dedup _) (List.mem_dedup.mpr htag)
  have hoverlap := overlap_le_of_followsRule hareas hfollows ((hone ha 1).trans (hone hb 2).symm)
  simp only [overlap_eq_countP, sibling_tags, List.mem_singleton] at hoverlap
  simpa only [List.count, beq_eq_decide] using hoverlap

theorem countAlike_of_followsRule : TagsCountAlike course.skillAreas := by
  have herror := areasOf_ne_error hfollows
  have hmem {areas : List String} (hareas : areasOf course.skillAreas = .ok areas) {area : String} (harea : area ∈ areas) :=
    mem_tags_of_followsRule hfollows hareas harea
  have hcount := count_le_of_followsRule hfollows
  cases hskills : course.skillAreas with
  | null => rfl
  | bool value => cases value with
    | false => rfl
    | true => exact absurd (by rw [hskills]; rfl) (herror .typeError)
  | num mantissa exponent =>
    by_cases hzero : mantissa = 0
    · simp [TagsCountAlike, isTruthy, hzero]
    · exact absurd (by simp [hskills, areasOf, isTruthy, hzero]) (herror .typeError)
  | str text =>
    cases hchars : text.toList with
    | nil => simp [TagsCountAlike, isTruthy, String.toList_eq_nil_iff.mp hchars]
    | cons char chars =>
      have htext : text ≠ "" := fun h => by simp [h] at hchars
      have hareas : areasOf course.skillAreas = .ok ((char :: chars).map String.singleton) := by
        simp [hskills, areasOf, isTruthy, htext, hchars]
      have hin := hmem hareas (List.mem_map_of_mem List.mem_cons_self)
      simp [hskills, Json.tags] at hin
  | arr items =>
    have hareas : areasOf course.skillAreas = .ok course.skillAreas.tags := by
      cases items <;> simp [hskills, areasOf, isTruthy, Json.tags]
    rw [hskills] at hareas hcount
    exact fun a ha b hb => Nat.le_antisymm (hcount hareas ha hb) (hcount hareas hb ha)
  | obj fields => cases fields with
    | nil => rfl
    | cons field fields =>
      have hareas : areasOf course.skillAreas = .ok ((field :: fields).map Prod.fst) := by
        simp [hskills, areasOf, isTruthy]
      have hin := hmem hareas (List.mem_map_of_mem List.mem_cons_self)
      simp [hskills, Json.tags] at hin

end FollowsRule

/-- The related courses follow the rule, whatever the catalogue and the limit, exactly where no tag of the course is listed
more often than another. -/
theorem relatedCourses_followsRule_iff (course : CourseRow) :
    (∀ (table : CourseTable) (limit : Int) (scan : Scan table.rows),
      FollowsRule table.rows course limit (relatedCourses course limit scan)) ↔ TagsCountAlike course.skillAreas :=
  ⟨countAlike_of_followsRule, fun h table limit scan => followsRule_of_countAlike table h limit scan⟩

/-! ### A tag listed twice -/

def grammarTwice : CourseRow where
  pk := 1
  language := 1
  level := .a1
  skillAreas := .arr [.str "grammar", .str "listening", .str "grammar"]
  status := .published
  publishedAt := some 1

/-- The course, an older one on grammar and a newer one on listening. -/
def grammarAndListening : CourseTable where
  rows := [grammarTwice, sibling grammarTwice 1 ["grammar"], sibling grammarTwice 2 ["listening"]]
  keys := by simp [Table.Unique, sibling]
  dated := by simp [sibling, grammarTwice]

/-- Each of the two shares one area with the course, and the older is listed. -/
theorem grammar_before_listening : ¬ FollowsRule grammarAndListening.rows grammarTwice 1
    (relatedCourses grammarTwice 1 ⟨grammarAndListening.rows, List.Perm.refl _⟩) := by
  have hareas : areasOf grammarTwice.skillAreas = .ok ["grammar", "listening", "grammar"] := rfl
  rw [relatedCourses_of_areas hareas (by decide)]
  intro hrule
  have htop := top_isTop (rankBy (overlap ["grammar", "listening", "grammar"]) grammarTwice) (IsCandidate grammarTwice) 1
    (List.Nodup.of_map _ grammarAndListening.keys) ⟨grammarAndListening.rows, List.Perm.refl _⟩
  have holder := sibling_isCandidate grammarTwice Nat.one_ne_zero ["grammar"]
  have hnewer := sibling_isCandidate grammarTwice (Nat.succ_ne_zero 1) ["listening"]
  refine IsTop.agree_of_one hrule htop (top_ne_nil _ _ Nat.one_ne_zero ?_ holder) ?_ ?_ holder ?_ hnewer ?_ ?_
  · simp [grammarAndListening]
  · simp [grammarAndListening, IsCandidate]
  · simp [grammarAndListening]
  · simp [grammarAndListening]
  · decide
  · decide

end EPlatform.Catalog
