import EPlatform.Catalog.Selectors
import EPlatform.Runs.Query
import Mathlib.Algebra.BigOperators.Group.List.Basic

/-!
# The subquery behind a course's length

`_TOTAL_DURATION` over the tables of lessons and assets: the outer join, the filter, the group, its two counts and its sum.
-/

namespace EPlatform.Catalog

open Runs Runs.Query

structure LessonRow where
  pk : Uuid
  course : Uuid
  lessonType : LessonType
  deriving DecidableEq, Repr

structure AssetRow where
  lesson : Uuid
  mediaAsset : MediaAssets.MediaAsset
  deriving DecidableEq, Repr

/-- The lessons of every course, and the assets. No two assets are of one lesson. -/
structure Tables where
  lessons : List LessonRow
  assets : List AssetRow
  oneToOne : Table.Unique (·.lesson) assets

/-- A row of the join, as the conditions and the aggregates see it. -/
def timed (row : LessonRow × Option AssetRow) : TimedLesson := ⟨row.1.lessonType, row.2.map (·.mediaAsset)⟩

/-- `lesson LEFT JOIN media_asset`. -/
def Tables.joined (t : Tables) : List (LessonRow × Option AssetRow) :=
  t.lessons.flatMap fun lesson =>
    (leftJoin (fun (lesson : LessonRow) (asset : AssetRow) => asset.lesson = lesson.pk) lesson t.assets).map (lesson, ·)

/-- The rows of `Lesson.objects.filter(_COUNTS_TOWARD_DURATION, course=...)`. -/
def Tables.measurable (t : Tables) (course : Uuid) : List (LessonRow × Option AssetRow) :=
  t.joined.filter fun row => (timed row).countsTowardDuration ∧ row.1.course = course

/-- `_total` of one group. -/
def total (group : List (LessonRow × Option AssetRow)) : Option Int :=
  if count (group.map fun row => some row.1.pk) = count (group.map fun row => (timed row).lessonDuration) then
    sum (group.map fun row => (timed row).lessonDuration)
  else none

/-- `total_duration_seconds`. -/
def Tables.totalDurationSeconds (t : Tables) (course : Uuid) : Option Int :=
  ((groups (·.1.course) (t.measurable course)).map total).head?.join

/-! ### What it is the length of -/

/-- A course's lessons, each with its asset. -/
def Tables.lessonsOf (t : Tables) (course : Uuid) : List (LessonRow × Option AssetRow) :=
  (t.lessons.filter (·.course = course)).map fun lesson => (lesson, Table.find (·.lesson) lesson.pk t.assets)

def Tables.duration (t : Tables) (lesson : LessonRow) : Option Int :=
  (Table.find (·.lesson) lesson.pk t.assets).bind (·.mediaAsset.durationSeconds)

/-- It ought to have a duration, or it has what would have one. -/
def Tables.Counts (t : Tables) (lesson : LessonRow) : Prop :=
  lesson.lessonType ∈ LessonType.withMedia ∨ ∃ asset ∈ t.assets, asset.lesson = lesson.pk

instance (t : Tables) : DecidablePred t.Counts := fun _ => inferInstanceAs (Decidable (_ ∨ ∃ asset ∈ t.assets, _))

def Tables.counting (t : Tables) (course : Uuid) : List LessonRow :=
  t.lessons.filter fun lesson => lesson.course = course ∧ t.Counts lesson

def Tables.addLesson (t : Tables) (lesson : LessonRow) : Tables := { t with lessons := lesson :: t.lessons }

/-! ### The subquery computes it -/

section Subquery

variable {t t' : Tables} {course : Uuid}

/-- Every lesson is joined to its asset, or to null. -/
theorem joined_eq (t : Tables) :
    t.joined = t.lessons.map fun lesson => (lesson, Table.find (·.lesson) lesson.pk t.assets) := by
  rw [List.map_eq_flatMap]
  simp only [Tables.joined, leftJoin_key t.oneToOne, List.map_singleton]

theorem measurable_eq (t : Tables) (course : Uuid) :
    t.measurable course = (t.lessonsOf course).filter fun row => (timed row).countsTowardDuration := by
  rw [Tables.measurable, joined_eq, Tables.lessonsOf, List.filter_map, List.filter_map, List.filter_filter]
  congr 1
  apply List.filter_congr
  intro lesson _
  simp

theorem measuredSeconds_eq (rows : List (LessonRow × Option AssetRow)) :
    measuredSeconds (rows.map timed) =
      ((rows.filter fun row => (timed row).countsTowardDuration).map fun row => (timed row).lessonDuration).reduceOption := by
  rw [measuredSeconds, List.filter_map, List.filterMap_map, List.reduceOption, List.filterMap_map]
  rfl

theorem total_eq (rows : List (LessonRow × Option AssetRow))
    (hne : (rows.filter fun row => (timed row).countsTowardDuration) ≠ []) :
    total (rows.filter fun row => (timed row).countsTowardDuration) = totalDuration (rows.map timed) := by
  have hmeasurable : (rows.map timed).filter (·.countsTowardDuration) =
      (rows.filter fun row => (timed row).countsTowardDuration).map timed := List.filter_map
  have hnonempty : ((rows.map timed).filter (·.countsTowardDuration)).isEmpty = false := by
    rw [hmeasurable]
    simpa using hne
  have hseconds : ∀ seconds, sumSeconds seconds = seconds.sum := fun _ => rfl
  rw [total, totalDuration, count_some, count, sum, hnonempty, ← measuredSeconds_eq, hmeasurable, List.length_map]
  simp only [Bool.false_eq_true, if_false]
  split
  · rename_i hall
    cases hmeasured : measuredSeconds (rows.map timed) with
    | nil =>
      rw [hmeasured, List.length_nil, List.length_eq_zero_iff] at hall
      exact absurd hall hne
    | cons first rest => rfl
  · rfl

/-- The subquery is null or the sum, as `totalDuration` has it for the course's own lessons. -/
theorem totalDurationSeconds_eq (t : Tables) (course : Uuid) :
    t.totalDurationSeconds course = totalDuration ((t.lessonsOf course).map timed) := by
  have hmeasurable := measurable_eq t course
  by_cases hne : (t.lessonsOf course).filter (fun row => (timed row).countsTowardDuration) = []
  · have hempty : ((t.lessonsOf course).map timed).filter (·.countsTowardDuration) = [] := by
      rw [List.filter_map]
      exact congrArg (List.map timed) hne
    rw [Tables.totalDurationSeconds, hmeasurable, hne, totalDuration, hempty]
    rfl
  · have hcourse : ∀ row ∈ (t.lessonsOf course).filter (fun row => (timed row).countsTowardDuration),
        row.1.course = course := by
      intro row hrow
      obtain ⟨lesson, hlesson, rfl⟩ := List.mem_map.mp (List.mem_of_mem_filter hrow)
      simpa using (List.mem_filter.mp hlesson).2
    rw [Tables.totalDurationSeconds, hmeasurable, groups_of_forall_eq hne hcourse, List.map_singleton, List.head?_cons,
      total_eq _ hne]
    cases totalDuration ((t.lessonsOf course).map timed) <;> rfl

theorem totalDuration_eq_some_iff {lessons : List TimedLesson} {total : Int} :
    totalDuration lessons = some total ↔
      lessons.filter (·.countsTowardDuration) ≠ [] ∧
        (∀ lesson ∈ lessons.filter (·.countsTowardDuration), lesson.lessonDuration.isSome) ∧
          total = ((lessons.filter (·.countsTowardDuration)).map fun lesson => lesson.lessonDuration.getD 0).sum := by
  have hall : (lessons.filter (·.countsTowardDuration)).length = (measuredSeconds lessons).length ↔
      ∀ lesson ∈ lessons.filter (·.countsTowardDuration), lesson.lessonDuration.isSome := by
    rw [eq_comm, measuredSeconds, List.filterMap_length_eq_length]
  have hsum : (∀ lesson ∈ lessons.filter (·.countsTowardDuration), lesson.lessonDuration.isSome) →
      sumSeconds (measuredSeconds lessons) =
        ((lessons.filter (·.countsTowardDuration)).map fun lesson => lesson.lessonDuration.getD 0).sum := by
    intro hmeasured
    have hseconds : ∀ seconds, sumSeconds seconds = seconds.sum := fun _ => rfl
    rw [hseconds, measuredSeconds]
    generalize lessons.filter (·.countsTowardDuration) = counting at hmeasured
    induction counting with
    | nil => rfl
    | cons lesson rest ih =>
      obtain ⟨seconds, hlesson⟩ := Option.isSome_iff_exists.mp (hmeasured lesson List.mem_cons_self)
      rw [List.filterMap_cons_some hlesson, List.sum_cons, List.map_cons, List.sum_cons, hlesson, Option.getD_some,
        ih fun lesson hlesson => hmeasured lesson (List.mem_cons_of_mem _ hlesson)]
  simp only [totalDuration]
  by_cases hempty : lessons.filter (·.countsTowardDuration) = []
  · simp [hempty]
  · rw [List.isEmpty_eq_false_iff.mpr hempty]
    simp only [Bool.false_eq_true, if_false, hall]
    split
    · rename_i hmeasured
      rw [Option.some.injEq, hsum hmeasured]
      exact ⟨fun htotal => ⟨hempty, hmeasured, htotal.symm⟩, fun h => h.2.2.symm⟩
    · rename_i hmeasured
      exact iff_of_false (by simp) fun h => hmeasured h.2.1

/-- A lesson counts in the joined table if it counts. -/
theorem countsTowardDuration_iff (t : Tables) (lesson : LessonRow) :
    (timed (lesson, Table.find (·.lesson) lesson.pk t.assets)).countsTowardDuration = true ↔ t.Counts lesson := by
  have hasset : (Table.find (·.lesson) lesson.pk t.assets).isSome = true ↔ ∃ asset ∈ t.assets, asset.lesson = lesson.pk := by
    rw [Table.find, List.find?_isSome]
    simp
  rw [TimedLesson.countsTowardDuration, Bool.or_eq_true, timed, Option.isSome_map, hasset, decide_eq_true_iff]
  rfl

theorem counting_eq (t : Tables) (course : Uuid) :
    ((t.lessonsOf course).map timed).filter (·.countsTowardDuration) =
      (t.counting course).map fun lesson => timed (lesson, Table.find (·.lesson) lesson.pk t.assets) := by
  rw [Tables.lessonsOf, List.map_map, List.filter_map, List.filter_filter, Tables.counting]
  congr 1
  apply List.filter_congr
  intro lesson _
  rw [Bool.eq_iff_iff]
  simp [countsTowardDuration_iff, and_comm]

/-- The total is the sum of the durations of the lessons that count, when there are any and each of them has one. -/
theorem totalDurationSeconds_eq_some_iff {total : Int} :
    t.totalDurationSeconds course = some total ↔
      t.counting course ≠ [] ∧ (∀ lesson ∈ t.counting course, (t.duration lesson).isSome) ∧
        total = ((t.counting course).map fun lesson => (t.duration lesson).getD 0).sum := by
  have hduration : ∀ lesson, (timed (lesson, Table.find (·.lesson) lesson.pk t.assets)).lessonDuration = t.duration lesson := by
    intro lesson
    rw [TimedLesson.lessonDuration, timed, Option.bind_map]
    rfl
  rw [totalDurationSeconds_eq, totalDuration_eq_some_iff, counting_eq, List.map_map]
  simp only [ne_eq, List.map_eq_nil_iff, List.forall_mem_map, hduration, Function.comp_def]

theorem totalDurationSeconds_congr (h : (t.lessonsOf course).Perm (t'.lessonsOf course)) :
    t.totalDurationSeconds course = t'.totalDurationSeconds course := by
  apply Option.ext
  intro total
  have hcounting : (((t.lessonsOf course).map timed).filter (·.countsTowardDuration)).Perm
      (((t'.lessonsOf course).map timed).filter (·.countsTowardDuration)) := (h.map timed).filter _
  rw [totalDurationSeconds_eq, totalDurationSeconds_eq, totalDuration_eq_some_iff, totalDuration_eq_some_iff,
    (hcounting.map _).sum_eq]
  simp only [ne_eq, ← List.length_eq_zero_iff, hcounting.length_eq, hcounting.mem_iff]

theorem counting_addLesson {lesson : LessonRow} (h : ¬ t.Counts lesson) :
    (t.addLesson lesson).counting course = t.counting course := by
  have hskipped : ¬ (lesson.course = course ∧ t.Counts lesson) := fun hcounts => h hcounts.2
  have hrows : (t.addLesson lesson).counting course =
      (lesson :: t.lessons).filter fun lesson => lesson.course = course ∧ t.Counts lesson := rfl
  rw [hrows, List.filter_cons_of_neg (by simpa using hskipped), Tables.counting]

end Subquery

/-- The advertised length, which only the course's own lessons decide, and of those only the ones that count. -/
theorem totalDurationSeconds_spec (t : Tables) (course : Uuid) :
    (∀ total, t.totalDurationSeconds course = some total ↔
      t.counting course ≠ [] ∧ (∀ lesson ∈ t.counting course, (t.duration lesson).isSome) ∧
        total = ((t.counting course).map fun lesson => (t.duration lesson).getD 0).sum) ∧
      (∀ t' : Tables, (t.lessonsOf course).Perm (t'.lessonsOf course) →
        t.totalDurationSeconds course = t'.totalDurationSeconds course) ∧
      ∀ lesson, ¬ t.Counts lesson → (t.addLesson lesson).totalDurationSeconds course = t.totalDurationSeconds course := by
  refine ⟨fun total => totalDurationSeconds_eq_some_iff, fun t' h => totalDurationSeconds_congr h, fun lesson h => ?_⟩
  apply Option.ext
  intro total
  rw [totalDurationSeconds_eq_some_iff, totalDurationSeconds_eq_some_iff, counting_addLesson h]
  rfl

end EPlatform.Catalog
