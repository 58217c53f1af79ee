import EPlatform.MediaAssets.MediaAsset

/-!
# How long a course is

The subquery behind a course's total length: null unless every lesson that counts has been measured.
-/

namespace EPlatform.Catalog

inductive LessonType
  | video
  | audio
  | text
  | resource
  deriving DecidableEq, Repr

/-- The types that carry a `MediaAsset`, and therefore a duration. -/
def LessonType.withMedia : List LessonType := [.video, .audio]

/-- A lesson as the subquery joins it: its type, and its asset if it has one. -/
structure TimedLesson where
  lessonType : LessonType
  mediaAsset : Option MediaAssets.MediaAsset
  deriving DecidableEq, Repr

/-- `_LESSON_DURATION`. -/
def TimedLesson.lessonDuration (lesson : TimedLesson) : Option Int := lesson.mediaAsset.bind (·.durationSeconds)

/-- `_COUNTS_TOWARD_DURATION`. -/
def TimedLesson.countsTowardDuration (lesson : TimedLesson) : Bool :=
  lesson.lessonType ∈ LessonType.withMedia || lesson.mediaAsset.isSome

def measuredSeconds (lessons : List TimedLesson) : List Int :=
  (lessons.filter (·.countsTowardDuration)).filterMap (·.lessonDuration)

/-- `Sum`. -/
def sumSeconds (seconds : List Int) : Int := seconds.foldr (fun first rest => first + rest) 0

/-- `_TOTAL_DURATION`. A subquery without rows is null, and so is a group with a lesson still to be measured. -/
def totalDuration (lessons : List TimedLesson) : Option Int :=
  let measurable := lessons.filter (·.countsTowardDuration)
  if measurable.isEmpty then none
  else if measurable.length = (measuredSeconds lessons).length then some (sumSeconds (measuredSeconds lessons))
  else none

theorem sumSeconds_append_cons (before after : List Int) (seconds : Int) :
    sumSeconds (before ++ seconds :: after) = seconds + sumSeconds (before ++ after) := by
  induction before with
  | nil => rfl
  | cons first before ih =>
    have hfirst : ∀ rest, sumSeconds (first :: rest) = first + sumSeconds rest := fun _ => rfl
    rw [List.cons_append, hfirst, ih, List.cons_append, hfirst]
    omega

theorem measuredSeconds_append (lessons later : List TimedLesson) :
    measuredSeconds (lessons ++ later) = measuredSeconds lessons ++ measuredSeconds later := by
  simp only [measuredSeconds, List.filter_append, List.filterMap_append]

theorem measuredSeconds_cons {lesson : TimedLesson} (later : List TimedLesson) {seconds : Int}
    (hcounts : lesson.countsTowardDuration = true) (hmeasured : lesson.lessonDuration = some seconds) :
    measuredSeconds (lesson :: later) = seconds :: measuredSeconds later := by
  rw [measuredSeconds, List.filter_cons_of_pos hcounts, List.filterMap_cons_some hmeasured, measuredSeconds]

/-- A total is the sum of what the lessons that count were measured at, each of them once. -/
theorem totalDuration_eq_some {lessons : List TimedLesson} {total : Int} (h : totalDuration lessons = some total) :
    (∀ lesson ∈ lessons, lesson.countsTowardDuration = true → ∃ seconds, lesson.lessonDuration = some seconds) ∧
      total = sumSeconds (measuredSeconds lessons) := by
  simp only [totalDuration] at h
  split_ifs at h with hempty hall
  cases h
  refine ⟨fun lesson hlesson hcounts => ?_, rfl⟩
  have hmeasured := List.filterMap_length_eq_length.mp hall.symm lesson (List.mem_filter.mpr ⟨hlesson, hcounts⟩)
  exact Option.isSome_iff_exists.mp hmeasured

/-- A lesson with an asset adds its asset's duration to the total. -/
theorem totalDuration_of_asset {lesson : TimedLesson} {asset : MediaAssets.MediaAsset} {before after : List TimedLesson}
    {total : Int} (hasset : lesson.mediaAsset = some asset)
    (h : totalDuration (before ++ lesson :: after) = some total) :
    ∃ seconds, asset.durationSeconds = some seconds ∧ total = seconds + sumSeconds (measuredSeconds (before ++ after)) := by
  have hcounts : lesson.countsTowardDuration = true := by simp [TimedLesson.countsTowardDuration, hasset]
  obtain ⟨hmeasured, hsum⟩ := totalDuration_eq_some h
  obtain ⟨seconds, hseconds⟩ := hmeasured lesson (by simp) hcounts
  refine ⟨seconds, ?_, ?_⟩
  · rwa [TimedLesson.lessonDuration, hasset] at hseconds
  · rw [hsum, measuredSeconds_append, measuredSeconds_cons after hcounts hseconds, sumSeconds_append_cons,
      ← measuredSeconds_append]

end EPlatform.Catalog
