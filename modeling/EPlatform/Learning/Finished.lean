import EPlatform.Catalog.Ownership
import EPlatform.Learning.Selectors

/-!
# One notion of a finished course

Five places say that a learner has finished a course: a count of rows, two counts over a join, two subqueries, a queryset
and the interface. They agree where the course has a lesson and the order of its lessons leaves no tie in the first place.
-/

namespace EPlatform.Learning

open Runs Runs.Query

/-! ### What the queries count -/

section Counts

variable {s : Study} {user course : Uuid}

/-- The lessons of a course. -/
def Study.taught (s : Study) (course : Uuid) : List Catalog.Lesson :=
  s.curriculum.lessons.filter fun lesson => lesson.courseId = course

/-- Those the learner has completed. -/
def Study.completed (s : Study) (user course : Uuid) : List Catalog.Lesson :=
  (s.taught course).filter fun lesson => lesson.pk ∈ completedLessonIds s.progress user

/-- The learner has completed whatever the course has. -/
def Study.NothingLeft (s : Study) (user course : Uuid) : Prop :=
  ∀ lesson ∈ s.taught course, lesson.pk ∈ completedLessonIds s.progress user

theorem mem_taught {lesson : Catalog.Lesson} :
    lesson ∈ s.taught course ↔ lesson ∈ s.curriculum.lessons ∧ lesson.courseId = course := by
  simp [Study.taught]

theorem mem_completed {lesson : Catalog.Lesson} :
    lesson ∈ s.completed user course ↔
      lesson ∈ s.taught course ∧ lesson.pk ∈ completedLessonIds s.progress user := by
  simp [Study.completed]

theorem mem_completedLessonIds {progress : List LessonProgress} {pk : Uuid} :
    pk ∈ completedLessonIds progress user ↔
      ∃ p ∈ progress, p.user = user ∧ p.completedAt.isSome ∧ p.lesson = pk := by
  simp [completedLessonIds, and_assoc]

theorem taught_unique (hs : s.Valid) (course : Uuid) : Table.Unique (·.pk) (s.taught course) :=
  hs.curriculum.lessonKeys.sublist (List.filter_sublist.map _)

theorem completed_unique (hs : s.Valid) (user course : Uuid) : Table.Unique (·.pk) (s.completed user course) :=
  (taught_unique hs course).sublist (List.filter_sublist.map _)

theorem length_completed_eq_iff :
    (s.completed user course).length = (s.taught course).length ↔ s.NothingLeft user course := by
  rw [Study.completed, List.length_filter_eq_length_iff]
  simp [Study.NothingLeft]

/-- A lesson arrives in the join with whatever progress there is on it. -/
theorem mem_lessonsWithProgress {lesson : Catalog.Lesson} {p : Option LessonProgress} :
    (some lesson, p) ∈ s.lessonsWithProgress course ↔
      lesson ∈ s.taught course ∧ p ∈ leftJoin (fun lesson p => p.lesson = lesson.pk) lesson s.progress := by
  rw [Study.lessonsWithProgress, List.mem_flatMap, mem_taught]
  constructor
  · rintro ⟨joined, hjoined, hrow⟩
    cases joined with
    | none => simp at hrow
    | some other =>
      obtain ⟨p', hp', heq⟩ := List.mem_map.mp hrow
      simp only [Prod.mk.injEq, Option.some.injEq] at heq
      obtain ⟨rfl, rfl⟩ := heq
      exact ⟨some_mem_leftJoin.mp hjoined, hp'⟩
  · rintro ⟨hlesson, hp⟩
    exact ⟨some lesson, some_mem_leftJoin.mpr hlesson, List.mem_map_of_mem hp⟩

variable {scans : Scans s} {enrollment : Enrollment} {row : Catalog.Course}

theorem lessonCount_eq (hs : s.Valid) :
    (courseInProgress s scans user enrollment row).lessonCount = (s.taught enrollment.course).length := by
  apply countDistinct_eq_length (taught_unique hs enrollment.course)
  intro k
  rw [List.mem_map]
  constructor
  · rintro ⟨⟨lesson, p⟩, hjoined, hkey⟩
    obtain ⟨lesson, rfl, rfl⟩ := Option.map_eq_some_iff.mp hkey
    exact ⟨lesson, (mem_lessonsWithProgress.mp hjoined).1, rfl⟩
  · rintro ⟨lesson, hlesson, rfl⟩
    obtain ⟨p, hp⟩ := exists_mem_leftJoin (fun lesson p => p.lesson = lesson.pk) lesson s.progress
    exact ⟨(some lesson, p), mem_lessonsWithProgress.mpr ⟨hlesson, hp⟩, rfl⟩

theorem completedLessonCount_eq (hs : s.Valid) :
    (courseInProgress s scans user enrollment row).completedLessonCount =
      (s.completed user enrollment.course).length := by
  apply countDistinct_eq_length (completed_unique hs user enrollment.course)
  intro k
  rw [List.mem_map]
  constructor
  · rintro ⟨⟨lesson, p⟩, hjoined, hkey⟩
    obtain ⟨lesson, rfl, rfl⟩ := Option.map_eq_some_iff.mp hkey
    rw [List.mem_filter, decide_eq_true_eq] at hjoined
    obtain ⟨hmem, p, rfl, hmine, hdone⟩ := hjoined
    obtain ⟨hlesson, hp⟩ := mem_lessonsWithProgress.mp hmem
    obtain ⟨hstored, hon⟩ := some_mem_leftJoin.mp hp
    exact ⟨lesson, mem_completed.mpr ⟨hlesson, mem_completedLessonIds.mpr ⟨p, hstored, hmine, hdone, hon⟩⟩, rfl⟩
  · rintro ⟨lesson, hcompleted, rfl⟩
    obtain ⟨hlesson, hdone⟩ := mem_completed.mp hcompleted
    obtain ⟨p, hstored, hmine, hdone, hon⟩ := mem_completedLessonIds.mp hdone
    refine ⟨(some lesson, some p), List.mem_filter.mpr ⟨?_, ?_⟩, rfl⟩
    · exact mem_lessonsWithProgress.mpr ⟨hlesson, some_mem_leftJoin.mpr ⟨hstored, hon⟩⟩
    · exact decide_eq_true ⟨p, rfl, hmine, hdone⟩

/-- What `course_is_complete` is given of the lessons. -/
def Study.lessons (s : Study) : List Lesson := s.curriculum.lessons.map fun lesson => ⟨lesson.pk, lesson.courseId⟩

theorem length_lessons (s : Study) (course : Uuid) :
    (s.lessons.filter fun lesson => lesson.course = course).length = (s.taught course).length := by
  rw [Study.lessons, List.filter_map, List.length_map]
  rfl

/-- The rows it counts. -/
def Study.finished (s : Study) (user course : Uuid) : List LessonProgress :=
  s.progress.filter fun p =>
    p.user = user ∧ p.completedAt.isSome ∧ ∃ lesson ∈ s.lessons, lesson.pk = p.lesson ∧ lesson.course = course

theorem mem_finished {p : LessonProgress} :
    p ∈ s.finished user course ↔
      p ∈ s.progress ∧ p.user = user ∧ p.completedAt.isSome ∧ ∃ lesson ∈ s.taught course, lesson.pk = p.lesson := by
  rw [Study.finished, List.mem_filter, decide_eq_true_iff]
  refine and_congr_right fun _ => and_congr_right fun _ => and_congr_right fun _ => ?_
  constructor
  · rintro ⟨_, hlesson, hon, hcourse⟩
    obtain ⟨lesson, hstored, rfl⟩ := List.mem_map.mp hlesson
    exact ⟨lesson, mem_taught.mpr ⟨hstored, hcourse⟩, hon⟩
  · rintro ⟨lesson, htaught, hon⟩
    obtain ⟨hlesson, hcourse⟩ := mem_taught.mp htaught
    exact ⟨_, List.mem_map_of_mem hlesson, hon, hcourse⟩

/-- The learner's completed rows on a course are one for each lesson completed. -/
theorem length_finished (hs : s.Valid) (user course : Uuid) :
    (s.finished user course).length = (s.completed user course).length := by
  have hnodup : ((s.finished user course).map (·.lesson)).Nodup := by
    apply List.Nodup.map_on _ (List.Nodup.filter _ (List.Nodup.of_map _ hs.oneProgressRowPerLesson))
    intro p hp p' hp' hsame
    obtain ⟨hstored, hmine, -⟩ := mem_finished.mp hp
    obtain ⟨hstored', hmine', -⟩ := mem_finished.mp hp'
    exact hs.oneProgressRowPerLesson.eq hstored hstored' (Prod.ext (hmine.trans hmine'.symm) hsame)
  have hsame : ∀ pk, pk ∈ (s.finished user course).map (·.lesson) ↔ pk ∈ (s.completed user course).map (·.pk) := by
    intro pk
    rw [List.mem_map, List.mem_map]
    constructor
    · rintro ⟨p, hp, rfl⟩
      obtain ⟨hstored, hmine, hdone, lesson, hlesson, hon⟩ := mem_finished.mp hp
      exact ⟨lesson, mem_completed.mpr ⟨hlesson, mem_completedLessonIds.mpr ⟨p, hstored, hmine, hdone, hon.symm⟩⟩, hon⟩
    · rintro ⟨lesson, hcompleted, rfl⟩
      obtain ⟨hlesson, hdone⟩ := mem_completed.mp hcompleted
      obtain ⟨p, hstored, hmine, hdone, hon⟩ := mem_completedLessonIds.mp hdone
      exact ⟨p, mem_finished.mpr ⟨hstored, hmine, hdone, lesson, hlesson, hon.symm⟩, hon⟩
  have hperm := (List.perm_ext_iff_of_nodup hnodup (completed_unique hs user course)).mpr hsame
  rw [← List.length_map (·.lesson), hperm.length_eq, List.length_map]

/-- The rule in one place: a course with lessons, and none of them left. -/
theorem courseIsComplete_iff (hs : s.Valid) :
    courseIsComplete s.lessons s.progress user course = true ↔
      (∃ lesson, lesson ∈ s.taught course) ∧ s.NothingLeft user course := by
  have hsome : (s.taught course).length ≠ 0 ↔ ∃ lesson, lesson ∈ s.taught course := by
    rw [Ne, List.length_eq_zero_iff]
    exact ⟨List.exists_mem_of_ne_nil _, fun ⟨lesson, hlesson⟩ => List.ne_nil_of_mem hlesson⟩
  have hle : (s.completed user course).length ≤ (s.taught course).length := List.length_filter_le _ _
  have hcounts : courseIsComplete s.lessons s.progress user course = true ↔
      (s.taught course).length ≠ 0 ∧ (s.taught course).length ≤ (s.completed user course).length := by
    rw [← length_lessons, ← length_finished hs]
    simp [courseIsComplete, Study.finished]
  rw [hcounts, hsome, ← length_completed_eq_iff]
  exact and_congr_right fun _ => ⟨fun hge => le_antisymm hle hge, fun heq => heq.ge⟩

end Counts

/-! ### What is left, in order -/

section Order

variable {s : Study} {user course : Uuid}

theorem mem_placed {placed : Placed} :
    placed ∈ s.placed ↔ placed.1 ∈ s.curriculum.lessons ∧ placed.2 ∈ s.curriculum.sections ∧
      placed.2.pk = placed.1.sectionId := by
  obtain ⟨lesson, parent⟩ := placed
  simp only [Study.placed, List.mem_flatMap, List.mem_map, List.mem_filter, decide_eq_true_eq, Prod.mk.injEq]
  constructor
  · rintro ⟨_, hlesson, _, ⟨hparent, hkey⟩, rfl, rfl⟩
    exact ⟨hlesson, hparent, hkey⟩
  · rintro ⟨hlesson, hparent, hkey⟩
    exact ⟨lesson, hlesson, parent, ⟨hparent, hkey⟩, rfl, rfl⟩

/-- A lesson is placed by its section, and by no other. -/
theorem placed_eq (hs : s.Valid) {a b : Placed} (ha : a ∈ s.placed) (hb : b ∈ s.placed) (hlesson : a.1 = b.1) :
    a = b := by
  obtain ⟨-, ha, hakey⟩ := mem_placed.mp ha
  obtain ⟨-, hb, hbkey⟩ := mem_placed.mp hb
  exact Prod.ext hlesson (hs.curriculum.sectionKeys.eq ha hb (hakey.trans ((congrArg _ hlesson).trans hbkey.symm)))

theorem nothingLeft_iff (hs : s.Valid) :
    s.NothingLeft user course ↔ ∀ placed ∈ s.placed, ¬ s.IsLeft user course placed := by
  constructor
  · rintro hnothing placed hplaced ⟨hcourse, hleft⟩
    exact hleft (hnothing placed.1 (mem_taught.mpr ⟨(mem_placed.mp hplaced).1, hcourse⟩))
  · intro hnone lesson htaught
    obtain ⟨hlesson, hcourse⟩ := mem_taught.mp htaught
    obtain ⟨parent, hparent, hkey⟩ := (hs.curriculum.lessons lesson hlesson).parent
    by_contra hleft
    exact hnone (lesson, parent) (mem_placed.mpr ⟨hlesson, hparent, hkey⟩) ⟨hcourse, hleft⟩

/-- The lesson stands first among those of the course that the learner has not completed. -/
def Study.IsNext (s : Study) (user course : Uuid) : Placed → Prop :=
  IsFirst curriculumOrder s.placed (s.IsLeft user course)

end Order

/-! ### Every finished is the same finished -/

/-- What the row says, what the rule says and what the query for the next lesson says. -/
structure OneFinish (s : Study) (user : Uuid) (scan : Scan s.placed) (row : CourseInProgress) : Prop where
  resumePoint : resumePoint row.serialize = .finished ↔
    courseIsComplete s.lessons s.progress user row.enrollment.course = true
  nextLessonFor : courseIsComplete s.lessons s.progress user row.enrollment.course = true ↔
    nextLessonFor s scan user row.enrollment.course = none
  counts : row.completedLessonCount = row.lessonCount ↔ row.nextLesson = none
  sameLesson : (row.nextLesson = none ∧ row.nextLessonSlug = none ∧ s.NothingLeft user row.enrollment.course) ∨
    ∃ next, s.IsNext user row.enrollment.course next ∧ row.nextLesson = some next.1.pk ∧
      row.nextLessonSlug = some next.1.slug

/-- The course has a lesson, and of those the learner has left no two stand together at the front. -/
structure Study.Settled (s : Study) (user course : Uuid) : Prop where
  hasLesson : ∃ lesson, lesson ∈ s.taught course
  oneIsNext : ∀ a b, s.IsNext user course a → s.IsNext user course b → a = b

/-- In a curriculum that stays inside its courses, as each run of its operations leaves it, no two lessons of a course are tied:
only that there is a lesson remains of the condition. -/
theorem settled_of_staysInside {s : Study} {user course : Uuid} (hinside : Catalog.StaysInside s.curriculum)
    (hlesson : ∃ lesson, lesson ∈ s.taught course) : s.Settled user course := by
  refine ⟨hlesson, fun a b ha hb => ?_⟩
  obtain ⟨hlessonA, hsectionA, hkeyA⟩ := mem_placed.mp ha.1
  obtain ⟨hlessonB, hsectionB, hkeyB⟩ := mem_placed.mp hb.1
  have htied : curriculumOrder a = curriculumOrder b := le_antisymm (ha.2.2 b hb.1 hb.2.1) (hb.2.2 a ha.1 ha.2.1)
  obtain ⟨hsectionPosition, hposition⟩ := Prod.ext_iff.mp (toLex_inj.mp htied)
  have hcourse : a.2.courseId = b.2.courseId := by
    calc a.2.courseId = a.1.courseId := ((hinside.lessons a.1 hlessonA).course a.2 hsectionA hkeyA).symm
      _ = b.1.courseId := ha.2.1.1.trans hb.2.1.1.symm
      _ = b.2.courseId := (hinside.lessons b.1 hlessonB).course b.2 hsectionB hkeyB
  have hsection : a.2 = b.2 :=
    hinside.sectionPositions.eq hsectionA hsectionB (Prod.ext hcourse hsectionPosition)
  have hsectionId : a.1.sectionId = b.1.sectionId := hkeyA.symm.trans ((congrArg _ hsection).trans hkeyB)
  exact Prod.ext (hinside.lessonPositions.eq hlessonA hlessonB (Prod.ext hsectionId hposition)) hsection

section Finish

variable {s : Study} {user : Uuid} {scans : Scans s} {enrollment : Enrollment} {course : Catalog.Course}

theorem resumePoint_finished {row : EnrollmentJson} : resumePoint row = .finished ↔ row.nextLessonSlug = none := by
  rw [resumePoint]
  cases row.nextLessonSlug with
  | none => simp
  | some slug => simp

theorem oneFinish_of_settled (hs : s.Valid) (hsettled : s.Settled user enrollment.course) :
    OneFinish s user scans.nextLessonFor (courseInProgress s scans user enrollment course) := by
  have hcomplete : courseIsComplete s.lessons s.progress user enrollment.course = true ↔
      (∃ lesson, lesson ∈ s.taught enrollment.course) ∧ s.NothingLeft user enrollment.course :=
    courseIsComplete_iff hs
  rw [and_iff_right hsettled.hasLesson] at hcomplete
  have hnone : ∀ scan : Scan s.placed, first curriculumOrder (s.IsLeft user enrollment.course) scan = none ↔
      s.NothingLeft user enrollment.course := by
    intro scan
    rw [first_eq_none, nothingLeft_iff hs]
  constructor
  · have hslug : (courseInProgress s scans user enrollment course).serialize.nextLessonSlug = none ↔
        s.NothingLeft user enrollment.course := Option.map_eq_none_iff.trans (hnone scans.nextLessonSlug)
    exact resumePoint_finished.trans (hslug.trans hcomplete.symm)
  · exact hcomplete.trans ((hnone scans.nextLessonFor).symm.trans Option.map_eq_none_iff.symm)
  · rw [lessonCount_eq hs, completedLessonCount_eq hs, length_completed_eq_iff, ← hnone scans.nextLesson]
    exact Option.map_eq_none_iff.symm
  · cases hnext : first curriculumOrder (s.IsLeft user enrollment.course) scans.nextLesson with
    | none =>
      have hleft := (hnone scans.nextLesson).mp hnext
      have hslug := (hnone scans.nextLessonSlug).mpr hleft
      exact .inl ⟨Option.map_eq_none_iff.mpr hnext, Option.map_eq_none_iff.mpr hslug, hleft⟩
    | some next =>
      obtain ⟨other, hother⟩ : ∃ other,
          first curriculumOrder (s.IsLeft user enrollment.course) scans.nextLessonSlug = some other := by
        apply Option.ne_none_iff_exists'.mp
        rw [Ne, hnone, ← hnone scans.nextLesson, hnext]
        exact Option.some_ne_none next
      obtain rfl := hsettled.oneIsNext _ _ (isFirst_of_first hnext) (isFirst_of_first hother)
      exact .inr ⟨next, isFirst_of_first hnext, by simp [courseInProgress, nextLessonId, hnext],
        by simp [courseInProgress, nextLessonSlug, hother]⟩

/-- A course without a lesson is finished to the interface and never complete. -/
theorem hasLesson_of_oneFinish (hs : s.Valid)
    (h : OneFinish s user scans.nextLessonFor (courseInProgress s scans user enrollment course)) :
    ∃ lesson, lesson ∈ s.taught enrollment.course := by
  by_contra hempty
  have hnothing : s.NothingLeft user enrollment.course := fun lesson hlesson => absurd ⟨lesson, hlesson⟩ hempty
  have hnext : nextLessonFor s scans.nextLessonFor user enrollment.course = none :=
    Option.map_eq_none_iff.mpr (first_eq_none.mpr ((nothingLeft_iff hs).mp hnothing))
  exact hempty ((courseIsComplete_iff hs).mp (h.nextLessonFor.mpr hnext)).1

/-- Of two lessons at the front, one subquery may name the one and the other the other. -/
theorem oneIsNext_of_oneFinish (hs : s.Valid)
    (h : ∀ scans : Scans s, OneFinish s user scans.nextLessonFor (courseInProgress s scans user enrollment course))
    {a b : Placed} (ha : s.IsNext user enrollment.course a) (hb : s.IsNext user enrollment.course b) : a = b := by
  obtain ⟨scanA, hscanA⟩ := exists_first ha
  obtain ⟨scanB, hscanB⟩ := exists_first hb
  have hid : (courseInProgress s ⟨scanA, scanB, scanA⟩ user enrollment course).nextLesson = some a.1.pk := by
    simp [courseInProgress, nextLessonId, hscanA]
  have hslug : (courseInProgress s ⟨scanA, scanB, scanA⟩ user enrollment course).nextLessonSlug = some b.1.slug := by
    simp [courseInProgress, nextLessonSlug, hscanB]
  rcases (h ⟨scanA, scanB, scanA⟩).sameLesson with ⟨hnone, -⟩ | ⟨next, hnext, hnextId, hnextSlug⟩
  · rw [hid] at hnone
    exact absurd hnone (Option.some_ne_none _)
  · have hkeyA : next.1.pk = a.1.pk := Option.some.inj (hnextId.symm.trans hid)
    have hslugB : next.1.slug = b.1.slug := Option.some.inj (hnextSlug.symm.trans hslug)
    have hlessonA : next.1 = a.1 :=
      hs.curriculum.lessonKeys.eq (mem_placed.mp hnext.1).1 (mem_placed.mp ha.1).1 hkeyA
    have hlessonB : next.1 = b.1 :=
      hs.curriculum.lessonSlugUniquePerCourse.eq (mem_placed.mp hnext.1).1 (mem_placed.mp hb.1).1
        (Prod.ext (hnext.2.1.1.trans hb.2.1.1.symm) hslugB)
    exact placed_eq hs ha.1 hb.1 (hlessonA.symm.trans hlessonB)

end Finish

/-- A row of a learner's courses is an enrolment of theirs with its course. -/
theorem mem_coursesInProgress {s : Study} {scans : Enrollment → Scans s} {user : Uuid} {row : CourseInProgress} :
    row ∈ coursesInProgress s scans user ↔ ∃ enrollment ∈ s.enrollments, enrollment.user = user ∧
      ∃ course ∈ s.curriculum.courses, course.pk = enrollment.course ∧
        row = courseInProgress s (scans enrollment) user enrollment course := by
  simp only [coursesInProgress, List.mem_flatMap, List.mem_filter, List.mem_map, decide_eq_true_eq]
  constructor
  · rintro ⟨enrollment, ⟨henrolled, hmine⟩, course, ⟨hcourse, hkey⟩, rfl⟩
    exact ⟨enrollment, henrolled, hmine, course, hcourse, hkey, rfl⟩
  · rintro ⟨enrollment, henrolled, hmine, course, hcourse, hkey, rfl⟩
    exact ⟨enrollment, ⟨henrolled, hmine⟩, course, ⟨hcourse, hkey⟩, rfl⟩

/-- Whatever order the queries meet the lessons in, every finished is the same finished for an enrolment exactly when its
course has a lesson and no two of those left are tied for the first place. -/
theorem oneFinish_iff (db : Study.Database) {enrollment : Enrollment}
    (henrolled : enrollment ∈ db.rows.enrollments) :
    (∀ scans : Enrollment → Scans db.rows, ∀ row ∈ coursesInProgress db.rows scans enrollment.user,
        row.enrollment = enrollment → OneFinish db.rows enrollment.user (scans enrollment).nextLessonFor row) ↔
      db.rows.Settled enrollment.user enrollment.course := by
  obtain ⟨course, hcourse, hkey⟩ := (db.valid.enrollments enrollment henrolled).1
  constructor
  · intro h
    have hrow : ∀ scans : Scans db.rows, OneFinish db.rows enrollment.user scans.nextLessonFor
        (courseInProgress db.rows scans enrollment.user enrollment course) := by
      intro scans
      have hmem : courseInProgress db.rows scans enrollment.user enrollment course ∈
          coursesInProgress db.rows (fun _ => scans) enrollment.user :=
        mem_coursesInProgress.mpr ⟨enrollment, henrolled, rfl, course, hcourse, hkey, rfl⟩
      exact h (fun _ => scans) _ hmem rfl
    let asStored : Scan db.rows.placed := ⟨db.rows.placed, List.Perm.refl _⟩
    exact ⟨hasLesson_of_oneFinish db.valid (hrow ⟨asStored, asStored, asStored⟩),
      fun a b ha hb => oneIsNext_of_oneFinish db.valid hrow ha hb⟩
  · rintro hsettled scans row hrow hsame
    obtain ⟨enrollment', -, -, course', -, -, rfl⟩ := mem_coursesInProgress.mp hrow
    obtain rfl : enrollment' = enrollment := hsame
    exact oneFinish_of_settled db.valid hsettled

def spanish : Catalog.Course where
  pk := 3
  slug := "spanish-a1"
  title := "Spanish A1"
  description := ""
  language := 1
  level := .a1
  skillAreas := []
  instructor := 7
  status := .published
  publishedAt := some 1
  searchVector := none
  updatedAt := 1

def started : Enrollment := ⟨9, 3, none, 2, none, 2⟩

/-- A learner of a course with one lesson. -/
def oneLesson : Study.Database where
  rows :=
    { curriculum :=
        ⟨[spanish], [⟨20, 3, "Greetings", 1, 0⟩], [⟨30, 3, 20, "hola", "Hola", "", .video, 1, false, 0⟩]⟩
      progress := []
      enrollments := [started] }
  valid := by decide

/-- The same learner once the lesson was removed. -/
def noLesson : Study.Database where
  rows := { oneLesson.rows with curriculum := { oneLesson.rows.curriculum with lessons := [] } }
  valid := by decide

theorem one_lesson_is_settled :
    (∀ scans : Enrollment → Scans oneLesson.rows, ∀ row ∈ coursesInProgress oneLesson.rows scans 9,
        row.enrollment = started → OneFinish oneLesson.rows 9 (scans started).nextLessonFor row) ↔
      oneLesson.rows.Settled 9 3 :=
  oneFinish_iff oneLesson (List.mem_singleton_self started)

/-- The interface calls an empty course finished, and the rule says it is not complete. -/
theorem empty_course_is_finished :
    ¬ ∀ scans : Enrollment → Scans noLesson.rows, ∀ row ∈ coursesInProgress noLesson.rows scans 9,
        row.enrollment = started → OneFinish noLesson.rows 9 (scans started).nextLessonFor row := by
  intro h
  let empty : Scan noLesson.rows.placed := ⟨[], by decide⟩
  have hrow := h (fun _ => ⟨empty, empty, empty⟩) _ (List.mem_singleton_self _) rfl
  exact absurd (hrow.resumePoint.mp (by decide)) (by decide)

end EPlatform.Learning
