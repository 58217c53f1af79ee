import EPlatform.Catalog.Ownership
import EPlatform.Runs.Interleaving
import EPlatform.Transcripts.Tasks
import EPlatform.Transcripts.Views

/-!
# Edits that name some of the fields

Edits of sections, lessons and cues, each acting on an instance its view loaded earlier, and reorders between them. A
save writes every column it has from the copy in memory, whichever fields the request named.
-/

namespace EPlatform.Lessons

open Runs Catalog

structure Content where
  curriculum : Curriculum.Database
  transcript : Transcripts.Database
  deriving DecidableEq

inductive EditRequest
  | updateSection (course pk : Uuid) (actor : User) (edit : SectionEdit)
  | updateLesson (course pk : Uuid) (actor : User) (change : LessonChange)
  | reorderSections (course : Uuid) (actor : User) (orderedIds : List Uuid)
  | reorderLessons (course parent : Uuid) (actor : User) (orderedIds : List Uuid)
  | editSegment (pk : Uuid) (actor : User) (edit : Transcripts.SegmentEdit)
  deriving DecidableEq, Repr

/-- A request between its load and its commit, with the instances its view loaded. -/
inductive EditFlight
  | updateSection (s : Section) (course : Course) (actor : User) (edit : SectionEdit)
  | updateLesson (l : Catalog.Lesson) (course : Course) (actor : User) (edit : LessonEdit)
  | reorderSections (course : Course) (orderedIds : List Uuid)
  | reorderLessons (parent : Section) (orderedIds : List Uuid)
  | editSegment (segment : Transcripts.TranscriptSegment) (transcript : Transcripts.Transcript) (actor : User)
    (edit : Transcripts.SegmentEdit)
  deriving DecidableEq, Repr

def lessonOf (course : Course) (pk : Uuid) (rows : Curriculum) : Except CurriculumError Catalog.Lesson := do
  let l ← lookUp (·.pk) pk rows.lessons
  require (l.courseId = course.pk) .noSuchRow
  return l

/-- The serializer of a lesson looks its section up in the course, too. -/
def resolveIn (course : Course) (change : LessonChange) (rows : Curriculum) : Except CurriculumError LessonEdit := do
  let edit ← change.resolve rows
  require (∀ parent ∈ edit.parent, parent.courseId = course.pk) .noSuchRow
  return edit

def loadCurriculum (rows : Curriculum) : EditRequest → Except CurriculumError EditFlight
  | .updateSection course pk actor edit => do
    let course ← courseOf actor course rows
    let s ← sectionOf course pk rows
    return .updateSection s course actor edit
  | .updateLesson course pk actor change => do
    let course ← courseOf actor course rows
    let l ← lessonOf course pk rows
    let edit ← resolveIn course change rows
    return .updateLesson l course actor edit
  | .reorderSections course actor orderedIds => do
    let course ← courseOf actor course rows
    return .reorderSections course orderedIds
  | .reorderLessons course parent actor orderedIds => do
    let course ← courseOf actor course rows
    let parent ← sectionOf course parent rows
    return .reorderLessons parent orderedIds
  | .editSegment .. => .error .noSuchRow

def loadEdit (request : EditRequest) (s : Content) : Option EditFlight :=
  match request with
  | .editSegment pk actor edit =>
    match Transcripts.loadReview s.transcript.rows (.patch pk edit actor) with
    | some (.patch segment transcript edit actor) => some (.editSegment segment transcript actor edit)
    | _ => none
  | request => (loadCurriculum s.curriculum.rows request).toOption

def commitEdit (now : Instant) (flight : EditFlight) (s : Content) : Content :=
  let settle (result : Except CurriculumError Curriculum) : Content :=
    { s with curriculum := s.curriculum.settle result }
  match flight with
  | .updateSection row course actor edit => settle (updateSection row course actor edit now s.curriculum.rows)
  | .updateLesson row course actor edit => settle (updateLesson row course actor edit now s.curriculum.rows)
  | .reorderSections course orderedIds => settle (reorderSections course orderedIds s.curriculum.rows)
  | .reorderLessons parent orderedIds => settle (reorderLessons parent orderedIds s.curriculum.rows)
  | .editSegment segment transcript actor edit =>
    { s with
      transcript := s.transcript.settle (Transcripts.editSegment segment transcript actor edit now s.transcript.rows) }

def editing : Protocol Content EditFlight EditRequest Instant where
  load := loadEdit
  act now flight s := (commitEdit now flight s, none)

/-! ### Columns, and the ones a request names -/

inductive Value
  | reference (pk : Uuid)
  | text (s : String)
  | number (n : Int)
  | flag (b : Bool)
  | kind (lessonType : LessonType)
  deriving DecidableEq, Repr

inductive SectionColumn
  | course
  | title
  | position
  deriving DecidableEq, Repr

def sectionColumn : SectionColumn → Section → Value
  | .course, s => .reference s.courseId
  | .title, s => .text s.title
  | .position, s => .number s.position

inductive LessonColumn
  | course
  | parent
  | slug
  | title
  | body
  | lessonType
  | position
  | isPreview
  deriving DecidableEq, Repr

def lessonColumn : LessonColumn → Catalog.Lesson → Value
  | .course, l => .reference l.courseId
  | .parent, l => .reference l.sectionId
  | .slug, l => .text l.slug
  | .title, l => .text l.title
  | .body, l => .text l.body
  | .lessonType, l => .kind l.lessonType
  | .position, l => .number l.position
  | .isPreview, l => .flag l.isPreview

inductive SegmentColumn
  | position
  | startMs
  | endMs
  | text
  | isEdited
  deriving DecidableEq, Repr

def segmentColumn : SegmentColumn → Transcripts.TranscriptSegment → Value
  | .position, segment => .number segment.position
  | .startMs, segment => .number segment.startMs
  | .endMs, segment => .number segment.endMs
  | .text, segment => .text segment.text
  | .isEdited, segment => .flag segment.isEdited

/-- The fields an edit names. -/
def namesSection (edit : SectionEdit) : SectionColumn → Bool
  | .course => false
  | .title => edit.title.isSome
  | .position => edit.position.isSome

def namesLesson (edit : LessonEdit) : LessonColumn → Bool
  | .course => false
  | .parent => edit.parent.isSome
  | .slug => edit.slug.isSome
  | .title => edit.title.isSome
  | .body => edit.body.isSome
  | .lessonType => edit.lessonType.isSome
  | .position => edit.position.isSome
  | .isPreview => false

/-- Every correction asks for the cue to be marked as edited. -/
def namesSegment (edit : Transcripts.SegmentEdit) : SegmentColumn → Bool
  | .position => false
  | .startMs => edit.startMs.isSome
  | .endMs => edit.endMs.isSome
  | .text => edit.text.isSome
  | .isEdited => true

namespace EditFlight

/-- What a request asks to change of which rows. A reorder asks for the positions of the rows it lists. -/
def asksSection : EditFlight → Uuid → SectionColumn → Prop
  | .updateSection s _ _ edit, pk, column => pk = s.pk ∧ namesSection edit column
  | .reorderSections _ orderedIds, pk, column => pk ∈ orderedIds ∧ column = .position
  | _, _, _ => False

def asksLesson : EditFlight → Uuid → LessonColumn → Prop
  | .updateLesson l _ _ edit, pk, column => pk = l.pk ∧ namesLesson edit column
  | .reorderLessons _ orderedIds, pk, column => pk ∈ orderedIds ∧ column = .position
  | _, _, _ => False

def asksSegment : EditFlight → Uuid → SegmentColumn → Prop
  | .editSegment segment _ _ edit, pk, column => pk = segment.pk ∧ namesSegment edit column
  | _, _, _ => False

end EditFlight

/-- What differs after the request is what it asked to change. -/
structure ChangesOnlyNamed (flight : EditFlight) (before after : Content) : Prop where
  sections : Table.Keeps (·.pk) sectionColumn (fun pk column => ¬ flight.asksSection pk column)
    before.curriculum.rows.sections after.curriculum.rows.sections
  lessons : Table.Keeps (·.pk) lessonColumn (fun pk column => ¬ flight.asksLesson pk column)
    before.curriculum.rows.lessons after.curriculum.rows.lessons
  segments : Table.Keeps (·.pk) segmentColumn (fun pk column => ¬ flight.asksSegment pk column)
    before.transcript.rows.segments after.transcript.rows.segments

/-- An edit that the service and the tables accept finds, in the columns it saves without naming them, what it loaded. A
cue's position is not among those it saves. -/
def SavesWhatIsStored (_ : Instant) (flight : EditFlight) (s : Content) : Prop :=
  match flight with
  | .updateSection row course actor edit =>
    course.instructor = actor.pk → row.courseId = course.pk → SectionFits s.curriculum.rows (edit.apply row) →
      ∀ stored ∈ s.curriculum.rows.sections, stored.pk = row.pk →
        ∀ column, ¬ namesSection edit column → sectionColumn column row = sectionColumn column stored
  | .updateLesson row course actor edit =>
    course.instructor = actor.pk → row.courseId = course.pk → (∀ parent ∈ edit.parent, parent.courseId = course.pk) →
      LessonFits s.curriculum.rows (edit.apply row) →
        ∀ stored ∈ s.curriculum.rows.lessons, stored.pk = row.pk →
          ∀ column, ¬ namesLesson edit column → lessonColumn column row = lessonColumn column stored
  | .editSegment row transcript actor edit =>
    Transcripts.EditAccepted row transcript actor edit → Transcripts.SpanFits (edit.merge row) →
      ∀ stored ∈ s.transcript.rows.segments, stored.pk = row.pk →
        ∀ column, column ≠ .position → ¬ namesSegment edit column →
          segmentColumn column row = segmentColumn column stored
  | _ => True

/-! ### What a save does to the columns -/

theorem sectionColumn_apply {edit : SectionEdit} {column : SectionColumn} (h : ¬ namesSection edit column)
    (row : Section) : sectionColumn column (edit.apply row) = sectionColumn column row := by
  cases column <;> simp_all [namesSection, sectionColumn, SectionEdit.apply]

theorem lessonColumn_apply {edit : LessonEdit} {column : LessonColumn} (h : ¬ namesLesson edit column)
    (row : Catalog.Lesson) : lessonColumn column (edit.apply row) = lessonColumn column row := by
  cases column <;> simp_all [namesLesson, lessonColumn, LessonEdit.apply]

theorem segmentColumn_merge {edit : Transcripts.SegmentEdit} {column : SegmentColumn} (h : ¬ namesSegment edit column)
    (row : Transcripts.TranscriptSegment) : segmentColumn column (edit.merge row) = segmentColumn column row := by
  cases column <;> simp_all [namesSegment, segmentColumn, Transcripts.SegmentEdit.merge]

/-- A section edit's save changes only what is named when the rest of the copy is what is stored. -/
theorem keeps_saveSection {rows : Curriculum} (hrows : rows.Valid) {row : Section} {course : Course} {actor : User}
    {edit : SectionEdit} (now : Instant) :
    Table.Keeps (·.pk) sectionColumn
        (fun pk column => ¬ (EditFlight.updateSection row course actor edit).asksSection pk column) rows.sections
        (rows.saveSection (edit.apply row) now).sections ↔
      ∀ stored ∈ rows.sections, stored.pk = row.pk → ∀ column, ¬ namesSection edit column →
        sectionColumn column row = sectionColumn column stored := by
  have hsaved : ∀ column, sectionColumn column { edit.apply row with updatedAt := now } =
      sectionColumn column (edit.apply row) := fun column => by cases column <;> rfl
  rw [Curriculum.saveSection, Table.keeps_save_iff hrows.sectionKeys]
  refine forall₂_congr fun stored _ => forall_congr' fun hpk => forall_congr' fun column => ?_
  have hkey : stored.pk = row.pk := hpk
  simp only [EditFlight.asksSection, hkey, true_and, hsaved]
  exact forall_congr' fun hunnamed => by rw [sectionColumn_apply hunnamed]

theorem keeps_saveLesson {rows : Curriculum} (hrows : rows.Valid) {row : Catalog.Lesson} {course : Course} {actor : User}
    {edit : LessonEdit} (now : Instant) :
    Table.Keeps (·.pk) lessonColumn
        (fun pk column => ¬ (EditFlight.updateLesson row course actor edit).asksLesson pk column) rows.lessons
        (rows.saveLesson (edit.apply row) now).lessons ↔
      ∀ stored ∈ rows.lessons, stored.pk = row.pk → ∀ column, ¬ namesLesson edit column →
        lessonColumn column row = lessonColumn column stored := by
  have hsaved : ∀ column, lessonColumn column { edit.apply row with updatedAt := now } =
      lessonColumn column (edit.apply row) := fun column => by cases column <;> rfl
  rw [Curriculum.saveLesson, Table.keeps_save_iff hrows.lessonKeys]
  refine forall₂_congr fun stored _ => forall_congr' fun hpk => forall_congr' fun column => ?_
  have hkey : stored.pk = row.pk := hpk
  simp only [EditFlight.asksLesson, hkey, true_and, hsaved]
  exact forall_congr' fun hunnamed => by rw [lessonColumn_apply hunnamed]

theorem keeps_saveSegment {rows : Transcripts.Rows} (hrows : rows.Valid) {row : Transcripts.TranscriptSegment}
    {transcript : Transcripts.Transcript} {actor : User} {edit : Transcripts.SegmentEdit} (now : Instant) :
    Table.Keeps (·.pk) segmentColumn
        (fun pk column => ¬ (EditFlight.editSegment row transcript actor edit).asksSegment pk column) rows.segments
        (rows.saveSegment { edit.merge row with isEdited := true } now).segments ↔
      ∀ stored ∈ rows.segments, stored.pk = row.pk → ∀ column, column ≠ .position → ¬ namesSegment edit column →
        segmentColumn column row = segmentColumn column stored := by
  rw [Transcripts.Rows.saveSegment, Table.keeps_map_iff hrows.primaryKeys fun stored => by split <;> rfl]
  refine forall₂_congr fun stored _ => ?_
  by_cases hpk : stored.pk = row.pk
  · simp only [EditFlight.asksSegment, hpk, true_and, forall_const]
    refine forall_congr' fun column => ?_
    have hkey : (edit.merge row).pk = row.pk := rfl
    have hmerged : ¬ namesSegment edit column → segmentColumn column (edit.merge row) = segmentColumn column row :=
      fun hunnamed => segmentColumn_merge hunnamed row
    cases column with
    | position => simp [segmentColumn, hkey]
    | isEdited => simp [namesSegment]
    | _ => simp_all [segmentColumn, namesSegment]
  · simp only [EditFlight.asksSegment, hpk, false_and, not_false_eq_true, forall_const, IsEmpty.forall_iff, iff_true]
    intro column
    exact congrArg _ (if_neg hpk)

/-- A reorder writes the positions of the rows it names and nothing else. -/
theorem keeps_applyOrder {ρ χ : Type} {pk : ρ → Uuid} {column : χ → ρ → Value} {setPosition : Int → ρ → ρ}
    {inScope : ρ → Prop} [DecidablePred inScope] {orderedIds : List Uuid} {table table' : List ρ} {position : χ}
    (hunique : Table.Unique pk table) (hkey : ∀ n row, pk (setPosition n row) = pk row)
    (hset : ∀ n row other, other ≠ position → column other (setPosition n row) = column other row)
    (h : applyOrder pk setPosition inScope orderedIds table = .ok table') :
    Table.Keeps pk column (fun key other => ¬ (key ∈ orderedIds ∧ other = position)) table table' := by
  obtain ⟨hnamed, rfl⟩ := applyOrder_ok h
  have hwrite : ∀ row, pk (if inScope row then setPosition (orderedIds.idxOf (pk row) + 1) row else row) = pk row := by
    intro row
    split
    · exact hkey _ row
    · rfl
  refine (Table.keeps_map_iff hunique hwrite).mpr fun row hrow other hunnamed => ?_
  split
  · rename_i hscope
    exact hset _ row other fun h => hunnamed ⟨hnamed row hrow hscope, h⟩
  · rfl

/-! ### What a commit changes -/

theorem changesOnlyNamed_refl (flight : EditFlight) (s : Content) : ChangesOnlyNamed flight s s where
  sections := Table.keeps_refl s.curriculum.valid.sectionKeys
  lessons := Table.keeps_refl s.curriculum.valid.lessonKeys
  segments := Table.keeps_refl s.transcript.valid.primaryKeys

section OneTable

variable {flight : EditFlight} {s s' : Content}

theorem changesOnlyNamed_iff_sections (hlessons : s'.curriculum.rows.lessons = s.curriculum.rows.lessons)
    (htranscript : s'.transcript = s.transcript) :
    ChangesOnlyNamed flight s s' ↔
      Table.Keeps (·.pk) sectionColumn (fun pk column => ¬ flight.asksSection pk column) s.curriculum.rows.sections
        s'.curriculum.rows.sections := by
  refine ⟨fun h => h.sections, fun h => ⟨h, ?_, ?_⟩⟩
  · rw [hlessons]
    exact Table.keeps_refl s.curriculum.valid.lessonKeys
  · rw [htranscript]
    exact Table.keeps_refl s.transcript.valid.primaryKeys

theorem changesOnlyNamed_iff_lessons (hsections : s'.curriculum.rows.sections = s.curriculum.rows.sections)
    (htranscript : s'.transcript = s.transcript) :
    ChangesOnlyNamed flight s s' ↔
      Table.Keeps (·.pk) lessonColumn (fun pk column => ¬ flight.asksLesson pk column) s.curriculum.rows.lessons
        s'.curriculum.rows.lessons := by
  refine ⟨fun h => h.lessons, fun h => ⟨?_, h, ?_⟩⟩
  · rw [hsections]
    exact Table.keeps_refl s.curriculum.valid.sectionKeys
  · rw [htranscript]
    exact Table.keeps_refl s.transcript.valid.primaryKeys

theorem changesOnlyNamed_iff_segments (hcurriculum : s'.curriculum = s.curriculum) :
    ChangesOnlyNamed flight s s' ↔
      Table.Keeps (·.pk) segmentColumn (fun pk column => ¬ flight.asksSegment pk column) s.transcript.rows.segments
        s'.transcript.rows.segments := by
  refine ⟨fun h => h.segments, fun h => ⟨?_, ?_, h⟩⟩
  · rw [hcurriculum]
    exact Table.keeps_refl s.curriculum.valid.sectionKeys
  · rw [hcurriculum]
    exact Table.keeps_refl s.curriculum.valid.lessonKeys

end OneTable

theorem updateSection_commits {rows : Curriculum} (hrows : rows.Valid) {row : Section} {course : Course} {actor : User}
    {edit : SectionEdit} {now : Instant} (hexists : ∃ stored ∈ rows.sections, stored.pk = row.pk) :
    Runs.Database.Commits Curriculum.Valid (updateSection row course actor edit now rows) ↔
      course.instructor = actor.pk ∧ row.courseId = course.pk ∧ SectionFits rows (edit.apply row) := by
  have hvalid : (rows.saveSection (edit.apply row) now).Valid ↔ SectionFits rows (edit.apply row) :=
    saveSection_valid now hrows hexists
  rw [Runs.Database.commits_iff]
  constructor
  · rintro ⟨rows', hok, hrows'⟩
    obtain ⟨howner, hcourse, rfl⟩ := updateSection_ok.mp hok
    exact ⟨howner, hcourse, hvalid.mp hrows'⟩
  · rintro ⟨howner, hcourse, hfits⟩
    exact ⟨_, updateSection_ok.mpr ⟨howner, hcourse, rfl⟩, hvalid.mpr hfits⟩

theorem updateLesson_commits {rows : Curriculum} (hrows : rows.Valid) {row : Catalog.Lesson} {course : Course}
    {actor : User} {edit : LessonEdit} {now : Instant} (hexists : ∃ stored ∈ rows.lessons, stored.pk = row.pk) :
    Runs.Database.Commits Curriculum.Valid (updateLesson row course actor edit now rows) ↔
      course.instructor = actor.pk ∧ row.courseId = course.pk ∧
        (∀ parent ∈ edit.parent, parent.courseId = course.pk) ∧ LessonFits rows (edit.apply row) := by
  have hvalid : (rows.saveLesson (edit.apply row) now).Valid ↔ LessonFits rows (edit.apply row) :=
    saveLesson_valid now hrows hexists
  rw [Runs.Database.commits_iff]
  constructor
  · rintro ⟨rows', hok, hrows'⟩
    obtain ⟨howner, hcourse, hparent, rfl⟩ := updateLesson_ok.mp hok
    exact ⟨howner, hcourse, hparent, hvalid.mp hrows'⟩
  · rintro ⟨howner, hcourse, hparent, hfits⟩
    exact ⟨_, updateLesson_ok.mpr ⟨howner, hcourse, hparent, rfl⟩, hvalid.mpr hfits⟩

theorem updateSection_changesOnlyNamed_iff {row : Section} {course : Course} {actor : User} {edit : SectionEdit}
    {now : Instant} {s : Content} :
    ChangesOnlyNamed (.updateSection row course actor edit) s (commitEdit now (.updateSection row course actor edit) s) ↔
      SavesWhatIsStored now (.updateSection row course actor edit) s := by
  have hrows := s.curriculum.valid
  by_cases hcommits : Runs.Database.Commits Curriculum.Valid
      (updateSection row course actor edit now s.curriculum.rows)
  · obtain ⟨howner, hcourse, hsaved⟩ := updateSection_ok.mp (Runs.Database.settle_of_commits s.curriculum hcommits)
    have hsections : (commitEdit now (.updateSection row course actor edit) s).curriculum.rows.sections =
        (s.curriculum.rows.saveSection (edit.apply row) now).sections := congrArg Curriculum.sections hsaved
    have hlessons : (commitEdit now (.updateSection row course actor edit) s).curriculum.rows.lessons =
        s.curriculum.rows.lessons := by
      simp only [commitEdit, hsaved]
      rfl
    have htranscript : (commitEdit now (.updateSection row course actor edit) s).transcript = s.transcript := rfl
    rw [changesOnlyNamed_iff_sections hlessons htranscript, hsections, keeps_saveSection hrows]
    constructor
    · exact fun hstored _ _ _ => hstored
    · intro hstored stored hmem hpk
      obtain ⟨-, -, hfits⟩ := (updateSection_commits hrows ⟨stored, hmem, hpk⟩).mp hcommits
      exact hstored howner hcourse hfits stored hmem hpk
  · have hsame : commitEdit now (.updateSection row course actor edit) s = s := by
      simp only [commitEdit, Runs.Database.settle_of_not_commits hcommits]
    rw [hsame]
    apply iff_of_true (changesOnlyNamed_refl _ s)
    intro howner hcourse hfits stored hstored hpk
    exact absurd ((updateSection_commits hrows ⟨stored, hstored, hpk⟩).mpr ⟨howner, hcourse, hfits⟩) hcommits

theorem updateLesson_changesOnlyNamed_iff {row : Catalog.Lesson} {course : Course} {actor : User} {edit : LessonEdit}
    {now : Instant} {s : Content} :
    ChangesOnlyNamed (.updateLesson row course actor edit) s (commitEdit now (.updateLesson row course actor edit) s) ↔
      SavesWhatIsStored now (.updateLesson row course actor edit) s := by
  have hrows := s.curriculum.valid
  by_cases hcommits : Runs.Database.Commits Curriculum.Valid (updateLesson row course actor edit now s.curriculum.rows)
  · obtain ⟨howner, hcourse, hparent, hsaved⟩ :=
      updateLesson_ok.mp (Runs.Database.settle_of_commits s.curriculum hcommits)
    have hlessons : (commitEdit now (.updateLesson row course actor edit) s).curriculum.rows.lessons =
        (s.curriculum.rows.saveLesson (edit.apply row) now).lessons := congrArg Curriculum.lessons hsaved
    have hsections : (commitEdit now (.updateLesson row course actor edit) s).curriculum.rows.sections =
        s.curriculum.rows.sections := by
      simp only [commitEdit, hsaved]
      rfl
    have htranscript : (commitEdit now (.updateLesson row course actor edit) s).transcript = s.transcript := rfl
    rw [changesOnlyNamed_iff_lessons hsections htranscript, hlessons, keeps_saveLesson hrows]
    constructor
    · exact fun hstored _ _ _ _ => hstored
    · intro hstored stored hmem hpk
      obtain ⟨-, -, -, hfits⟩ := (updateLesson_commits hrows ⟨stored, hmem, hpk⟩).mp hcommits
      exact hstored howner hcourse hparent hfits stored hmem hpk
  · have hsame : commitEdit now (.updateLesson row course actor edit) s = s := by
      simp only [commitEdit, Runs.Database.settle_of_not_commits hcommits]
    rw [hsame]
    apply iff_of_true (changesOnlyNamed_refl _ s)
    intro howner hcourse hparent hfits stored hstored hpk
    exact absurd ((updateLesson_commits hrows ⟨stored, hstored, hpk⟩).mpr ⟨howner, hcourse, hparent, hfits⟩) hcommits

theorem editSegment_changesOnlyNamed_iff {row : Transcripts.TranscriptSegment} {transcript : Transcripts.Transcript}
    {actor : User} {edit : Transcripts.SegmentEdit} {now : Instant} {s : Content} :
    ChangesOnlyNamed (.editSegment row transcript actor edit) s
        (commitEdit now (.editSegment row transcript actor edit) s) ↔
      SavesWhatIsStored now (.editSegment row transcript actor edit) s := by
  have hrows := s.transcript.valid
  have hcurriculum : (commitEdit now (.editSegment row transcript actor edit) s).curriculum = s.curriculum := rfl
  rw [changesOnlyNamed_iff_segments hcurriculum]
  by_cases hcommits : Runs.Database.Commits Transcripts.Rows.Valid
      (Transcripts.editSegment row transcript actor edit now s.transcript.rows)
  · obtain ⟨-, -, hsaved⟩ :=
      Transcripts.editSegment_ok.mp (Runs.Database.settle_of_commits s.transcript hcommits)
    obtain ⟨haccepted, -, hfits⟩ := (Transcripts.editSegment_commits hrows).mp hcommits
    have hsegments : (commitEdit now (.editSegment row transcript actor edit) s).transcript.rows.segments =
        (s.transcript.rows.saveSegment { edit.merge row with isEdited := true } now).segments := by
      simp only [commitEdit, hsaved, Transcripts.returnToReview_segments, Transcripts.touch_segments]
    rw [hsegments, keeps_saveSegment hrows]
    constructor
    · exact fun hstored _ _ => hstored
    · exact fun hstored => hstored haccepted hfits
  · have hsame : commitEdit now (.editSegment row transcript actor edit) s = s := by
      simp only [commitEdit, Runs.Database.settle_of_not_commits hcommits]
    rw [hsame]
    apply iff_of_true (Table.keeps_refl hrows.primaryKeys)
    intro haccepted hfits stored hstored hpk
    exact absurd ((Transcripts.editSegment_commits hrows).mpr ⟨haccepted, ⟨stored, hstored, hpk⟩, hfits⟩) hcommits

/-- A reorder reads the rows under their locks. -/
theorem reorderSections_changesOnlyNamed (course : Course) (orderedIds : List Uuid) (now : Instant) (s : Content) :
    ChangesOnlyNamed (.reorderSections course orderedIds) s (commitEdit now (.reorderSections course orderedIds) s) := by
  rcases Runs.Database.settle_cases s.curriculum (reorderSections course orderedIds s.curriculum.rows) with
    hsame | ⟨rows, hok, -, hsaved⟩
  · simp only [commitEdit, hsame]
    exact changesOnlyNamed_refl _ s
  · obtain ⟨sections, happly, rfl⟩ := reorderSections_ok hok
    have hkey : ∀ n row, (Section.setPosition n row).pk = row.pk := fun _ _ => rfl
    have hset : ∀ n row other, other ≠ SectionColumn.position →
        sectionColumn other (Section.setPosition n row) = sectionColumn other row := by
      intro n row other hother
      cases other
      case position => exact absurd rfl hother
      all_goals rfl
    have hlessons : (commitEdit now (.reorderSections course orderedIds) s).curriculum.rows.lessons =
        s.curriculum.rows.lessons := by simp only [commitEdit, hsaved]
    have htranscript : (commitEdit now (.reorderSections course orderedIds) s).transcript = s.transcript := rfl
    refine (changesOnlyNamed_iff_sections hlessons htranscript).mpr ?_
    simp only [commitEdit, hsaved]
    exact keeps_applyOrder s.curriculum.valid.sectionKeys hkey hset happly

theorem reorderLessons_changesOnlyNamed (parent : Section) (orderedIds : List Uuid) (now : Instant) (s : Content) :
    ChangesOnlyNamed (.reorderLessons parent orderedIds) s (commitEdit now (.reorderLessons parent orderedIds) s) := by
  rcases Runs.Database.settle_cases s.curriculum (reorderLessons parent orderedIds s.curriculum.rows) with
    hsame | ⟨rows, hok, -, hsaved⟩
  · simp only [commitEdit, hsame]
    exact changesOnlyNamed_refl _ s
  · obtain ⟨lessons, happly, rfl⟩ := reorderLessons_ok hok
    have hkey : ∀ n row, (Lesson.setPosition n row).pk = row.pk := fun _ _ => rfl
    have hset : ∀ n row other, other ≠ LessonColumn.position →
        lessonColumn other (Lesson.setPosition n row) = lessonColumn other row := by
      intro n row other hother
      cases other
      case position => exact absurd rfl hother
      all_goals rfl
    have hsections : (commitEdit now (.reorderLessons parent orderedIds) s).curriculum.rows.sections =
        s.curriculum.rows.sections := by simp only [commitEdit, hsaved]
    have htranscript : (commitEdit now (.reorderLessons parent orderedIds) s).transcript = s.transcript := rfl
    refine (changesOnlyNamed_iff_lessons hsections htranscript).mpr ?_
    simp only [commitEdit, hsaved]
    exact keeps_applyOrder s.curriculum.valid.lessonKeys hkey hset happly

/-- A commit changes only what is named exactly when it saves what is stored beside it. -/
theorem commitEdit_changesOnlyNamed_iff (now : Instant) (flight : EditFlight) (s : Content) :
    ChangesOnlyNamed flight s (commitEdit now flight s) ↔ SavesWhatIsStored now flight s := by
  cases flight with
  | updateSection row course actor edit => exact updateSection_changesOnlyNamed_iff
  | updateLesson row course actor edit => exact updateLesson_changesOnlyNamed_iff
  | reorderSections course orderedIds =>
    exact iff_of_true (reorderSections_changesOnlyNamed course orderedIds now s) trivial
  | reorderLessons parent orderedIds =>
    exact iff_of_true (reorderLessons_changesOnlyNamed parent orderedIds now s) trivial
  | editSegment row transcript actor edit => exact editSegment_changesOnlyNamed_iff

/-! ### Every interleaving -/

/-- No commit undoes what its request does not name in exactly the interleavings in which every edit that goes through
finds stored what it loaded, in the columns it saves unasked. -/
theorem along_changesOnlyNamed_iff (s : Content) (run : List (Move EditRequest Instant)) :
    Along editing.step
        (Protocol.Guarded fun now flight s => ChangesOnlyNamed flight s (commitEdit now flight s)) (World.idle s) run ↔
      Along editing.step (Protocol.Guarded SavesWhatIsStored) (World.idle s) run := by
  apply along_congr (I := fun _ => True) (fun _ _ h => h)
  · intro w move _
    cases move with
    | load request => exact Iff.rfl
    | act index now => exact forall₂_congr fun flight _ => commitEdit_changesOnlyNamed_iff now flight w.store
  · trivial

def spanish : Course where
  pk := 3
  slug := "spanish-a1"
  title := "Spanish A1"
  description := ""
  language := 1
  level := .a1
  skillAreas := []
  instructor := 7
  status := .draft
  publishedAt := none
  searchVector := none
  updatedAt := 0

/-- One section, kept in the fifth place, and a transcript under review. -/
def content : Content where
  curriculum :=
    { rows := ⟨[spanish], [⟨20, 3, "Greetings", 5, 0⟩], []⟩
      valid := by decide }
  transcript :=
    { rows := ⟨.new 1 2 7 "es" 0, [], 0⟩
      valid := Transcripts.new_valid 1 2 7 "es" 0 }

def owner : User := ⟨7, "teacher@example.test", .instructor, false⟩

/-- The title form is opened, the sections are reordered, and the title is saved with the position from before. -/
theorem title_edit_undoes_reorder :
    ¬ Along editing.step
      (Protocol.Guarded fun now flight s => ChangesOnlyNamed flight s (commitEdit now flight s)) (World.idle content)
      [.load (.updateSection 3 20 owner ⟨some "Saludos", none⟩), .load (.reorderSections 3 owner [20]), .act 1 100,
        .act 0 101] := by
  intro ⟨_, _, _, htitle, _⟩
  have hkeeps := (htitle (.updateSection ⟨20, 3, "Greetings", 5, 0⟩ spanish owner ⟨some "Saludos", none⟩) rfl).sections
  have hposition := hkeeps ⟨20, 3, "Greetings", 1, 0⟩ (by decide) ⟨20, 3, "Saludos", 5, 101⟩ (by decide) rfl .position
    (by simp [EditFlight.asksSection, namesSection])
  exact absurd hposition (by decide)

end EPlatform.Lessons
