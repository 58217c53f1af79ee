import EPlatform.Catalog.Course
import EPlatform.Core.Text
import EPlatform.Runs.Query
import Mathlib.Algebra.Order.Ring.Unbundled.Rat
import Mathlib.Data.Prod.Lex

/-!
# Searching the catalogue

`search_published_courses` and the answer `CourseSearchView` makes of it. The list is cut at a limit, and whether it was cut
is read off its length.
-/

namespace EPlatform.Catalog

open Runs Runs.Query

/-- What the search reads of a course. The vector is null until it is first refreshed. -/
structure SearchRow (Vector : Type) where
  pk : Uuid
  title : String
  searchVector : Option Vector
  status : CourseStatus
  publishedAt : Option Instant

/-- The table of courses, with its key and `course_published_has_published_at`. -/
structure SearchTable (Vector : Type) where
  rows : List (SearchRow Vector)
  keys : Table.Unique (·.pk) rows
  dated : ∀ row ∈ rows, row.status = .published → row.publishedAt.isSome

/-- `str.isprintable`, and what the database makes of a text: whether a vector matches it as a `websearch` query, the rank of
the match, and how similar it is to a title. All of them are any. -/
structure TextSearch (Vector : Type) where
  isprintable : Char → Bool
  isMatch : Vector → String → Bool
  searchRank : Vector → String → ℚ
  trigramSimilarity : String → String → ℚ

def SEARCH_LIMIT : Nat := 50

def MAX_QUERY_LENGTH : Nat := 200

/-- `0.3`, as the nearest double. -/
def TRIGRAM_THRESHOLD : ℚ := 5404319552844595 / 18014398509481984

structure SearchResults (Vector : Type) where
  results : List (SearchRow Vector)
  count : Nat
  limit : Nat
  truncated : Bool

namespace TextSearch

variable {Vector : Type} (search : TextSearch Vector)

/-- `cleaned`. -/
def clean (query : String) : String :=
  let kept := strip (.ofList (query.toList.filter fun ch => search.isprintable ch || isWhitespace ch))
  .ofList (kept.toList.take MAX_QUERY_LENGTH)

/-- `published_courses().filter(search_vector=search)`. -/
def Matches (cleaned : String) (row : SearchRow Vector) : Prop :=
  row.status = .published ∧ ∃ vector ∈ row.searchVector, search.isMatch vector cleaned

/-- `("-rank", "-published_at")`. -/
def rankBy (cleaned : String) (row : SearchRow Vector) : ℚ ×ₗ Instant :=
  toLex ((row.searchVector.map (search.searchRank · cleaned)).getD 0, row.publishedAt.getD 0)

/-- `published_courses().filter(similarity__gte=TRIGRAM_THRESHOLD)`. -/
def Resembles (cleaned : String) (row : SearchRow Vector) : Prop :=
  row.status = .published ∧ TRIGRAM_THRESHOLD ≤ search.trigramSimilarity row.title cleaned

/-- `("-similarity", "-published_at")`. -/
def similarityBy (cleaned : String) (row : SearchRow Vector) : ℚ ×ₗ Instant :=
  toLex (search.trigramSimilarity row.title cleaned, row.publishedAt.getD 0)

instance (cleaned : String) : DecidablePred (search.Matches cleaned) := fun _ => inferInstanceAs (Decidable (_ ∧ _))

instance (cleaned : String) : DecidablePred (search.Resembles cleaned) := fun _ => inferInstanceAs (Decidable (_ ∧ _))

/-- Each of the two queries meets the rows in an order of its own. -/
def searchPublishedCourses {table : List (SearchRow Vector)} (query : String) (limit : Nat) (scan scan' : Scan table) :
    List (SearchRow Vector) :=
  let cleaned := search.clean query
  if cleaned = "" then []
  else
    match top (search.rankBy cleaned) (search.Matches cleaned) limit scan with
    | [] => top (search.similarityBy cleaned) (search.Resembles cleaned) limit scan'
    | found => found

/-- `CourseSearchView.get`, where `q` is the query parameter if there is one. -/
def get {table : List (SearchRow Vector)} (q : Option String) (scan scan' : Scan table) : SearchResults Vector :=
  let courses := search.searchPublishedCourses (q.getD "") SEARCH_LIMIT scan scan'
  { results := courses
    count := courses.length
    limit := SEARCH_LIMIT
    truncated := courses.length = SEARCH_LIMIT }

/-! ### What a response says -/

/-- A query matches a course by full text. A query with nothing left once cleaned matches none. -/
def FoundByText (query : String) (row : SearchRow Vector) : Prop :=
  search.clean query ≠ "" ∧ search.Matches (search.clean query) row

/-- A query resembles the title of a course. -/
def FoundByTitle (query : String) (row : SearchRow Vector) : Prop :=
  search.clean query ≠ "" ∧ search.Resembles (search.clean query) row

instance (query : String) : DecidablePred (search.FoundByText query) := fun _ => inferInstanceAs (Decidable (_ ∧ _))

instance (query : String) : DecidablePred (search.FoundByTitle query) := fun _ => inferInstanceAs (Decidable (_ ∧ _))

/-- Everything there is to list: by full text, and by title only where full text finds nothing. -/
def matching (table : List (SearchRow Vector)) (query : String) : List (SearchRow Vector) :=
  if ∃ row ∈ table, search.FoundByText query row then table.filter (search.FoundByText query)
  else table.filter (search.FoundByTitle query)

/-- Only published courses, the list that is due, and the flag exactly where something of it is missing. -/
structure SaysWhenCut (table : List (SearchRow Vector)) (query : String) (response : SearchResults Vector) : Prop where
  published : ∀ course ∈ response.results, course.status = .published
  byText : (∃ row ∈ table, search.FoundByText query row) →
    IsTop (search.rankBy (search.clean query)) table (search.FoundByText query) SEARCH_LIMIT response.results
  byTitle : (∀ row ∈ table, ¬ search.FoundByText query row) →
    IsTop (search.similarityBy (search.clean query)) table (search.FoundByTitle query) SEARCH_LIMIT response.results
  truncated : response.truncated ↔ response.results.length < (search.matching table query).length

/-! ### The list -/

variable {table : SearchTable Vector} (query : String) (scan scan' : Scan table.rows)

/-- The list in use is one of the two. -/
theorem searchPublishedCourses_eq :
    search.searchPublishedCourses query SEARCH_LIMIT scan scan' =
      if ∃ row ∈ table.rows, search.FoundByText query row then
        top (search.rankBy (search.clean query)) (search.FoundByText query) SEARCH_LIMIT scan
      else top (search.similarityBy (search.clean query)) (search.FoundByTitle query) SEARCH_LIMIT scan' := by
  rw [searchPublishedCourses]
  by_cases hblank : search.clean query = ""
  · have htext : ∀ row, ¬ search.FoundByText query row := fun row h => h.1 hblank
    have htitle : ∀ row, ¬ search.FoundByTitle query row := fun row h => h.1 hblank
    rw [if_pos hblank, if_neg (by simp [htext]), top_eq_nil _ _ _ fun row _ => htitle row]
  · have htext : ∀ row, search.FoundByText query row ↔ search.Matches (search.clean query) row :=
      fun row => and_iff_right hblank
    have htitle : ∀ row, search.FoundByTitle query row ↔ search.Resembles (search.clean query) row :=
      fun row => and_iff_right hblank
    rw [if_neg hblank, top_congr _ _ scan htext, top_congr _ _ scan' htitle]
    by_cases hfound : ∃ row ∈ table.rows, search.FoundByText query row
    · obtain ⟨row, hrow, hmatch⟩ := hfound
      have hne := top_ne_nil (search.rankBy (search.clean query)) scan (by decide : SEARCH_LIMIT ≠ 0) hrow
        ((htext row).mp hmatch)
      rw [if_pos ⟨row, hrow, hmatch⟩]
      split
      · rename_i hnil
        exact absurd hnil hne
      · rfl
    · have hnone : ∀ row ∈ table.rows, ¬ search.Matches (search.clean query) row :=
        fun row hrow hmatch => hfound ⟨row, hrow, (htext row).mpr hmatch⟩
      rw [if_neg hfound, top_eq_nil _ _ scan hnone]

theorem length_searchPublishedCourses :
    (search.searchPublishedCourses query SEARCH_LIMIT scan scan').length =
      min SEARCH_LIMIT (search.matching table.rows query).length := by
  rw [searchPublishedCourses_eq, matching]
  split
  · exact length_top _ _ _ scan
  · exact length_top _ _ _ scan'

theorem nodup_rows (table : SearchTable Vector) : table.rows.Nodup := List.Nodup.of_map _ table.keys

theorem get_results (q : Option String) :
    (search.get q scan scan').results = search.searchPublishedCourses (q.getD "") SEARCH_LIMIT scan scan' := by
  rw [get]

theorem get_truncated (q : Option String) :
    (search.get q scan scan').truncated = true ↔ (search.get q scan scan').results.length = SEARCH_LIMIT := by
  simp only [get, decide_eq_true_eq]

/-- Whatever is listed is published, and it is the list that is due. -/
theorem get_lists (q : Option String) :
    (∀ course ∈ (search.get q scan scan').results, course.status = .published) ∧
      ((∃ row ∈ table.rows, search.FoundByText (q.getD "") row) →
        IsTop (search.rankBy (search.clean (q.getD ""))) table.rows (search.FoundByText (q.getD "")) SEARCH_LIMIT
          (search.get q scan scan').results) ∧
      ((∀ row ∈ table.rows, ¬ search.FoundByText (q.getD "") row) →
        IsTop (search.similarityBy (search.clean (q.getD ""))) table.rows (search.FoundByTitle (q.getD "")) SEARCH_LIMIT
          (search.get q scan scan').results) := by
  have hresults := get_results search scan scan' q
  have hbyText := top_isTop (search.rankBy (search.clean (q.getD ""))) (search.FoundByText (q.getD "")) SEARCH_LIMIT
    (nodup_rows table) scan
  have hbyTitle := top_isTop (search.similarityBy (search.clean (q.getD ""))) (search.FoundByTitle (q.getD ""))
    SEARCH_LIMIT (nodup_rows table) scan'
  rw [hresults, searchPublishedCourses_eq]
  split
  · rename_i hfound
    refine ⟨fun course hcourse => (hbyText.kept course hcourse).2.2.1, fun _ => hbyText, fun hnone => ?_⟩
    obtain ⟨row, hrow, hmatch⟩ := hfound
    exact absurd hmatch (hnone row hrow)
  · rename_i hfound
    exact ⟨fun course hcourse => (hbyTitle.kept course hcourse).2.2.1, fun h => absurd h hfound, fun _ => hbyTitle⟩

/-- A list as long as the limit is taken for a cut one. -/
theorem length_ne_of_saysWhenCut {q : Option String}
    (h : search.SaysWhenCut table.rows (q.getD "") (search.get q scan scan')) :
    (search.matching table.rows (q.getD "")).length ≠ SEARCH_LIMIT := by
  have hlength := length_searchPublishedCourses search (q.getD "") scan scan'
  have htruncated := h.truncated
  rw [get_truncated, get_results] at htruncated
  omega

/-- A search says whether it was cut exactly where the courses there are to list are not as many as the limit. -/
theorem saysWhenCut_iff (q : Option String) :
    search.SaysWhenCut table.rows (q.getD "") (search.get q scan scan') ↔
      (search.matching table.rows (q.getD "")).length ≠ SEARCH_LIMIT := by
  refine ⟨length_ne_of_saysWhenCut search scan scan', fun hlimit => ?_⟩
  obtain ⟨hpublished, hbyText, hbyTitle⟩ := get_lists search scan scan' q
  have hlength := length_searchPublishedCourses search (q.getD "") scan scan'
  refine ⟨hpublished, hbyText, hbyTitle, ?_⟩
  rw [get_truncated, get_results]
  omega

/-! ### As many courses as the limit -/

/-- A database that finds every course. -/
def findsAll : TextSearch Unit where
  isprintable := fun _ => true
  isMatch := fun _ _ => true
  searchRank := fun _ _ => 1
  trigramSimilarity := fun _ _ => 0

def spanishBasics (pk : Uuid) : SearchRow Unit where
  pk := pk
  title := "Spanish Basics"
  searchVector := some ()
  status := .published
  publishedAt := some pk

def fiftyCourses : SearchTable Unit where
  rows := (List.range 50).map spanishBasics
  keys := by
    rw [Table.Unique, List.map_map]
    exact List.nodup_range.map fun _ _ h => h
  dated := by simp [spanishBasics]

/-- All fifty courses are listed, and the answer says that some are not. -/
theorem fifty_of_fifty : ¬ findsAll.SaysWhenCut fiftyCourses.rows "spanish"
    (findsAll.get (some "spanish") ⟨fiftyCourses.rows, List.Perm.refl _⟩ ⟨fiftyCourses.rows, List.Perm.refl _⟩) := by
  intro hsays
  have hclean : findsAll.clean "spanish" ≠ "" := by decide
  have hfound : ∀ row ∈ fiftyCourses.rows, findsAll.FoundByText "spanish" row := by
    intro row hrow
    obtain ⟨pk, -, rfl⟩ := List.mem_map.mp hrow
    exact ⟨hclean, rfl, (), rfl, rfl⟩
  have hsome : ∃ row ∈ fiftyCourses.rows, findsAll.FoundByText "spanish" row :=
    ⟨spanishBasics 0, List.mem_map.mpr ⟨0, by simp, rfl⟩, hfound _ (List.mem_map.mpr ⟨0, by simp, rfl⟩)⟩
  have hall : findsAll.matching fiftyCourses.rows "spanish" = fiftyCourses.rows := by
    rw [matching, if_pos hsome, List.filter_eq_self.mpr fun row hrow => decide_eq_true (hfound row hrow)]
  refine length_ne_of_saysWhenCut findsAll _ _ (q := some "spanish") hsays ?_
  rw [Option.getD_some, hall]
  rfl

end TextSearch

end EPlatform.Catalog
