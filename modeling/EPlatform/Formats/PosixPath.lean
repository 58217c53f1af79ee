import Mathlib.Tactic.Common

/-!
# POSIX paths as text

`join`, with its normalization, and `dirname`. Going up from a relative path ends at the empty one.
-/

namespace Formats.PosixPath

/-- The segments of a path with `.` and empty ones left out and `..` resolved, last one first. -/
def resolveDots (aboveRoot : Bool) : List (List Char) → List (List Char) → List (List Char)
  | resolved, [] => resolved
  | resolved, segment :: rest =>
    if segment = [] ∨ segment = ['.'] then resolveDots aboveRoot resolved rest
    else if segment = ['.', '.'] then
      match resolved with
      | last :: before =>
        if last ≠ ['.', '.'] then resolveDots aboveRoot before rest
        else if aboveRoot then resolveDots aboveRoot (segment :: resolved) rest
        else resolveDots aboveRoot resolved rest
      | [] => resolveDots aboveRoot (if aboveRoot then [segment] else []) rest
    else resolveDots aboveRoot (segment :: resolved) rest

def normalize (path : List Char) : List Char :=
  if path = [] then ['.']
  else
    let absolute := path.head? = some '/'
    let trailing := path.getLast? = some '/'
    let resolved := ['/'].intercalate (resolveDots (!absolute) [] (path.splitOn '/')).reverse
    if resolved = [] then if absolute then ['/'] else if trailing then ['.', '/'] else ['.']
    else
      let body := if trailing then resolved ++ ['/'] else resolved
      if absolute then '/' :: body else body

/-- `posix.join(...)`. -/
def join (parts : List String) : String :=
  String.ofList (normalize (['/'].intercalate ((parts.map String.toList).filter (· ≠ []))))

/-- What stands before the last segment, its slash left out. -/
def dirnameChars : List Char → List Char
  | [] => ['.']
  | first :: rest =>
    match (rest.reverse.dropWhile (· = '/')).dropWhile (· ≠ '/') with
    | [] => if first = '/' then ['/'] else ['.']
    | _ :: before => if first = '/' ∧ before = [] then ['/', '/'] else first :: before.reverse

/-- `posix.dirname(path)`. -/
def dirname (path : String) : String := String.ofList (dirnameChars path.toList)

/-- What stands before the last segment, with its slash, is shorter. -/
theorem length_dropLast {rest : List Char} {slash : Char} {before : List Char}
    (h : (rest.reverse.dropWhile (· = '/')).dropWhile (· ≠ '/') = slash :: before) :
    before.length + 1 < rest.length := by
  cases hlast : rest.reverse.dropWhile (· = '/') with
  | nil =>
    rw [hlast] at h
    cases h
  | cons last more =>
    have hne : last ≠ '/' := by
      have hnot := List.head?_dropWhile_not (fun c : Char => decide (c = '/')) rest.reverse
      rw [hlast] at hnot
      simpa using hnot
    rw [hlast, List.dropWhile_cons, if_pos (decide_eq_true hne)] at h
    calc before.length + 1
        = (more.dropWhile (· ≠ '/')).length := by rw [h, List.length_cons]
      _ ≤ more.length := (List.dropWhile_sublist _).length_le
      _ < (rest.reverse.dropWhile (· = '/')).length := by rw [hlast]; exact Nat.lt_succ_self _
      _ ≤ rest.reverse.length := (List.dropWhile_sublist _).length_le
      _ = rest.length := List.length_reverse

theorem dirnameChars_relative {first : Char} (rest : List Char) (h : first ≠ '/') :
    dirnameChars (first :: rest) = ['.'] ∨
      ∃ before, dirnameChars (first :: rest) = first :: before ∧ before.length < rest.length := by
  rw [dirnameChars]
  cases hbefore : (rest.reverse.dropWhile (· = '/')).dropWhile (· ≠ '/') with
  | nil => exact .inl (if_neg h)
  | cons slash before =>
    refine .inr ⟨before.reverse, if_neg fun hroot => h hroot.1, ?_⟩
    rw [List.length_reverse]
    exact Nat.lt_of_succ_lt (length_dropLast hbefore)

/-- Going up from an absolute path stays below the root, where it stays. -/
theorem dirnameChars_absolute (rest : List Char) : ∃ before, dirnameChars ('/' :: rest) = '/' :: before ∧
    (before.length < rest.length ∨ rest = [] ∧ before = []) := by
  rw [dirnameChars]
  cases hbefore : (rest.reverse.dropWhile (· = '/')).dropWhile (· ≠ '/') with
  | nil =>
    refine ⟨[], if_pos rfl, ?_⟩
    cases rest with
    | nil => exact .inr ⟨rfl, rfl⟩
    | cons c rest => exact .inl (Nat.succ_pos _)
  | cons slash before =>
    have hshort := length_dropLast hbefore
    by_cases hnil : before = []
    · refine ⟨['/'], if_pos ⟨rfl, hnil⟩, .inl ?_⟩
      rw [hnil] at hshort
      exact hshort
    · refine ⟨before.reverse, if_neg fun hroot => hnil hroot.2, .inl ?_⟩
      rw [List.length_reverse]
      exact Nat.lt_of_succ_lt hshort

end Formats.PosixPath
