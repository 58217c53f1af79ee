import EPlatform.Transcripts.Rendering

/-!
# Captions read back

A file that `renderVtt` wrote is read back as the segments it was written from exactly when no text has an empty line: an
empty line in a text ends its cue.
-/

namespace EPlatform.Transcripts

open Formats Runs

/-! ### Escaping -/

/-- What the three replacements together make of a character. -/
def escaped (c : Char) : List Char :=
  if c = '&' then ['&', 'a', 'm', 'p', ';']
  else if c = '<' then ['&', 'l', 't', ';']
  else if c = '>' then ['&', 'g', 't', ';']
  else [c]

/-- The ampersand is replaced first, so the later replacements meet no ampersand of the text. -/
theorem toList_escapeCueText (text : String) : (escapeCueText text).toList = text.toList.flatMap escaped := by
  simp only [escapeCueText, ESCAPES, replaceCharacter, List.foldl_cons, List.foldl_nil, String.toList_ofList,
    List.flatMap_assoc]
  congr 1
  funext c
  by_cases hamp : c = '&'
  · subst hamp
    decide
  · by_cases hlt : c = '<'
    · subst hlt
      decide
    · simp [escaped, hamp, hlt]

theorem unescape_cons {c : Char} (hc : c ≠ '&') (rest : List Char) : unescape (c :: rest) = c :: unescape rest := by
  rw [unescape]
  all_goals
    rintro _ rfl
    exact absurd rfl hc

theorem unescape_escaped (line : List Char) : unescape (line.flatMap escaped) = line := by
  induction line with
  | nil => rfl
  | cons c line ih =>
    rw [List.flatMap_cons, escaped]
    split
    · rename_i hc
      simp [unescape, ih, hc]
    · split
      · rename_i hc
        simp [unescape, ih, hc]
      · split
        · rename_i hc
          simp [unescape, ih, hc]
        · rename_i hc _ _
          rw [List.singleton_append, unescape_cons hc, ih]

theorem mem_of_mem_unescape {line : List Char} {c : Char} (h : c ∈ unescape line) :
    c ∈ line ∨ c = '&' ∨ c = '<' ∨ c = '>' := by
  induction line using unescape.induct with
  | case1 rest ih =>
    rw [unescape] at h
    rcases List.mem_cons.mp h with rfl | hrest
    · exact .inr (.inl rfl)
    · exact (ih hrest).imp_left (List.mem_append_right ['&', 'a', 'm', 'p', ';'])
  | case2 rest ih =>
    rw [unescape] at h
    rcases List.mem_cons.mp h with rfl | hrest
    · exact .inr (.inr (.inl rfl))
    · exact (ih hrest).imp_left (List.mem_append_right ['&', 'l', 't', ';'])
  | case3 rest ih =>
    rw [unescape] at h
    rcases List.mem_cons.mp h with rfl | hrest
    · exact .inr (.inr (.inr rfl))
    · exact (ih hrest).imp_left (List.mem_append_right ['&', 'g', 't', ';'])
  | case4 d rest hamp hlt hgt ih =>
    rw [unescape.eq_4 d rest hamp hlt hgt] at h
    rcases List.mem_cons.mp h with rfl | hrest
    · exact .inl List.mem_cons_self
    · exact (ih hrest).imp_left (List.mem_cons_of_mem d)
  | case5 => cases h

theorem unescape_ne_nil {line : List Char} (h : line ≠ []) : unescape line ≠ [] := by
  induction line using unescape.induct with
  | case1 rest => simp [unescape]
  | case2 rest => simp [unescape]
  | case3 rest => simp [unescape]
  | case4 d rest hamp hlt hgt =>
    rw [unescape.eq_4 d rest hamp hlt hgt]
    exact List.cons_ne_nil d _
  | case5 => exact h

theorem mem_escaped {c d : Char} (h : d ∈ escaped c) : d = c ∨ d ∈ ['&', 'a', 'm', 'p', ';', 'l', 't', 'g'] := by
  have hentities : ∀ entity ∈ [['&', 'a', 'm', 'p', ';'], ['&', 'l', 't', ';'], ['&', 'g', 't', ';']],
      ∀ d ∈ entity, d ∈ ['&', 'a', 'm', 'p', ';', 'l', 't', 'g'] := by simp
  unfold escaped at h
  split_ifs at h
  · exact .inr (hentities _ (by simp) d h)
  · exact .inr (hentities _ (by simp) d h)
  · exact .inr (hentities _ (by simp) d h)
  · exact .inl (List.mem_singleton.mp h)

/-- The lines of an escaped text are its lines, escaped. -/
theorem splitOn_escapeCueText (text : String) :
    (escapeCueText text).toList.splitOn '\n' = (text.toList.splitOn '\n').map (·.flatMap escaped) := by
  rw [toList_escapeCueText]
  apply splitOn_flatMap
  · decide
  · intro c hc hmem
    rcases mem_escaped hmem with heq | hentity
    · exact hc heq.symm
    · exact absurd hentity (by decide)

theorem gt_not_mem_escapeCueText (text : String) : '>' ∉ (escapeCueText text).toList := by
  rw [toList_escapeCueText, List.mem_flatMap]
  rintro ⟨c, -, hmem⟩
  by_cases hc : c = '>'
  · subst hc
    exact absurd hmem (by decide)
  · rcases mem_escaped hmem with heq | hentity
    · exact hc heq.symm
    · exact absurd hentity (by decide)

/-! ### Numbers and timestamps -/

theorem readNumber_eq_some {digits : List Char} (hnil : digits ≠ []) (hdigits : ∀ c ∈ digits, c.isDigit) :
    readNumber digits = some (Nat.ofDigitChars 10 digits 0) := by
  rw [readNumber, if_pos ⟨hnil, List.all_eq_true.mpr hdigits⟩]

theorem isDigit_of_mem_padded {width n : Nat} {c : Char} (h : c ∈ (padded width n).toList) : c.isDigit := by
  rw [padded, String.toList_ofList, List.mem_append, List.mem_replicate] at h
  rcases h with ⟨-, rfl⟩ | hdigit
  · rfl
  · exact Nat.isDigit_of_mem_toDigits (by decide) (by decide) hdigit

theorem readNumber_padded (width n : Nat) : readNumber (padded width n).toList = some n := by
  rw [readNumber_eq_some _ fun c hc => isDigit_of_mem_padded hc]
  · simp [padded, Nat.ofDigitChars_append]
  · simp [padded, Nat.toDigits_ne_nil]

theorem not_mem_padded {width n : Nat} {c : Char} (hc : c.isDigit = false) : c ∉ (padded width n).toList := by
  intro hmem
  rw [isDigit_of_mem_padded hmem] at hc
  exact absurd hc (by decide)

/-- `format_timestamp` of an instant in the media. -/
def timestamp (n : Nat) : String :=
  padded 2 (n / 1000 / 60 / 60) ++ ":" ++ padded 2 (n / 1000 / 60 % 60) ++ ":" ++ padded 2 (n / 1000 % 60) ++ "." ++
    padded 3 (n % 1000)

theorem formatTimestamp_ok {milliseconds : Int} (h : 0 ≤ milliseconds) :
    formatTimestamp milliseconds = .ok (timestamp milliseconds.toNat) := by
  rw [formatTimestamp, require_bind_of (Int.not_lt.mpr h)]
  rfl

theorem toList_timestamp (n : Nat) :
    (timestamp n).toList = (padded 2 (n / 1000 / 60 / 60)).toList ++ ':' :: ((padded 2 (n / 1000 / 60 % 60)).toList ++
      ':' :: ((padded 2 (n / 1000 % 60)).toList ++ '.' :: (padded 3 (n % 1000)).toList)) := by
  have hcolon : ":".toList = [':'] := rfl
  have hdot : ".".toList = ['.'] := rfl
  simp only [timestamp, String.toList_append, hcolon, hdot, List.append_assoc, List.cons_append, List.nil_append]

theorem not_mem_timestamp {n : Nat} {c : Char} (hc : c.isDigit = false) (hcolon : c ≠ ':') (hdot : c ≠ '.') :
    c ∉ (timestamp n).toList := by
  simp [toList_timestamp, not_mem_padded hc, hcolon, hdot]

/-- However many hours there are, a timestamp is read back. -/
theorem readTimestamp_timestamp (n : Nat) : readTimestamp (timestamp n).toList = some n := by
  have hcolon : ∀ width m, ':' ∉ (padded width m).toList := fun _ _ => not_mem_padded rfl
  have hdot : ∀ width m, '.' ∉ (padded width m).toList := fun _ _ => not_mem_padded rfl
  have hseconds : ':' ∉ (padded 2 (n / 1000 % 60)).toList ++ '.' :: (padded 3 (n % 1000)).toList := by
    simp [hcolon]
  have hwhole : ((n / 1000 / 60 / 60 * 60 + n / 1000 / 60 % 60) * 60 + n / 1000 % 60) * 1000 + n % 1000 = n := by
    omega
  rw [readTimestamp, toList_timestamp, List.splitOn_append_cons_self_of_not_mem (hcolon _ _),
    List.splitOn_append_cons_self_of_not_mem (hcolon _ _), List.splitOn_eq_singleton hseconds]
  simp only [List.splitOn_append_cons_self_of_not_mem (hdot _ _), List.splitOn_eq_singleton (hdot _ _),
    readNumber_padded, Option.bind_eq_bind, Option.bind_some, hwhole]
  rfl

/-! ### One cue -/

/-- A natural position, a span within the media and a text that is not blank. -/
structure TranscriptSegment.IsCue (segment : TranscriptSegment) : Prop where
  position : 0 ≤ segment.position
  startMs : 0 ≤ segment.startMs
  span : segment.startMs < segment.endMs
  text : strip segment.text ≠ ""

def timingText (segment : TranscriptSegment) : String :=
  timestamp segment.startMs.toNat ++ " " ++ CUE_SEPARATOR ++ " " ++ timestamp segment.endMs.toNat

section Cue

variable {segment : TranscriptSegment}

theorem TranscriptSegment.IsCue.endMs (h : segment.IsCue) : 0 ≤ segment.endMs :=
  Int.le_trans h.startMs (Int.le_of_lt h.span)

theorem timingLine_ok (hstart : 0 ≤ segment.startMs) (hend : 0 ≤ segment.endMs) :
    timingLine segment = .ok (timingText segment) := by
  rw [timingLine, formatTimestamp_ok hstart, formatTimestamp_ok hend]
  rfl

theorem toList_timingText (segment : TranscriptSegment) :
    (timingText segment).toList = (timestamp segment.startMs.toNat).toList ++
      ' ' :: (CUE_SEPARATOR.toList ++ ' ' :: (timestamp segment.endMs.toNat).toList) := by
  simp [timingText]

theorem readTiming_timingText (segment : TranscriptSegment) :
    readTiming (timingText segment).toList = some (segment.startMs.toNat, segment.endMs.toNat) := by
  have hspace : ∀ n, ' ' ∉ (timestamp n).toList := fun n => not_mem_timestamp rfl (by decide) (by decide)
  have harrow : ' ' ∉ CUE_SEPARATOR.toList := by decide
  rw [readTiming, toList_timingText, List.splitOn_append_cons_self_of_not_mem (hspace _),
    List.splitOn_append_cons_self_of_not_mem harrow, List.splitOn_eq_singleton (hspace _)]
  simp [readTimestamp_timestamp]

theorem toList_position (h : 0 ≤ segment.position) :
    segment.position.repr.toList = Nat.toDigits 10 segment.position.toNat := by
  obtain ⟨n, hn⟩ := Int.eq_ofNat_of_zero_le h
  rw [hn]
  exact Nat.toList_repr

theorem isDigit_of_mem_position (h : 0 ≤ segment.position) {c : Char} (hc : c ∈ segment.position.repr.toList) :
    c.isDigit := by
  rw [toList_position h] at hc
  exact Nat.isDigit_of_mem_toDigits (by decide) (by decide) hc

theorem readNumber_position (h : 0 ≤ segment.position) :
    readNumber segment.position.repr.toList = some segment.position.toNat := by
  rw [readNumber_eq_some _ fun c hc => isDigit_of_mem_position h hc]
  · rw [toList_position h, Nat.ofDigitChars_ten_toDigits]
  · rw [toList_position h]
    exact Nat.toDigits_ne_nil

/-- The lines of a cue, without the blank line after it. -/
def cueBlock (segment : TranscriptSegment) : List (List Char) :=
  segment.position.repr.toList :: (timingText segment).toList :: (escapeCueText segment.text).toList.splitOn '\n'

theorem readBlock_cueBlock (h : segment.IsCue) : readBlock (cueBlock segment) = some segment.cue := by
  have htext : ((escapeCueText segment.text).toList.splitOn '\n').map unescape = segment.text.toList.splitOn '\n' := by
    rw [splitOn_escapeCueText, List.map_map]
    exact List.map_id'' unescape_escaped _
  have hposition : (segment.position.toNat : Int) = segment.position := Int.toNat_of_nonneg h.position
  have hstart : (segment.startMs.toNat : Int) = segment.startMs := Int.toNat_of_nonneg h.startMs
  have hend : (segment.endMs.toNat : Int) = segment.endMs := Int.toNat_of_nonneg h.endMs
  rw [cueBlock, readBlock, readNumber_position h.position, readTiming_timingText, htext, List.intercalate_splitOn,
    String.ofList_toList]
  simp [TranscriptSegment.cue, hposition, hstart, hend]

end Cue

/-! ### A file -/

/-- The lines `renderVtt` joins. -/
def cueText (segment : TranscriptSegment) : List String :=
  [segment.position.repr, timingText segment, escapeCueText segment.text, ""]

def renderedLines (segments : List TranscriptSegment) : List String := ["WEBVTT", ""] ++ (segments.map cueText).flatten

section File

variable {segments : List TranscriptSegment} (hsegments : ∀ segment ∈ segments, segment.IsCue)
include hsegments

omit hsegments in
theorem renderVtt_ok (htimed : ∀ segment ∈ segments, 0 ≤ segment.startMs ∧ 0 ≤ segment.endMs) :
    renderVtt segments = .ok ("\n".intercalate (renderedLines segments)) := by
  have hcues : segments.mapM cueLines = .ok (segments.map cueText) := by
    induction segments with
    | nil => rfl
    | cons segment segments ih =>
      have hcue : cueLines segment = .ok (cueText segment) := by
        obtain ⟨hstart, hend⟩ := htimed segment List.mem_cons_self
        rw [cueLines, timingLine_ok hstart hend]
        rfl
      rw [List.mapM_cons, hcue, ih fun s hs => htimed s (List.mem_cons_of_mem _ hs)]
      rfl
  rw [renderVtt, hcues]
  rfl

theorem newline_not_mem_position {segment : TranscriptSegment} (h : segment ∈ segments) :
    '\n' ∉ segment.position.repr.toList := by
  intro hmem
  exact absurd (isDigit_of_mem_position (hsegments segment h).position hmem) (by decide)

omit hsegments in
theorem newline_not_mem_timingText (segment : TranscriptSegment) : '\n' ∉ (timingText segment).toList := by
  have hnumber : ∀ n, '\n' ∉ (timestamp n).toList := fun n => not_mem_timestamp rfl (by decide) (by decide)
  rw [toList_timingText]
  simp [hnumber, CUE_SEPARATOR]

/-- The lines of the file: the header, and each cue with a blank line after it. -/
theorem fileLines_renderedLines :
    fileLines ("\n".intercalate (renderedLines segments)) =
      "WEBVTT".toList :: [] :: (segments.map cueBlock).flatMap (· ++ [[]]) := by
  have hparts : (renderedLines segments).map String.toList ≠ [] := by simp [renderedLines]
  have hcue : ∀ segment ∈ segments,
      ((cueText segment).map String.toList).flatMap (·.splitOn '\n') = cueBlock segment ++ [[]] := by
    intro segment hsegment
    simp only [cueText, List.map_cons, List.map_nil, List.flatMap_cons, List.flatMap_nil,
      List.splitOn_eq_singleton (newline_not_mem_position hsegments hsegment),
      List.splitOn_eq_singleton (newline_not_mem_timingText segment)]
    simp [cueBlock]
  have hheader : ["WEBVTT", ""].flatMap (fun line => line.toList.splitOn '\n') = ["WEBVTT".toList, []] := by decide
  rw [fileLines, String.toList_intercalate, show "\n".toList = ['\n'] from rfl,
    splitOn_intercalate_flatMap '\n' hparts, renderedLines, List.map_append, List.flatMap_append, List.map_flatten,
    List.map_map, List.flatMap_map, ← List.flatMap_def, List.flatMap_assoc, hheader, List.flatMap_map]
  exact congrArg ("WEBVTT".toList :: [] :: ·) (List.flatMap_congr hcue)

/-- Where no text has an empty line, what is between the blank lines is the cues. -/
theorem readVtt_renderedLines (hfull : ∀ segment ∈ segments, [] ∉ segment.text.toList.splitOn '\n') :
    readVtt ("\n".intercalate (renderedLines segments)) = some (segments.map (·.cue)) := by
  have hblocks : ∀ block ∈ segments.map cueBlock, block ≠ [] ∧ [] ∉ block := by
    intro block hblock
    obtain ⟨segment, hsegment, rfl⟩ := List.mem_map.mp hblock
    have hcue := hsegments segment hsegment
    have hposition : segment.position.repr.toList ≠ [] := by
      rw [toList_position hcue.position]
      exact Nat.toDigits_ne_nil
    have htiming : (timingText segment).toList ≠ [] := by simp [toList_timingText]
    have htext : [] ∉ (escapeCueText segment.text).toList.splitOn '\n' := by
      rw [splitOn_escapeCueText, List.mem_map]
      rintro ⟨line, hline, hempty⟩
      have hnil : line = [] := by rw [← unescape_escaped line, hempty, unescape]
      exact hfull segment hsegment (hnil ▸ hline)
    refine ⟨List.cons_ne_nil _ _, fun hblank => ?_⟩
    rcases List.mem_cons.mp hblank with hempty | hblank
    · exact hposition hempty.symm
    · rcases List.mem_cons.mp hblank with hempty | hblank
      · exact htiming hempty.symm
      · exact htext hblank
  rw [readVtt, fileLines_renderedLines hsegments]
  simp only [and_self, if_true]
  rw [blocks_flatMap hblocks, mapM_eq_some_iff, List.map_map, List.map_map]
  exact List.map_congr_left fun segment hsegment => readBlock_cueBlock (hsegments segment hsegment)

omit hsegments in
/-- A reader of blocks never gives a text with an empty line, unless the text is empty. -/
theorem nil_not_mem_of_readVtt {file : String} {cues : List Cue} (h : readVtt file = some cues) :
    ∀ cue ∈ cues, cue.text = "" ∨ [] ∉ cue.text.toList.splitOn '\n' := by
  intro cue hcue
  obtain ⟨block, hblock, hread⟩ : ∃ block ∈ blocks ((fileLines file).drop 2), readBlock block = some cue := by
    unfold readVtt at h
    split at h
    · rename_i header blank rest hlines
      split at h
      · have hall := mapM_eq_some_iff.mp h
        have hmem : some cue ∈ (blocks rest).map readBlock := hall ▸ List.mem_map_of_mem hcue
        rw [hlines]
        exact List.mem_map.mp hmem
      · exact absurd h (by simp)
    · exact absurd h (by simp)
  match block, hread with
  | position :: timing :: text, hread =>
    have hlines : ∀ line ∈ text, line ≠ [] ∧ '\n' ∉ line := by
      intro line hline
      have hmem : line ∈ position :: timing :: text := List.mem_cons_of_mem _ (List.mem_cons_of_mem _ hline)
      constructor
      · rintro rfl
        exact not_blank_of_mem_blocks hblock hmem
      · exact not_mem_of_mem_splitOn (List.mem_of_mem_drop (mem_of_mem_blocks hblock line hmem))
    have htext : cue.text = String.ofList (['\n'].intercalate (text.map unescape)) := by
      simp only [readBlock, Option.bind_eq_bind, Option.bind_eq_some_iff] at hread
      obtain ⟨_, -, _, -, heq⟩ := hread
      rw [← Option.some.inj heq]
    rw [htext]
    cases text with
    | nil => exact .inl rfl
    | cons first rest =>
      right
      have hnewline : ∀ line ∈ (first :: rest).map unescape, '\n' ∉ line := by
        intro line hline
        obtain ⟨raw, hraw, rfl⟩ := List.mem_map.mp hline
        intro hmem
        rcases mem_of_mem_unescape hmem with hin | hentity
        · exact (hlines raw hraw).2 hin
        · exact absurd hentity (by decide)
      rw [String.toList_ofList, List.splitOn_intercalate '\n' hnewline (by simp), List.mem_map]
      rintro ⟨raw, hraw, hempty⟩
      exact unescape_ne_nil (hlines raw hraw).1 hempty

/-! ### Separators -/

omit hsegments in
theorem occurrences_timingText (segment : TranscriptSegment) :
    occurrences CUE_SEPARATOR.toList (timingText segment).toList = 1 := by
  have hspace : ' ' ∉ CUE_SEPARATOR.toList := by decide
  have hnone : ∀ n, occurrences CUE_SEPARATOR.toList (timestamp n).toList = 0 := fun n =>
    occurrences_eq_zero (c := '>') (by decide) (not_mem_timestamp rfl (by decide) (by decide))
  rw [toList_timingText, occurrences_append_sep (by decide) hspace, occurrences_append_sep (by decide) hspace, hnone,
    hnone]
  decide

theorem occurrences_position {segment : TranscriptSegment} (h : segment ∈ segments) :
    occurrences CUE_SEPARATOR.toList segment.position.repr.toList = 0 := by
  apply occurrences_eq_zero (c := '>') (by decide)
  intro hmem
  exact absurd (isDigit_of_mem_position (hsegments segment h).position hmem) (by decide)

/-- The separator stands in the file once for each segment. -/
theorem occurrences_renderedLines :
    occurrences CUE_SEPARATOR.toList ("\n".intercalate (renderedLines segments)).toList = segments.length := by
  have hheader : (["WEBVTT", ""].map String.toList |>.map (occurrences CUE_SEPARATOR.toList)).sum = 0 := by decide
  have hcue : ∀ segment ∈ segments,
      (((cueText segment).map String.toList).map (occurrences CUE_SEPARATOR.toList)).sum = 1 := by
    intro segment hsegment
    have htext : occurrences CUE_SEPARATOR.toList (escapeCueText segment.text).toList = 0 :=
      occurrences_eq_zero (c := '>') (by decide) (gt_not_mem_escapeCueText segment.text)
    simp [cueText, occurrences_position hsegments hsegment, occurrences_timingText, htext]
  rw [String.toList_intercalate, show "\n".toList = ['\n'] from rfl,
    occurrences_intercalate (by decide) (by decide), renderedLines, List.map_append, List.map_append, List.sum_append,
    hheader, Nat.zero_add, List.map_flatten, List.map_flatten, List.sum_flatten, List.map_map, List.map_map,
    List.map_map]
  refine (congrArg List.sum (List.map_congr_left hcue)).trans ?_
  simp

/-- The lines it stands in are the timings. -/
theorem filter_fileLines :
    (fileLines ("\n".intercalate (renderedLines segments))).filter (0 < occurrences CUE_SEPARATOR.toList ·) =
      segments.map fun segment => (timingText segment).toList := by
  have hcue : ∀ segment ∈ segments, (cueBlock segment ++ [[]]).filter (0 < occurrences CUE_SEPARATOR.toList ·) =
      [(timingText segment).toList] := by
    intro segment hsegment
    have htext : ((escapeCueText segment.text).toList.splitOn '\n').filter
        (0 < occurrences CUE_SEPARATOR.toList ·) = [] := by
      rw [List.filter_eq_nil_iff]
      intro line hline
      have hnone : occurrences CUE_SEPARATOR.toList line = 0 := occurrences_eq_zero (c := '>') (by decide)
        fun hmem => gt_not_mem_escapeCueText segment.text (mem_of_mem_splitOn hline '>' hmem).1
      simp [hnone]
    simp [cueBlock, occurrences_position hsegments hsegment, occurrences_timingText, htext]
  have hheader : ¬ decide (0 < occurrences CUE_SEPARATOR.toList "WEBVTT".toList) = true := by decide
  have hblank : ¬ decide (0 < occurrences CUE_SEPARATOR.toList []) = true := by decide
  rw [fileLines_renderedLines hsegments, List.filter_cons, if_neg hheader, List.filter_cons, if_neg hblank,
    List.filter_flatMap, List.flatMap_map, List.flatMap_congr hcue, List.map_eq_flatMap]

end File

/-! ### What is lost -/

/-- The file is read back as its segments, and the separator stands in it on their timings and nowhere else. -/
structure LosesNothing (segments : List TranscriptSegment) (file : String) : Prop where
  readsBack : readVtt file = some (segments.map (·.cue))
  onTimingLines : ((fileLines file).filter (0 < occurrences CUE_SEPARATOR.toList ·)).map
    (fun line => .ok (String.ofList line)) = segments.map timingLine
  oncePerSegment : occurrences CUE_SEPARATOR.toList file.toList = segments.length

/-- No line of the text is empty: it neither starts nor ends with a line break, and none follows another. -/
def TranscriptSegment.NoEmptyLine (segment : TranscriptSegment) : Prop := [] ∉ segment.text.toList.splitOn '\n'

/-- A rendering loses nothing exactly when no text has an empty line. -/
theorem losesNothing_iff {segments : List TranscriptSegment} (hsegments : ∀ segment ∈ segments, segment.IsCue) :
    (∃ file, renderVtt segments = .ok file ∧ LosesNothing segments file) ↔
      ∀ segment ∈ segments, segment.NoEmptyLine := by
  constructor
  · rintro ⟨file, -, hlost⟩ segment hsegment
    have hread := nil_not_mem_of_readVtt hlost.readsBack segment.cue (List.mem_map_of_mem hsegment)
    rcases hread with hempty | hfull
    · have htext : segment.text = "" := hempty
      exact absurd (by rw [htext]; decide) (hsegments segment hsegment).text
    · exact hfull
  · intro hfull
    have htimed : ∀ segment ∈ segments, 0 ≤ segment.startMs ∧ 0 ≤ segment.endMs :=
      fun segment hsegment => ⟨(hsegments segment hsegment).startMs, (hsegments segment hsegment).endMs⟩
    refine ⟨_, renderVtt_ok htimed, readVtt_renderedLines hsegments hfull, ?_, occurrences_renderedLines hsegments⟩
    rw [filter_fileLines hsegments, List.map_map]
    apply List.map_congr_left
    intro segment hsegment
    obtain ⟨hstart, hend⟩ := htimed segment hsegment
    rw [Function.comp_apply, String.ofList_toList, timingLine_ok hstart hend]

def greeting : TranscriptSegment := ⟨1, 1, 0, 1500, "Buenos días <a todos>", false, 0⟩

theorem greeting_loses_nothing :
    (∃ file, renderVtt [greeting] = .ok file ∧ LosesNothing [greeting] file) ↔
      ∀ segment ∈ [greeting], segment.NoEmptyLine :=
  losesNothing_iff fun _ hsegment => by
    obtain rfl := List.mem_singleton.mp hsegment
    exact ⟨by decide, by decide, by decide, by decide⟩

def paragraphs : TranscriptSegment := ⟨1, 1, 0, 1500, "uno\n\ndos", true, 0⟩

/-- A line left empty between two others ends the cue after the first. -/
theorem empty_line_is_lost :
    paragraphs.IsCue ∧ ¬ ∃ file, renderVtt [paragraphs] = .ok file ∧ LosesNothing [paragraphs] file := by
  refine ⟨⟨by decide, by decide, by decide, by decide⟩, ?_⟩
  rintro ⟨file, hfile, hlost⟩
  obtain rfl : "WEBVTT\n\n1\n00:00:00.000 --> 00:00:01.500\nuno\n\ndos\n" = file :=
    Except.ok.inj ((show _ = _ by decide).symm.trans hfile)
  exact absurd hlost.readsBack (by decide)

end EPlatform.Transcripts
