import CompileCommands.Proofs.Command.Lines
import Mathlib.Data.List.DropRight

/-!
# Where cutting at spaces agrees with the shell

A line without quotes and backslashes is cut at every single space, and white space of Unicode is
trimmed at two levels. The shell reads the same line as the runs between its four blanks
(`Shell.bareWords`). The two agree exactly if no piece is empty, no piece has another blank of the
shell in it, and no word of the shell has white space at an end (`tokens_eq_words_iff`).

The three conditions are needed since words are neither empty nor blank inside and pieces are
trimmed. They suffice by what trimming takes away. White space that is no blank belongs to a word,
so where all words are trimmed it stands at no end of a line or of a piece (`solid_around_space`).
Then only blanks of the shell are taken away, and these belong to no word (`bareWords_trim`).
-/

namespace CompileCommands.Shell

open Transducer

/-! ## Words of a text without quotes -/

def bareWords (cs : List Char) : List (List Char) := (cs.splitOnP isBlank).filter (· ≠ [])

theorem bareWords_blank {c : Char} (hc : isBlank c = true) (front back : List Char) :
    bareWords (front ++ c :: back) = bareWords front ++ bareWords back := by
  rw [bareWords, List.splitOnP_append_cons front back hc, List.filter_append]
  rfl

theorem bareWords_unbroken {word : List Char} (hne : word ≠ []) (h : ∀ c ∈ word, isBlank c = false) :
    bareWords word = [word] := by
  rw [bareWords, List.splitOnP_eq_singleton h]
  simp [hne]

theorem of_mem_bareWords {word cs : List Char} (h : word ∈ bareWords cs) :
    word ≠ [] ∧ ∀ c ∈ word, isBlank c = false := by
  obtain ⟨hcut, hne⟩ := List.mem_filter.mp h
  exact ⟨by simpa using hne, Text.not_of_mem_splitOnP hcut⟩

/-- Outside quotes and escapes the scan gives out the runs between blanks. -/
theorem readWords_eq_bareWords {cs : List Char}
    (h : ∀ c ∈ cs, isBlank c = false → IsOrdinary c) :
    readWords cs = .ok ((bareWords cs).map String.ofList) := by
  induction cs using Text.cut_induction isBlank with
  | unbroken cs hcs =>
      cases cs with
      | nil => rfl
      | cons c rest =>
          have hc : IsOrdinary c := h c List.mem_cons_self (hcs c List.mem_cons_self)
          have hrest : ∀ d ∈ rest, IsOrdinary d := fun d hd =>
            h d (List.mem_cons_of_mem _ hd) (hcs d (List.mem_cons_of_mem _ hd))
          rw [bareWords_unbroken (List.cons_ne_nil c rest) hcs, readWords, run_cons,
            WordScan.start, step_ordinary hc, run_ordinary hrest, push_append]
          simp [WordScan.finish, Except.map]
  | cut front c back hc ihfront ihback =>
      rw [readWords_blank hc (ihfront fun d hd => h d (List.mem_append_left _ hd)),
        ihback fun d hd => h d (List.mem_append_right _ (List.mem_cons_of_mem _ hd)),
        bareWords_blank hc, List.map_append]
      rfl

/-! ## Texts that meet at a blank -/

theorem bareWords_blanks {blanks : List Char} (h : ∀ c ∈ blanks, isBlank c = true) :
    bareWords blanks = [] := by
  induction blanks with
  | nil => rfl
  | cons c rest ih =>
      have hcut := bareWords_blank (h c List.mem_cons_self) [] rest
      rw [ih fun d hd => h d (List.mem_cons_of_mem _ hd)] at hcut
      exact hcut

theorem bareWords_append_of_last {front : List Char} (h : ∀ c ∈ front.getLast?, isBlank c = true)
    (back : List Char) : bareWords (front ++ back) = bareWords front ++ bareWords back := by
  rcases List.eq_nil_or_concat front with rfl | ⟨front, c, rfl⟩
  · rfl
  · rw [List.concat_eq_append] at h ⊢
    have hc : isBlank c = true := h c (by simp)
    have hfront : bareWords (front ++ [c]) = bareWords front := by
      rw [bareWords_blank hc]
      exact List.append_nil _
    rw [hfront, List.append_assoc, List.singleton_append, bareWords_blank hc]

theorem bareWords_append_of_head {back : List Char} (h : ∀ c ∈ back.head?, isBlank c = true)
    (front : List Char) : bareWords (front ++ back) = bareWords front ++ bareWords back := by
  cases back with
  | nil => rw [List.append_nil]; exact (List.append_nil _).symm
  | cons c back =>
      have hc : isBlank c = true := h c rfl
      have hback : bareWords (c :: back) = bareWords back := bareWords_blank hc [] back
      rw [hback, bareWords_blank hc]

/-- The word around a character reaches to the blanks next to it. -/
theorem exists_mem_bareWords {c : Char} (hc : isBlank c = false) (front back : List Char) :
    ∃ before behind, before <:+ front ∧ behind <+: back ∧
      before ++ c :: behind ∈ bareWords (front ++ c :: back) := by
  let before := front.rtakeWhile fun d => !isBlank d
  let behind := back.takeWhile fun d => !isBlank d
  refine ⟨before, behind, List.rtakeWhile_suffix _ _, List.takeWhile_prefix _, ?_⟩
  have hword : bareWords (before ++ c :: behind) = [before ++ c :: behind] := by
    apply bareWords_unbroken (by simp)
    intro d hd
    rcases List.mem_append.mp hd with hd | hd
    · simpa using List.mem_rtakeWhile_imp hd
    · rcases List.mem_cons.mp hd with rfl | hd
      · exact hc
      · simpa using List.mem_takeWhile_imp hd
  have hfront : ∀ d ∈ (front.rdropWhile fun d => !isBlank d).getLast?, isBlank d = true :=
    fun d hd => by simpa using Text.not_of_mem_getLast?_rdropWhile _ _ d hd
  have hback : ∀ d ∈ (back.dropWhile fun d => !isBlank d).head?, isBlank d = true :=
    fun d hd => by simpa using Text.not_of_mem_head?_dropWhile _ _ d hd
  have htext : front ++ c :: back = (front.rdropWhile fun d => !isBlank d) ++
      ((before ++ c :: behind) ++ back.dropWhile fun d => !isBlank d) := by
    rw [List.append_assoc, List.cons_append, List.takeWhile_append_dropWhile, ← List.append_assoc,
      List.rdropWhile_append_rtakeWhile]
  rw [htext, bareWords_append_of_last hfront, bareWords_append_of_head hback, hword]
  simp

/-! ## Words with nothing to trim -/

/-- White space that is no blank is inside its word, so a trimmed word has other characters on both
sides of it. -/
theorem solid_around_space {front back : List Char} {c : Char}
    (htrimmed : ∀ word ∈ bareWords (front ++ c :: back), Text.trim word = word)
    (hspace : Text.isSpace c = true) (hc : isBlank c = false) :
    (∃ d ∈ front, Text.isSpace d = false) ∧ ∃ d ∈ back, Text.isSpace d = false := by
  obtain ⟨before, behind, hbefore, hbehind, hmem⟩ := exists_mem_bareWords hc front back
  have hword : Text.trim (before ++ c :: behind) = before ++ c :: behind := htrimmed _ hmem
  have hhead := Text.head?_trim (before ++ c :: behind)
  have hlast := Text.getLast?_trim (before ++ c :: behind)
  rw [hword] at hhead hlast
  have hnot : ¬ Text.isSpace c = false := by rw [hspace]; decide
  constructor
  · cases before with
    | nil => exact absurd (hhead c rfl) hnot
    | cons d before => exact ⟨d, hbefore.subset List.mem_cons_self, hhead d rfl⟩
  · rcases List.eq_nil_or_concat behind with rfl | ⟨behind, d, rfl⟩
    · exact absurd (hlast c List.getLast?_concat) hnot
    · rw [List.concat_eq_append, ← List.cons_append, ← List.append_assoc] at hlast
      exact ⟨d, hbehind.subset (by simp), hlast d List.getLast?_concat⟩

/-- White space at the ends of a text whose words are all trimmed is blank. -/
theorem blanks_around_trimmed {before text behind : List Char}
    (htrimmed : ∀ word ∈ bareWords (before ++ (text ++ behind)), Text.trim word = word)
    (hbefore : ∀ c ∈ before, Text.isSpace c = true)
    (hbehind : ∀ c ∈ behind, Text.isSpace c = true) :
    (∀ c ∈ before, isBlank c = true) ∧ ∀ c ∈ behind, isBlank c = true := by
  constructor
  · intro c hmem
    by_contra hc
    obtain ⟨front, back, rfl⟩ := List.append_of_mem hmem
    rw [List.append_assoc, List.cons_append] at htrimmed
    obtain ⟨⟨d, hd, hsolid⟩, -⟩ :=
      solid_around_space htrimmed (hbefore c hmem) (Bool.eq_false_iff.mpr hc)
    rw [hbefore d (List.mem_append_left _ hd)] at hsolid
    cases hsolid
  · intro c hmem
    by_contra hc
    obtain ⟨front, back, rfl⟩ := List.append_of_mem hmem
    rw [← List.append_assoc text, ← List.append_assoc before] at htrimmed
    obtain ⟨-, d, hd, hsolid⟩ :=
      solid_around_space htrimmed (hbehind c hmem) (Bool.eq_false_iff.mpr hc)
    rw [hbehind d (List.mem_append_right _ (List.mem_cons_of_mem _ hd))] at hsolid
    cases hsolid

theorem bareWords_trim {cs : List Char}
    (htrimmed : ∀ word ∈ bareWords cs, Text.trim word = word) :
    bareWords (Text.trim cs) = bareWords cs := by
  obtain ⟨before, behind, hcs, hbefore, hbehind⟩ := Text.exists_around_trim cs
  rw [hcs] at htrimmed
  obtain ⟨hfront, hback⟩ := blanks_around_trimmed htrimmed hbefore hbehind
  calc bareWords (Text.trim cs)
      = bareWords before ++ (bareWords (Text.trim cs) ++ bareWords behind) := by
        rw [bareWords_blanks hfront, bareWords_blanks hback, List.nil_append, List.append_nil]
    _ = bareWords (before ++ (Text.trim cs ++ behind)) := by
        rw [bareWords_append_of_last fun c hc => hfront c (List.mem_of_getLast? hc),
          bareWords_append_of_head fun c hc => hback c (List.mem_of_mem_head? hc)]
    _ = bareWords cs := by rw [← hcs]

/-- Single spaces are blanks, so the words of a row are those of its pieces. -/
theorem bareWords_intercalate : ∀ ls : List (List Char),
    bareWords ([' '].intercalate ls) = ls.flatMap bareWords
  | [] => rfl
  | [l] => by simp
  | l :: m :: ls => by
      have hspace : isBlank ' ' = true := rfl
      rw [List.intercalate_cons_cons, List.append_assoc, List.singleton_append,
        bareWords_blank hspace, bareWords_intercalate (m :: ls)]
      rfl

end CompileCommands.Shell

namespace CompileCommands.Command

open Shell

/-! ## Pieces that are words -/

/-- A text that the shell takes as one word: nonempty, and without a blank other than the space. -/
def IsWhole (piece : List Char) : Prop :=
  piece ≠ [] ∧ ∀ c ∈ piece, c ≠ '\t' ∧ c ≠ '\n' ∧ c ≠ '\r'

theorem isBlank_eq_false_iff {c : Char} :
    isBlank c = false ↔ c ≠ ' ' ∧ c ≠ '\t' ∧ c ≠ '\n' ∧ c ≠ '\r' := by
  simp [isBlank, and_assoc]

/-- A piece between spaces, all of whose words are trimmed, is one word if it is whole. -/
theorem bareWords_piece {cs piece : List Char} (hpiece : piece ∈ cs.splitOn ' ')
    (htrimmed : ∀ word ∈ bareWords piece, Text.trim word = word)
    (hwhole : IsWhole (Text.trim piece)) : bareWords piece = [Text.trim piece] := by
  rw [← bareWords_trim htrimmed]
  apply bareWords_unbroken hwhole.1
  intro c hc
  have hmem : c ∈ piece := Text.trim_subset piece hc
  have hspace : c ≠ ' ' := by
    rw [List.splitOn_eq_splitOnP] at hpiece
    simpa using Text.not_of_mem_splitOnP hpiece c hmem
  exact isBlank_eq_false_iff.mpr ⟨hspace, hwhole.2 c hc⟩

theorem cuts_eq_bareWords_iff (cs : List Char) :
    cuts cs = bareWords cs ↔
      (∀ piece ∈ cuts cs, IsWhole piece) ∧ ∀ word ∈ bareWords cs, Text.trim word = word := by
  constructor
  · intro h
    constructor
    · intro piece hpiece
      rw [h] at hpiece
      obtain ⟨hne, hblank⟩ := of_mem_bareWords hpiece
      exact ⟨hne, fun c hc => (isBlank_eq_false_iff.mp (hblank c hc)).2⟩
    · intro word hword
      rw [← h] at hword
      obtain ⟨piece, -, rfl⟩ := List.mem_map.mp hword
      exact Text.trim_trim piece
  · rintro ⟨hwhole, htrimmed⟩
    -- the words of a text are those of its pieces, and each piece has only itself
    have hwords : bareWords cs = ((Text.trim cs).splitOn ' ').flatMap bareWords := by
      rw [← bareWords_intercalate, List.intercalate_splitOn, bareWords_trim htrimmed]
    have hpieces : ∀ piece ∈ (Text.trim cs).splitOn ' ', bareWords piece = [Text.trim piece] := by
      intro piece hpiece
      apply bareWords_piece hpiece
      · intro word hword
        apply htrimmed
        rw [hwords]
        exact List.mem_flatMap.mpr ⟨piece, hpiece, hword⟩
      · exact hwhole _ (List.mem_map_of_mem hpiece)
    rw [hwords, List.flatMap_congr hpieces, cuts, List.map_eq_flatMap]

/-! ## Cutting and reading -/

theorem tokens_of_unmarked {command : String} (h : ∀ c ∈ command.toList, isShellMark c = false) :
    tokens command = .ok ((cuts command.toList).map String.ofList) := by
  have hmarks : ¬ command.toList.any isShellMark = true := by simpa using h
  rw [tokens, if_neg hmarks, pieces_eq_cuts]

theorem words_of_unmarked {command : String} (h : ∀ c ∈ command.toList, isShellMark c = false) :
    words command = .ok ((bareWords command.toList).map String.ofList) := by
  have hordinary : ∀ c ∈ command.toList, isBlank c = false → IsOrdinary c := by
    intro c hc hblank
    have hmark := h c hc
    simp only [isShellMark, Bool.or_eq_false_iff, decide_eq_false_iff_not] at hmark
    exact ⟨hblank, hmark.1.1, hmark.1.2, hmark.2⟩
  rw [words_eq, readWords_eq_bareWords hordinary]
  rfl

/-- A row of words without white space is cut into its words and read as its words. -/
theorem agree_on_row {ls : List (List Char)} (hne : ls ≠ []) (h : ∀ l ∈ ls, Text.IsSolid l) :
    cuts ([' '].intercalate ls) = ls ∧ bareWords ([' '].intercalate ls) = ls := by
  have hblank : ∀ l ∈ ls, ∀ c ∈ l, isBlank c = false := by
    intro l hl c hc
    rw [Bool.eq_false_iff]
    intro hblank
    have hsolid := (h l hl).2 c hc
    rw [isSpace_of_isBlank hblank] at hsolid
    exact Bool.noConfusion hsolid
  have hnone : ∀ c ∈ ([] : List Char), Text.isSpace c = true := by simp
  constructor
  · exact cuts_row hnone hne fun l hl => (h l hl).isPiece
  · have hwords : ∀ l ∈ ls, bareWords l = [l] :=
      fun l hl => bareWords_unbroken (h l hl).1 (hblank l hl)
    rw [bareWords_intercalate, List.flatMap_congr hwords, ← List.map_eq_flatMap, List.map_id']

/-- Without quotes and backslashes the pieces are the words of the shell exactly if no piece is
empty or has another blank in it and every word is trimmed. A row of words without white space
gives back its words both ways. -/
theorem tokens_eq_words_iff {command : String}
    (h : ∀ c ∈ command.toList, isShellMark c = false) :
    (∃ found read, tokens command = .ok found ∧ words command = .ok read ∧
      (tokens command = words command ↔
        (∀ token ∈ found, IsWhole token.toList) ∧
          ∀ word ∈ read, Text.trim word.toList = word.toList)) ∧
    ∀ row : List String, row ≠ [] → (∀ word ∈ row, Text.IsSolid word.toList) →
      command = " ".intercalate row → tokens command = .ok row ∧ words command = .ok row := by
  rw [tokens_of_unmarked h, words_of_unmarked h]
  have hinj : Function.Injective (List.map String.ofList) :=
    List.map_injective_iff.mpr fun _ _ => String.ofList_injective
  constructor
  · refine ⟨_, _, rfl, rfl, ?_⟩
    rw [Except.ok.injEq, hinj.eq_iff, cuts_eq_bareWords_iff]
    simp only [List.forall_mem_map, String.toList_ofList]
  · rintro row hne hsolid rfl
    have hchars : (" ".intercalate row).toList = [' '].intercalate (row.map String.toList) :=
      String.toList_intercalate
    have hback : (row.map String.toList).map String.ofList = row := by
      simp [List.map_map, Function.comp_def]
    have hsolid' : ∀ l ∈ row.map String.toList, Text.IsSolid l := List.forall_mem_map.mpr hsolid
    obtain ⟨hcuts, hwords⟩ := agree_on_row (mt List.map_eq_nil_iff.mp hne) hsolid'
    rw [hchars, hcuts, hwords, hback]
    exact ⟨rfl, rfl⟩

/-- Tabs and line ends around the words are trimmed away. -/
theorem tokens_of_tabbed_line :
    (∀ c ∈ "\tcc -c a.c\n".toList, isShellMark c = false) ∧
      tokens "\tcc -c a.c\n" = words "\tcc -c a.c\n" := by
  have hmarks : ("\tcc -c a.c\n".toList.all fun c => !isShellMark c) = true := by decide +kernel
  have h : ∀ c ∈ "\tcc -c a.c\n".toList, isShellMark c = false :=
    fun c hc => by simpa using List.all_eq_true.mp hmarks c hc
  obtain ⟨⟨found, read, hfound, hread, hiff⟩, -⟩ := tokens_eq_words_iff h
  have hpieces : tokens "\tcc -c a.c\n" = .ok ["cc", "-c", "a.c"] := by decide +kernel
  have hwords : words "\tcc -c a.c\n" = .ok ["cc", "-c", "a.c"] := by decide +kernel
  obtain rfl : ["cc", "-c", "a.c"] = found := Except.ok.inj (hpieces.symm.trans hfound)
  obtain rfl : ["cc", "-c", "a.c"] = read := Except.ok.inj (hwords.symm.trans hread)
  refine ⟨h, hiff.mpr ⟨?_, ?_⟩⟩
  · simp [IsWhole]
  · decide +kernel

/-- White space that is no blank of the shell stays in its word but is trimmed from its piece. -/
example : tokens "cc\u00a0 a.c" = .ok ["cc", "a.c"] ∧
    words "cc\u00a0 a.c" = .ok ["cc\u00a0", "a.c"] := by decide +kernel

end CompileCommands.Command
