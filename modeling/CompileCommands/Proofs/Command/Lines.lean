import CompileCommands.Command.Invocation
import CompileCommands.Proofs.Shell.Escape
import CompileCommands.Proofs.Text.Space

/-!
# Lines of escaped arguments

A log line of escaped arguments gives back the arguments as its tokens, however it is read and
whatever blanks stand in front (`tokens_behind_blanks`). If some argument needed quotes the line has
a single quote in it and goes to the shell. If none did, every argument is nonempty and free of
white space (`Text.IsSolid`), so trimming and cutting at single spaces find the places at which the
arguments were joined (`cuts_row`).
-/

namespace CompileCommands.Shell

/-! ## Arguments without quotes -/

theorem isSafe_range {c : Char} (h : isSafe c = true ∨ c = '=') :
    33 ≤ c.toNat ∧ c.toNat ≤ 126 := by
  rcases h with h | rfl
  · delta isSafe Char.isAlphanum Char.isAlpha Char.isUpper Char.isLower Char.isDigit at h
    simp only [Bool.or_eq_true, Bool.and_eq_true, decide_eq_true_eq, UInt32.le_iff_toNat_le,
      ge_iff_le] at h
    change (((((((((((65 ≤ c.toNat ∧ c.toNat ≤ 90) ∨ (97 ≤ c.toNat ∧ c.toNat ≤ 122)) ∨
      (48 ≤ c.toNat ∧ c.toNat ≤ 57)) ∨ c = '-') ∨ _) ∨ _) ∨ _) ∨ _) ∨ _) ∨ _) ∨ _) ∨ _ at h
    rcases h with (((((((((((h | h) | h) | rfl) | rfl) | rfl) | rfl) | rfl) | rfl) | rfl) | rfl) | rfl)
    iterate 3 omega
    all_goals decide
  · decide

theorem isPlain_no_space {cs : List Char} (h : isPlain cs = true) :
    ∀ c ∈ cs, Text.isSpace c = false := by
  intro c hc
  rw [Bool.eq_false_iff]
  intro hspace
  have hsafe := isSafe_range (isPlain_safe h c hc)
  have hrange := Text.isSpace_range hspace
  omega

/-- Only a plain argument is escaped without a single quote. -/
theorem isPlain_of_escape {arg : String} (h : singleQuote ∉ (escape arg).toList) :
    isPlain arg.toList = true := by
  cases hplain : isPlain arg.toList with
  | true => rfl
  | false => simp [escape, hplain] at h

theorem escape_of_isPlain {arg : String} (h : isPlain arg.toList = true) : escape arg = arg := by
  rw [escape, if_pos h]

end CompileCommands.Shell

namespace CompileCommands.Command

open Shell

/-! ## Cutting at spaces -/

/-- The pieces of a text between single spaces, as characters. -/
def cuts (cs : List Char) : List (List Char) := ((Text.trim cs).splitOn ' ').map Text.trim

theorem pieces_eq_cuts (line : String) : pieces line = (cuts line.toList).map String.ofList := by
  rw [pieces, cuts, List.map_map]
  rfl

/-- A row of pieces is cut into the pieces, with or without an indent. -/
theorem cuts_row {blanks : List Char} {ls : List (List Char)}
    (hblanks : ∀ c ∈ blanks, Text.isSpace c = true) (hne : ls ≠ [])
    (h : ∀ l ∈ ls, Text.IsPiece l) : cuts (blanks ++ [' '].intercalate ls) = ls := by
  have htrim : ls.map Text.trim = ls.map id := List.map_congr_left fun l hl => (h l hl).2.2
  rw [cuts, Text.trim_indented blanks hblanks (Text.head?_row h) (Text.getLast?_row h),
    List.splitOn_intercalate ' ' (fun l hl => (h l hl).2.1) hne, htrim, List.map_id]

theorem pieces_row {blanks : List Char} {line : String} {args : List String}
    (hline : line.toList = blanks ++ [' '].intercalate (args.map String.toList))
    (hblanks : ∀ c ∈ blanks, Text.isSpace c = true) (hne : args ≠ [])
    (h : ∀ arg ∈ args, Text.IsPiece arg.toList) : pieces line = args := by
  rw [pieces_eq_cuts, hline, cuts_row hblanks (mt List.map_eq_nil_iff.mp hne)
    (List.forall_mem_map.mpr h)]
  simp [List.map_map, Function.comp_def]

/-! ## Tokens of a row of escaped arguments -/

/-- Without a single quote in the row every argument is plain. -/
theorem isPlain_of_row {args : List String} (h : singleQuote ∉ (escapeAll args).toList) :
    ∀ arg ∈ args, isPlain arg.toList = true := by
  intro arg harg
  apply isPlain_of_escape
  intro hquote
  apply h
  rw [toList_escapeAll]
  exact Text.subset_row (List.mem_map_of_mem harg) hquote

/-- A row of plain arguments is made of the arguments themselves. -/
theorem toList_row {args : List String} (h : ∀ arg ∈ args, isPlain arg.toList = true) :
    (escapeAll args).toList = [' '].intercalate (args.map String.toList) := by
  have hargs : args.map (fun arg => (escape arg).toList) = args.map String.toList :=
    List.map_congr_left fun arg harg => by rw [escape_of_isPlain (h arg harg)]
  rw [toList_escapeAll, hargs]

theorem isSpace_of_isBlank {c : Char} (h : isBlank c = true) : Text.isSpace c = true := by
  simp only [isBlank, Bool.or_eq_true, decide_eq_true_eq] at h
  rcases h with ((rfl | rfl) | rfl) | rfl <;> decide

/-- Blanks in front of a row of escaped arguments make no difference. -/
theorem tokens_behind_blanks {blanks : List Char} (hblanks : ∀ c ∈ blanks, isBlank c = true)
    {args : List String} (hne : args ≠ []) :
    tokens (String.ofList blanks ++ escapeAll args) = .ok args := by
  have hchars : (String.ofList blanks ++ escapeAll args).toList =
      blanks ++ (escapeAll args).toList := by
    rw [String.toList_append, String.toList_ofList]
  unfold tokens
  split
  · rw [words_eq, hchars, readWords_leading_blanks hblanks, readWords_escaped]
    rfl
  · rename_i hmarks
    have hquote : singleQuote ∉ (escapeAll args).toList := by
      intro hq
      apply hmarks
      rw [hchars, List.any_append, Bool.or_eq_true]
      exact Or.inr (List.any_eq_true.mpr ⟨singleQuote, hq, by decide⟩)
    have hplain := isPlain_of_row hquote
    have hpieces : ∀ arg ∈ args, Text.IsPiece arg.toList := by
      intro arg harg
      exact Text.IsSolid.isPiece
        ⟨isPlain_ne_nil (hplain arg harg), isPlain_no_space (hplain arg harg)⟩
    have hrow : (String.ofList blanks ++ escapeAll args).toList =
        blanks ++ [' '].intercalate (args.map String.toList) := by
      rw [hchars, toList_row hplain]
    have hspaces : ∀ c ∈ blanks, Text.isSpace c = true :=
      fun c hc => isSpace_of_isBlank (hblanks c hc)
    rw [pieces_row hrow hspaces hne hpieces]

def indented (args : List String) : String := "    " ++ escapeAll args

theorem tokens_indented {args : List String} (hne : args ≠ []) :
    tokens (indented args) = .ok args := by
  have hblanks : ∀ c ∈ [' ', ' ', ' ', ' '], isBlank c = true := List.all_eq_true.mp rfl
  exact tokens_behind_blanks hblanks hne

/-! ## Directory lines -/

theorem cd_escape (d : String) : "cd " ++ Shell.escape d = escapeAll ["cd", d] := by
  have hcd : escape "cd" = "cd" := by rfl
  simp [escapeAll, hcd]

theorem directory_behind_blanks {blanks : List Char} (hblanks : ∀ c ∈ blanks, isBlank c = true)
    (d : String) : directory (String.ofList blanks ++ ("cd " ++ Shell.escape d)) = d := by
  rw [directory, cd_escape, tokens_behind_blanks hblanks (List.cons_ne_nil _ _)]
  rfl

def directoryLine (directory : String) : String := "    cd " ++ Shell.escape directory

theorem directory_directoryLine (d : String) : directory (directoryLine d) = d := by
  have hblanks : ∀ c ∈ [' ', ' ', ' ', ' '], isBlank c = true := List.all_eq_true.mp rfl
  have hline : directoryLine d = String.ofList [' ', ' ', ' ', ' '] ++ ("cd " ++ Shell.escape d) := by
    rw [← String.append_assoc]
    rfl
  rw [hline, directory_behind_blanks hblanks]

/-- **The tokenizer undoes escaping.** The shell reads a row of escaped arguments as the arguments,
whatever is in them. So does the tokenizer if there is any argument, whether it reads the row as the
shell does or cuts it at spaces. A line that changes to a directory gives the directory, with or
without spaces and tabs in front. -/
theorem escaped_row_reads_back :
    (∀ args, words (escapeAll args) = .ok args) ∧
      (∀ args, args ≠ [] → tokens (escapeAll args) = .ok args) ∧
      ∀ (blanks : List Char) (d : String), (∀ c ∈ blanks, c = ' ' ∨ c = '\t') →
        directory (String.ofList blanks ++ ("cd " ++ Shell.escape d)) = d := by
  refine ⟨?_, ?_, ?_⟩
  · intro args
    rw [words_eq, readWords_escaped]
    rfl
  · intro args hne
    have hnone : ∀ c ∈ ([] : List Char), isBlank c = true := by simp
    have htokens := tokens_behind_blanks hnone hne
    rwa [String.ofList_nil, String.empty_append] at htokens
  · intro blanks d hblanks
    apply directory_behind_blanks
    intro c hc
    rcases hblanks c hc with rfl | rfl <;> rfl

/-- A quote inside an argument, an empty argument, and a directory behind a tab. -/
theorem row_with_quotes_reads_back :
    tokens "'it'\"'\"'s' '' b" = .ok ["it's", "", "b"] ∧
      directory "\t cd '/a b'" = "/a b" := by
  obtain ⟨-, htokens, hdirectory⟩ := escaped_row_reads_back
  constructor
  · exact htokens ["it's", "", "b"] (by simp)
  · exact hdirectory ['\t', ' '] "/a b" (by simp)

/-- No argument at all makes an empty line, which is cut into one empty piece. -/
example : tokens (escapeAll []) = .ok [""] := by decide +kernel

end CompileCommands.Command
