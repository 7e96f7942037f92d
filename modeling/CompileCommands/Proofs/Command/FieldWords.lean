import CompileCommands.Proofs.Command.Field
import CompileCommands.Proofs.Command.Pieces
import CompileCommands.Proofs.Shell.Grammar

/-!
# The command field as the shell reads it

The command field is written for readers that know space, double quote and backslash. The shell
knows more: single quotes, and three blanks besides the space. So it reads an argument back exactly
if the argument went between double quotes, or has none of these four characters in it
(`readWords_quote_iff`). Between double quotes all four stand for themselves, and the characters
that the field escapes are among those that the shell unescapes, which makes the quoted argument a
word of the grammar (`word_of_isProtected`).

For the other direction the grammar is enough. A text without double quotes and backslashes has no
part whose value has a single quote (`Derives.no_singleQuote`), and once single quotes are out its
words are the runs between blanks.
-/

namespace CompileCommands.Shell

/-! ## Texts with single quotes only -/

/-- Single quotes are the only marks that may stand in the text. -/
def IsSingleQuoted (text : List Char) : Prop := ∀ c ∈ text, c ≠ doubleQuote ∧ c ≠ backslash

theorem IsSingleQuoted.append_iff {front back : List Char} :
    IsSingleQuoted (front ++ back) ↔ IsSingleQuoted front ∧ IsSingleQuoted back :=
  List.forall_mem_append

theorem Part.no_singleQuote {text : List Char} {value : String} (h : Part text value)
    (htext : IsSingleQuoted text) : singleQuote ∉ value.toList := by
  cases h with
  | @ordinary c h =>
      have hne : singleQuote ≠ c := h.2.1.symm
      simpa using hne
  | escaped c => exact absurd rfl (htext backslash List.mem_cons_self).2
  | single h => rwa [String.toList_ofList]
  | double h => exact absurd rfl (htext doubleQuote List.mem_cons_self).1

theorem Word.no_singleQuote {text : List Char} {value : String} (h : Word text value)
    (htext : IsSingleQuoted text) : singleQuote ∉ value.toList := by
  induction h with
  | part h => exact h.no_singleQuote htext
  | more _ hpart ih =>
      obtain ⟨hfront, hback⟩ := IsSingleQuoted.append_iff.mp htext
      rw [String.toList_append, List.mem_append, not_or]
      exact ⟨ih hfront, hpart.no_singleQuote hback⟩

theorem WordRow.no_singleQuote {text : List Char} {values : List String} (h : WordRow text values)
    (htext : IsSingleQuoted text) : ∀ value ∈ values, singleQuote ∉ value.toList := by
  induction h with
  | word h => exact List.forall_mem_singleton.mpr (h.no_singleQuote htext)
  | more _ _ _ hword ih =>
      rw [IsSingleQuoted.append_iff, IsSingleQuoted.append_iff] at htext
      obtain ⟨⟨hfront, -⟩, hback⟩ := htext
      exact List.forall_mem_append.mpr
        ⟨ih hfront, List.forall_mem_singleton.mpr (hword.no_singleQuote hback)⟩

/-- Single quotes are gone from the words of a text in which nothing protects them. -/
theorem Derives.no_singleQuote {text : List Char} {values : List String} (h : Derives text values)
    (htext : IsSingleQuoted text) : ∀ value ∈ values, singleQuote ∉ value.toList := by
  cases h with
  | blanks => simp
  | row _ hrow _ =>
      rw [IsSingleQuoted.append_iff, IsSingleQuoted.append_iff] at htext
      exact hrow.no_singleQuote htext.1.2

/-- A text that stands for itself as one word has no character that the shell minds. -/
theorem isOrdinary_of_readWords {word : String} (hword : IsSingleQuoted word.toList)
    (h : readWords word.toList = .ok [word]) : ∀ c ∈ word.toList, IsOrdinary c := by
  have hderives : Derives word.toList [word] := readWords_eq_iff.mp h
  have hsingle : singleQuote ∉ word.toList :=
    hderives.no_singleQuote hword word List.mem_cons_self
  have hordinary : ∀ c ∈ word.toList, isBlank c = false → IsOrdinary c := by
    intro c hc hblank
    exact ⟨hblank, fun e => hsingle (e ▸ hc), hword c hc⟩
  rw [readWords_eq_bareWords hordinary] at h
  have hmem : word ∈ (bareWords word.toList).map String.ofList := by
    rw [Except.ok.inj h]
    exact List.mem_cons_self
  obtain ⟨text, htext, hsame⟩ := List.mem_map.mp hmem
  intro c hc
  apply hordinary c hc
  rw [← hsame, String.toList_ofList] at hc
  exact (of_mem_bareWords htext).2 c hc

theorem readWords_of_isOrdinary {word : String} (hne : word ≠ "")
    (h : ∀ c ∈ word.toList, IsOrdinary c) : readWords word.toList = .ok [word] := by
  have hchars : word.toList ≠ [] := by simpa using hne
  rw [readWords_eq_bareWords fun c hc _ => h c hc, bareWords_unbroken hchars fun c hc => (h c hc).1]
  simp

end CompileCommands.Shell

namespace CompileCommands.Command

open Shell

/-! ## Arguments between double quotes -/

def IsProtected (arg : String) : Prop :=
  arg = "" ∨ ' ' ∈ arg.toList ∨ doubleQuote ∈ arg.toList ∨ backslash ∈ arg.toList

theorem isProtected_iff {arg : String} :
    IsProtected arg ↔ (arg = "" || arg.toList.any needsQuotes) = true := by
  simp only [IsProtected, needsQuotes, Bool.or_eq_true, decide_eq_true_eq, List.any_eq_true]
  constructor
  · rintro (hempty | hspace | hquote | hbackslash)
    · exact Or.inl hempty
    · exact Or.inr ⟨_, hspace, Or.inl (Or.inl rfl)⟩
    · exact Or.inr ⟨_, hquote, Or.inl (Or.inr rfl)⟩
    · exact Or.inr ⟨_, hbackslash, Or.inr rfl⟩
  · rintro (hempty | ⟨c, hc, (rfl | rfl) | rfl⟩)
    · exact Or.inl hempty
    · exact Or.inr (Or.inl hc)
    · exact Or.inr (Or.inr (Or.inl hc))
    · exact Or.inr (Or.inr (Or.inr hc))

theorem toList_quote_of_isProtected {arg : String} (h : IsProtected arg) :
    (quote arg).toList = doubleQuote :: arg.toList.flatMap quoteChar ++ [doubleQuote] := by
  rw [quote, if_pos (isProtected_iff.mp h), String.toList_ofList]

theorem quote_of_not_isProtected {arg : String} (h : ¬ IsProtected arg) : quote arg = arg := by
  rw [quote, if_neg fun hquotes => h (isProtected_iff.mpr hquotes)]

/-- The shell takes back what is escaped between double quotes. -/
theorem quotedItem_quoteChar (c : Char) : QuotedItem (quoteChar c) [c] := by
  unfold quoteChar
  split
  · rename_i h
    have hescapable : isEscapable c = true := by
      simp only [Bool.or_eq_true, decide_eq_true_eq] at h
      rcases h with rfl | rfl <;> rfl
    exact .escaped hescapable
  · rename_i h
    have hplain : c ≠ doubleQuote ∧ c ≠ backslash := by simpa using h
    exact .plain hplain.1 hplain.2

theorem quotedRun_quoteChars (cs : List Char) : QuotedRun (cs.flatMap quoteChar) cs := by
  induction cs using List.reverseRecOn with
  | nil => exact .nil
  | append_singleton cs c ih =>
      rw [List.flatMap_append, List.flatMap_singleton]
      exact .snoc ih (quotedItem_quoteChar c)

theorem word_of_isProtected {arg : String} (h : IsProtected arg) : Word (quote arg).toList arg := by
  have hpart := Part.double (quotedRun_quoteChars arg.toList)
  rw [String.ofList_toList] at hpart
  rw [toList_quote_of_isProtected h]
  exact .part hpart

/-! ## One argument -/

/-- An argument that goes between double quotes, or needs none: it has no single quote, and no blank
of the shell. -/
def ReadsBack (arg : String) : Prop :=
  IsProtected arg ∨ ∀ c ∈ [singleQuote, '\t', '\n', '\r'], c ∉ arg.toList

/-- Outside double quotes the four characters are all that the shell could mind. -/
theorem isOrdinary_iff_of_not_isProtected {arg : String} (h : ¬ IsProtected arg) :
    (∀ c ∈ arg.toList, IsOrdinary c) ↔
      ∀ c ∈ [singleQuote, '\t', '\n', '\r'], c ∉ arg.toList := by
  constructor
  · intro hordinary c hc hmem
    have hcases : c = singleQuote ∨ c = '\t' ∨ c = '\n' ∨ c = '\r' := by simpa using hc
    obtain ⟨hblank, hsingle, -⟩ := hordinary c hmem
    obtain ⟨-, htab, hfeed, hreturn⟩ := isBlank_eq_false_iff.mp hblank
    rcases hcases with rfl | rfl | rfl | rfl
    · exact hsingle rfl
    · exact htab rfl
    · exact hfeed rfl
    · exact hreturn rfl
  · intro hnone c hc
    simp only [IsProtected, not_or] at h
    obtain ⟨-, hspace, hdouble, hbackslash⟩ := h
    have hother : ∀ d ∈ [singleQuote, '\t', '\n', '\r'], c ≠ d := fun d hd e => hnone d hd (e ▸ hc)
    refine ⟨isBlank_eq_false_iff.mpr ⟨?_, ?_, ?_, ?_⟩, ?_, ?_, ?_⟩
    · exact fun e => hspace (e ▸ hc)
    · exact hother '\t' (by decide)
    · exact hother '\n' (by decide)
    · exact hother '\r' (by decide)
    · exact hother singleQuote (by decide)
    · exact fun e => hdouble (e ▸ hc)
    · exact fun e => hbackslash (e ▸ hc)

theorem readWords_quote_iff {arg : String} :
    readWords (quote arg).toList = .ok [arg] ↔ ReadsBack arg := by
  by_cases h : IsProtected arg
  · constructor
    · exact fun _ => Or.inl h
    · exact fun _ => readWords_word (word_of_isProtected h)
  · have hmarks : IsSingleQuoted arg.toList := by
      simp only [IsProtected, not_or] at h
      exact fun c hc => ⟨fun e => h.2.2.1 (e ▸ hc), fun e => h.2.2.2 (e ▸ hc)⟩
    have hne : arg ≠ "" := fun e => h (Or.inl e)
    rw [quote_of_not_isProtected h, ReadsBack, or_iff_right h,
      ← isOrdinary_iff_of_not_isProtected h]
    exact ⟨isOrdinary_of_readWords hmarks, readWords_of_isOrdinary hne⟩

/-! ## The whole field -/

theorem words_join {args : List String} (h : ∀ arg ∈ args, ReadsBack arg) :
    words (join args) = .ok args := by
  rw [words_eq_ok_iff, toList_join]
  exact readWords_intercalate fun arg harg => readWords_quote_iff.mpr (h arg harg)

/-- **When the shell reads a command field back.** An argument comes back from its written form
exactly if it is empty, or has a space, a double quote or a backslash in it, or else has no single
quote and no other blank of the shell. Any row of such arguments comes back from its field. -/
theorem shell_reads_field_back :
    (∀ arg, words (quote arg) = .ok [arg] ↔ ReadsBack arg) ∧
      ∀ args, (∀ arg ∈ args, ReadsBack arg) → words (join args) = .ok args := by
  constructor
  · intro arg
    exact words_eq_ok_iff.trans readWords_quote_iff
  · intro args h
    exact words_join h

/-- A single quote comes back where a space makes it go between double quotes, and a space of
Unicode comes back bare. -/
theorem shell_reads_mixed_field_back :
    (∀ arg ∈ ["it's one", "", "a\u00a0b", "\\\"\n"], ReadsBack arg) ∧
      words "\"it's one\" \"\" a\u00a0b \"\\\\\\\"\n\"" = .ok ["it's one", "", "a\u00a0b", "\\\"\n"] := by
  have h : ∀ arg ∈ ["it's one", "", "a\u00a0b", "\\\"\n"], ReadsBack arg := by
    simp [ReadsBack, IsProtected, singleQuote, doubleQuote, backslash]
  exact ⟨h, shell_reads_field_back.2 _ h⟩

/-- Alone, a single quote is taken for an opening one. -/
example : quote "it's" = "it's" ∧ words "it's" = .error ⟨.openQuote, "it's"⟩ := by decide +kernel

end CompileCommands.Command
