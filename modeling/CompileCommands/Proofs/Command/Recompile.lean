import CompileCommands.Proofs.Command.FieldWords
import CompileCommands.Proofs.Command.Transcription

/-!
# Compiling an emitted command again

The command field of an entry is a command line itself. Read as a compile command where every path
exists, it gives the entry it stands in (`emitted_command_is_fixed`), unless a token in it is one
that the field does not keep: bare, and with a single quote, a blank of the shell, or white space at
an end.

All other tokens come back, whether the tokenizer reads the field as the shell does or cuts it at
spaces (`tokens_join`). Then a header in the place of an include path is taken by the same
`-include` as the path was, though it may look like a flag, so the reading of the tokens is the
reading of the line with the operands replaced (`read_withHeaders`). It has the same sources.
-/

namespace CompileCommands.Command

open Shell

/-! ## Tokens that come back from their field -/

/-- A token that the tokenizer gives back from a field: it goes between double quotes, or the shell
reads it back bare and trimming leaves it alone. -/
def IsSteady (token : String) : Prop :=
  IsProtected token ∨
    (∀ c ∈ [singleQuote, '\t', '\n', '\r'], c ∉ token.toList) ∧
      Text.trim token.toList = token.toList

theorem IsSteady.readsBack {token : String} (h : IsSteady token) : ReadsBack token :=
  h.imp_right And.left

/-- A field without double quotes has no token between double quotes. -/
theorem not_isProtected_of_field {out : List String} (h : doubleQuote ∉ (join out).toList) :
    ∀ token ∈ out, ¬ IsProtected token := by
  intro token htoken hprotected
  have hquote : doubleQuote ∈ (quote token).toList := by
    rw [toList_quote_of_isProtected hprotected]
    exact List.mem_cons_self
  apply h
  rw [toList_join]
  exact Text.subset_row (List.mem_map_of_mem htoken) hquote

theorem tokens_join {out : List String} (hne : out ≠ []) (h : ∀ token ∈ out, IsSteady token) :
    tokens (join out) = .ok out := by
  unfold tokens
  split
  · exact words_join fun token htoken => (h token htoken).readsBack
  · rename_i hmarks
    have hbare : ∀ token ∈ out, ¬ IsProtected token := by
      apply not_isProtected_of_field
      intro hquote
      exact hmarks (List.any_eq_true.mpr ⟨doubleQuote, hquote, by decide⟩)
    have hpieces : ∀ token ∈ out, Text.IsPiece token.toList := by
      intro token htoken
      have htrim := ((h token htoken).resolve_left (hbare token htoken)).2
      have hplain := hbare token htoken
      simp only [IsProtected, not_or] at hplain
      exact ⟨by simpa using hplain.1, hplain.2.1, htrim⟩
    have hquotes : out.map (fun token => (quote token).toList) = out.map String.toList :=
      List.map_congr_left fun token htoken => by rw [quote_of_not_isProtected (hbare token htoken)]
    have hrow : (join out).toList = [] ++ [' '].intercalate (out.map String.toList) := by
      rw [toList_join, hquotes, List.nil_append]
    rw [pieces_row hrow (by simp) hne hpieces]

/-! ## Headers in the place of include paths -/

theorem Argument.read_cons_of_not_mem {flags : List String} {token : String} (h : token ∉ flags)
    (rest : List String) :
    Argument.read flags (token :: rest) = .plain token :: Argument.read flags rest := by
  cases rest with
  | nil => rfl
  | cons next rest => rw [Argument.read, if_neg h]

/-- A header is the operand of the `-include` that the path was the operand of. -/
theorem read_withHeaders (header : String → Option String) (args : List String) :
    Argument.read compileFlags (withHeaders header args) =
      (Argument.read compileFlags args).map (Argument.replace header) := by
  rw [← replace_read]
  induction args using Argument.read.induct compileFlags with
  | case1 => rfl
  | case2 token => rfl
  | case3 token next rest h ih =>
      rw [Argument.read, if_pos h, List.map_cons, List.flatMap_cons]
      simp only [Argument.replace, Argument.tokens, List.cons_append, List.nil_append]
      rw [Argument.read, if_pos h, ih]
  | case4 token next rest h ih =>
      rw [Argument.read, if_neg h, List.map_cons, List.flatMap_cons]
      simp only [Argument.replace, Argument.tokens, List.cons_append, List.nil_append]
      rw [Argument.read_cons_of_not_mem h, ih]

theorem operands_replace (header : String → Option String) {flag : String}
    (hflag : flag ≠ "-include") (as : List Argument) :
    operands flag (as.map (Argument.replace header)) = operands flag as := by
  have hoperand : ∀ a : Argument, (a.replace header).operand? flag = a.operand? flag := by
    intro a
    cases a with
    | plain token => rfl
    | flagged f operand =>
        by_cases hf : f = flag
        · subst hf
          simp [Argument.replace, Argument.operand?, hflag]
        · simp [Argument.replace, Argument.operand?, hf]
  unfold operands
  rw [List.filterMap_map]
  exact List.filterMap_congr fun a _ => hoperand a

theorem withHeaders_some (args : List String) : withHeaders some args = args := by
  apply List.ext_getElem
  · exact length_withHeaders some args
  · simp [withHeaders]

theorem withHeaders_ne_nil (header : String → Option String) {args : List String}
    (h : args ≠ []) : withHeaders header args ≠ [] := by
  rw [ne_eq, ← List.length_eq_zero_iff, length_withHeaders, List.length_eq_zero_iff]
  exact h

/-- Where every path exists, a compile command with a source is passed on as it is. -/
theorem result_of_all_exist {line : String} {args : List String} (hargs : tokens line = .ok args)
    {source : String}
    (hsource : (operands "-c" (Argument.read compileFlags args)).getLast? = some source)
    (table : HeaderTable) (directory : String) :
    (compile (fun _ => true) table line directory).result =
      .ok ⟨directory, join args, Path.normalize source⟩ := by
  have hheader : header? (fun _ => true) table = some := rfl
  rw [result_eq_ok_iff hargs, hheader, withHeaders_some]
  refine ⟨headless?_eq_none_iff.mpr fun path _ => rfl, source, hsource, rfl⟩

/-- **An emitted command is a fixed point.** The entry of a compile command whose tokens all come
back from the field is the entry of its own command in the same directory, whatever the table knows,
where every path exists. -/
theorem emitted_command_is_fixed {fileExists : String → Bool} {table : HeaderTable}
    {line directory : String} {entry : Entry} {out : List String}
    (h : (compile fileExists table line directory).result = .ok entry)
    (hout : entry.command = join out) (hsteady : ∀ token ∈ out, IsSteady token)
    (table' : HeaderTable) :
    (compile (fun _ => true) table' entry.command directory).result = .ok entry := by
  obtain ⟨args, hargs⟩ := tokens_of_compile h
  -- no two rows of tokens have one field
  obtain rfl : withHeaders (header? fileExists table) args = out :=
    join_injective ((command_of_compile hargs h).symm.trans hout)
  obtain ⟨-, source, hsource, rfl⟩ := (result_eq_ok_iff hargs).mp h
  have hne : withHeaders (header? fileExists table) args ≠ [] := by
    apply withHeaders_ne_nil
    rintro rfl
    cases hsource
  apply result_of_all_exist (tokens_join hne hsteady)
  rw [read_withHeaders, operands_replace _ (by decide)]
  exact hsource

/-- The header looks like a flag, and the line has quotes that its command has no more. -/
theorem fixed_behind_header_like_flag :
    let table := HeaderTable.empty.insert ⟨"gone.h.pch", "-c"⟩
    let line := "cc -c './a.c' -include gone.h"
    let entry : Entry := ⟨"/w", "cc -c ./a.c -include -c", "a.c"⟩
    let out := ["cc", "-c", "./a.c", "-include", "-c"]
    (compile (fun _ => false) table line "/w").result = .ok entry ∧
      entry.command = join out ∧ (∀ token ∈ out, IsSteady token) ∧
      (compile (fun _ => true) .empty entry.command "/w").result = .ok entry := by
  intro table line entry out
  have hresult : (compile (fun _ => false) table line "/w").result = .ok entry := by
    decide +kernel
  have hout : entry.command = join out := by decide +kernel
  have hsteady : ∀ token ∈ out, IsSteady token := by
    simp [out, IsSteady, singleQuote, Text.trim, Text.isSpace]
  exact ⟨hresult, hout, hsteady, emitted_command_is_fixed hresult hout hsteady .empty⟩

/-- A bare single quote opens a quotation where the command is read again. -/
example :
    let command := "cc it's -c a.c"
    (compile (fun _ => true) .empty "cc \"it's\" -c a.c" "/w").result =
        .ok ⟨"/w", command, "a.c"⟩ ∧
      (compile (fun _ => true) .empty command "/w").result =
        .error (.malformedCommand ⟨.openQuote, command⟩) := by
  decide +kernel

end CompileCommands.Command
