import CompileCommands.Proofs.Command.Field
import CompileCommands.Scan
import Mathlib.Order.Bounds.Basic

/-!
# A compile command token by token

What a compile command comes to is told here from the positions of its tokens, without the walk that
reads them. An entry's command has a token for each token of the line: the same one, unless an
`-include` takes it and the path does not exist (`entry_token_by_token`). A command fails at the
first include path that leads nowhere, whatever else is wrong with it, and asks about no path behind
that one (`command_fails_iff`).
-/

namespace CompileCommands.Command

def includePath? (args : List String) : Nat → Option String := takenBy? "-include" compileFlags args

/-- The position holds a `-c` that is a flag and takes the token behind it. -/
def TakesSource (args : List String) (i : Nat) : Prop :=
  args[i]? = some "-c" ∧ ¬ IsTaken compileFlags args i ∧ i + 1 < args.length

/-- The path neither exists nor has a known header. -/
def LeadsNowhere (fileExists : String → Bool) (table : HeaderTable) (path : String) : Prop :=
  fileExists path = false ∧ table.resolve? path = none

/-- The first include path that leads nowhere, with its position. -/
def FirstNowhere (fileExists : String → Bool) (table : HeaderTable) (args : List String) (i : Nat)
    (path : String) : Prop :=
  includePath? args i = some path ∧ LeadsNowhere fileExists table path ∧
    ∀ j < i, ∀ earlier, includePath? args j = some earlier → ¬ LeadsNowhere fileExists table earlier

variable {fileExists : String → Bool} {table : HeaderTable} {args : List String} {i : Nat}
  {path : String}

/-! ## Include paths by position -/

theorem header?_eq_none_iff : header? fileExists table path = none ↔
    LeadsNowhere fileExists table path := by
  unfold header? LeadsNowhere
  by_cases hexists : fileExists path = true
  · simp [hexists]
  · simp [hexists]

theorem getElem?_of_includePath? (h : includePath? args i = some path) : args[i]? = some path := by
  unfold includePath? takenBy? at h
  split at h
  · exact h
  · cases h

theorem includePaths_eq (args : List String) :
    operands "-include" (Argument.read compileFlags args) =
      (List.range args.length).filterMap (includePath? args) := by
  rw [operands_read (by decide), operandAt?_eq_takenBy? (by decide)]
  rfl

theorem mem_includePaths_iff :
    path ∈ operands "-include" (Argument.read compileFlags args) ↔
      ∃ i, includePath? args i = some path := by
  rw [includePaths_eq, List.mem_filterMap]
  constructor
  · rintro ⟨i, -, hi⟩
    exact ⟨i, hi⟩
  · rintro ⟨i, hi⟩
    have hlt : i < args.length := (List.getElem?_eq_some_iff.mp (getElem?_of_includePath? hi)).1
    exact ⟨i, List.mem_range.mpr hlt, hi⟩

/-- All include paths have headers exactly if none leads nowhere. -/
theorem headless?_includePaths_eq_none_iff :
    headless? (header? fileExists table) (operands "-include" (Argument.read compileFlags args)) =
        none ↔
      ∀ i path, includePath? args i = some path → ¬ LeadsNowhere fileExists table path := by
  rw [headless?_eq_none_iff]
  constructor
  · intro h i path hi hnowhere
    have hsome := h path (mem_includePaths_iff.mpr ⟨i, hi⟩)
    rw [header?_eq_none_iff.mpr hnowhere] at hsome
    cases hsome
  · intro h path hpath
    obtain ⟨i, hi⟩ := mem_includePaths_iff.mp hpath
    rw [Option.isSome_iff_ne_none]
    intro hnone
    exact h i path hi (header?_eq_none_iff.mp hnone)

/-! ## The first path that leads nowhere -/

/-- The first value of a kind among positions stands at a position before which there is no other. -/
theorem find?_filterMap_range_iff {f : Nat → Option String} {p : String → Bool} {n : Nat}
    {value : String} :
    ((List.range n).filterMap f).find? p = some value ↔
      ∃ i < n, f i = some value ∧ p value = true ∧
        ∀ j < i, ∀ earlier, f j = some earlier → p earlier = false := by
  rw [List.find?_filterMap]
  constructor
  · intro h
    obtain ⟨i, hi, hvalue⟩ := Option.bind_eq_some_iff.mp h
    obtain ⟨hp, hmem, hbefore⟩ := List.find?_range_eq_some.mp hi
    refine ⟨i, List.mem_range.mp hmem, hvalue, by simpa [hvalue] using hp, ?_⟩
    intro j hj earlier hearlier
    simpa [hearlier] using hbefore j hj
  · rintro ⟨i, hi, hvalue, hp, hbefore⟩
    refine Option.bind_eq_some_iff.mpr ⟨i, List.find?_range_eq_some.mpr ⟨?_, ?_, ?_⟩, hvalue⟩
    · simp [hvalue, hp]
    · exact List.mem_range.mpr hi
    · intro j hj
      cases hj' : f j with
      | none => rfl
      | some earlier => simp [hbefore j hj earlier hj']

theorem headless?_eq_some_iff :
    headless? (header? fileExists table) (operands "-include" (Argument.read compileFlags args)) =
        some path ↔
      ∃ i, FirstNowhere fileExists table args i path := by
  rw [includePaths_eq, headless?, find?_filterMap_range_iff]
  simp only [Option.isNone_iff_eq_none, header?_eq_none_iff, Bool.eq_false_iff, ne_eq]
  constructor
  · rintro ⟨i, -, hfirst⟩
    exact ⟨i, hfirst⟩
  · rintro ⟨i, hfirst⟩
    have hi := getElem?_of_includePath? hfirst.1
    exact ⟨i, (List.getElem?_eq_some_iff.mp hi).1, hfirst⟩

theorem lookedAt_append_cons {header : String → Option String} {front : List String}
    (hfront : ∀ p ∈ front, (header p).isSome = true) (hpath : header path = none)
    (back : List String) : lookedAt header (front ++ path :: back) = front ++ [path] := by
  induction front with
  | nil => simp [lookedAt, hpath]
  | cons p front ih =>
      rw [List.cons_append, lookedAt, if_pos (hfront p List.mem_cons_self),
        ih fun q hq => hfront q (List.mem_cons_of_mem _ hq)]
      rfl

theorem lookedAt_of_firstNowhere (h : FirstNowhere fileExists table args i path) :
    lookedAt (header? fileExists table) (operands "-include" (Argument.read compileFlags args)) =
      (List.range (i + 1)).filterMap (includePath? args) := by
  obtain ⟨hi, hnowhere, hbefore⟩ := h
  have hlt : i < args.length := (List.getElem?_eq_some_iff.mp (getElem?_of_includePath? hi)).1
  have hfront : ∀ p ∈ (List.range i).filterMap (includePath? args),
      (header? fileExists table p).isSome = true := by
    intro p hp
    obtain ⟨j, hj, hpath⟩ := List.mem_filterMap.mp hp
    rw [Option.isSome_iff_ne_none]
    intro hnone
    exact hbefore j (List.mem_range.mp hj) p hpath (header?_eq_none_iff.mp hnone)
  obtain ⟨k, hk⟩ : ∃ k, args.length = i + (k + 1) := ⟨args.length - i - 1, by omega⟩
  rw [includePaths_eq, hk, List.range_add, List.filterMap_append, List.range_succ_eq_map,
    List.map_cons, Nat.add_zero, List.filterMap_cons_some hi,
    lookedAt_append_cons hfront (header?_eq_none_iff.mpr hnowhere), List.range_succ,
    List.filterMap_append, List.filterMap_cons_some hi, List.filterMap_nil]

/-! ## Sources by position -/

theorem takesSource_iff : TakesSource args i ↔ TakesOperand "-c" compileFlags args i :=
  takesOperand_iff.symm

theorem isLastFlag_iff_isGreatest :
    IsLastFlag "-c" compileFlags args i ↔ IsGreatest {j | TakesSource args j} i := by
  constructor
  · rintro ⟨htakes, hlater⟩
    refine ⟨takesSource_iff.mpr htakes, ?_⟩
    intro j hj
    by_contra hlt
    exact hlater j (by omega) (takesSource_iff.mp hj)
  · rintro ⟨htakes, hupper⟩
    refine ⟨takesSource_iff.mp htakes, ?_⟩
    intro j hij hj
    have hle : j ≤ i := hupper (takesSource_iff.mpr hj)
    omega

/-! ## The tokens of an entry -/

theorem getElem?_withHeaders_of_path {header : String → Option String} {source : String}
    (h : includePath? args i = some path) (hsource : header path = some source) :
    (withHeaders header args)[i]? = some source := by
  have hoperand : operandAt? "-include" compileFlags args i = some path := by
    rw [operandAt?_eq_takenBy? (by decide)]
    exact h
  rw [withHeaders, List.getElem?_mapIdx, hoperand, getElem?_of_includePath? h]
  simp [hsource]

/-- **A compile command is transcribed token by token.** An entry has a token for each token of its
line. It is the token of the line, unless an `-include` takes that, which is when it ends an odd
number of flags in a row. An include path stays where it exists, and gives way to its header where
it does not. The file is what the last `-c` takes, the directory is passed on, and each include path
is asked about once, in order. -/
theorem entry_token_by_token {fileExists : String → Bool} {table : HeaderTable}
    {line directory : String} {entry : Entry}
    (h : (compile fileExists table line directory).result = .ok entry) :
    ∃ args out : List String, tokens line = .ok args ∧ out.length = args.length ∧
      entry.command = " ".intercalate (out.map quote) ∧
      (∀ i, includePath? args i = none → out[i]? = args[i]?) ∧
      (∀ i path, includePath? args i = some path →
        out[i]? = if fileExists path then some path else table.resolve? path) ∧
      (∃ j source, IsGreatest {j | TakesSource args j} j ∧ args[j + 1]? = some source ∧
        entry.file = Path.normalize source) ∧
      entry.directory = directory ∧
      (compile fileExists table line directory).asked =
        (List.range args.length).filterMap (includePath? args) := by
  obtain ⟨args, hargs⟩ := tokens_of_compile h
  have hasked := asked_of_result hargs h
  obtain ⟨hall, source, hlast, rfl⟩ := (result_eq_ok_iff hargs).mp h
  obtain ⟨j, hj, hsource⟩ := (getLast?_operands_iff (by decide)).mp hlast
  refine ⟨args, withHeaders (header? fileExists table) args, hargs, length_withHeaders _ args, rfl,
    ?_, ?_, ⟨j, source, isLastFlag_iff_isGreatest.mp hj, hsource, rfl⟩, rfl, ?_⟩
  · intro i hi
    apply getElem?_withHeaders
    rw [operandAt?_eq_takenBy? (by decide)]
    exact hi
  · intro i path hi
    -- no include path leads nowhere, so this one has a header
    have hsome := headless?_eq_none_iff.mp hall path (mem_includePaths_iff.mpr ⟨i, hi⟩)
    obtain ⟨header, hheader⟩ := Option.isSome_iff_exists.mp hsome
    rw [getElem?_withHeaders_of_path hi hheader]
    exact hheader.symm
  · rw [hasked, includePaths_eq]

/-- One `-c` is taken as a source and one as an include path, and the last has nothing to take. -/
theorem entry_of_chained_flags :
    let table := HeaderTable.empty.insert ⟨"gone.h.pch", "/src/gone.h"⟩
    let line := "cc -c -c x.c -include gone.h -include -c -c ./y.c -c"
    let entry : Entry :=
      ⟨"/w", "cc -c -c x.c -include /src/gone.h -include -c -c ./y.c -c", "y.c"⟩
    (compile (· = "-c") table line "/w").result = .ok entry ∧
      ∃ out : List String, out.length = 11 ∧ entry.command = " ".intercalate (out.map quote) ∧
        out[5]? = some "/src/gone.h" ∧ out[7]? = some "-c" := by
  intro table line entry
  have hresult : (compile (· = "-c") table line "/w").result = .ok entry := by decide +kernel
  obtain ⟨args, out, hargs, hlength, hcommand, -, hpaths, -⟩ := entry_token_by_token hresult
  have htokens : tokens line = .ok ["cc", "-c", "-c", "x.c", "-include", "gone.h", "-include",
      "-c", "-c", "./y.c", "-c"] := by
    decide +kernel
  obtain rfl := Except.ok.inj (htokens.symm.trans hargs)
  refine ⟨hresult, out, hlength, hcommand, ?_, ?_⟩
  · rw [hpaths 5 "gone.h" (by decide +kernel)]
    decide +kernel
  · rw [hpaths 7 "-c" (by decide +kernel)]
    decide +kernel

/-! ## Commands that fail -/

/-- The invocation of a compile section leaves the table alone, whatever its command comes to. -/
theorem table_takeCompile (q : Questions) (table : HeaderTable) (line directory : String) :
    (Scan.takeCompile q table line directory).1.table = table := by
  cases hresult : (compile q.fileExists table line directory).result with
  | error failure => simp only [Scan.takeCompile, hresult]
  | ok entry => simp only [Scan.takeCompile, hresult]

theorem result_eq_unresolvedHeader_iff {line directory text : String}
    (hargs : tokens line = .ok args) :
    (compile fileExists table line directory).result = .error (.unresolvedHeader path text) ↔
      text = line ∧ ∃ i, FirstNowhere fileExists table args i path := by
  rw [result_eq_error_iff hargs, ← headless?_eq_some_iff]
  constructor
  · rintro (⟨first, hfirst, hfailure⟩ | ⟨-, -, hfailure⟩)
    · cases hfailure
      exact ⟨rfl, hfirst⟩
    · cases hfailure
  · rintro ⟨rfl, hfirst⟩
    exact Or.inl ⟨path, hfirst, rfl⟩

theorem exists_firstNowhere (hi : includePath? args i = some path)
    (hnowhere : LeadsNowhere fileExists table path) :
    ∃ j first, FirstNowhere fileExists table args j first := by
  cases hfirst : headless? (header? fileExists table)
      (operands "-include" (Argument.read compileFlags args)) with
  | none => exact absurd hnowhere (headless?_includePaths_eq_none_iff.mp hfirst i path hi)
  | some first =>
      obtain ⟨j, hj⟩ := headless?_eq_some_iff.mp hfirst
      exact ⟨j, first, hj⟩

/-- **How a compile command fails.** A command that the tokenizer refuses fails for that. Any other
fails at its first include path that leads nowhere, and has asked about the include paths up to that
one. If none leads nowhere, it fails exactly if no `-c` that is a flag has a token behind it. The
table is left alone in every case. -/
theorem command_fails_iff (fileExists : String → Bool) (table : HeaderTable)
    (line directory : String) :
    let compilation := compile fileExists table line directory
    (∀ cause,
        compilation.result = .error (.malformedCommand cause) ↔ tokens line = .error cause) ∧
      (∀ args, tokens line = .ok args →
        ((∃ path text, compilation.result = .error (.unresolvedHeader path text)) ↔
          ∃ i path, includePath? args i = some path ∧ LeadsNowhere fileExists table path) ∧
        (∀ path text, compilation.result = .error (.unresolvedHeader path text) →
          text = line ∧ ∃ i, FirstNowhere fileExists table args i path ∧
            compilation.asked = (List.range (i + 1)).filterMap (includePath? args)) ∧
        ((∀ i path, includePath? args i = some path → ¬ LeadsNowhere fileExists table path) →
          compilation.asked = (List.range args.length).filterMap (includePath? args) ∧
            ∀ failure, compilation.result = .error failure ↔
              failure = .missingSource line ∧ ∀ j, ¬ TakesSource args j)) ∧
      ∀ excludesDirectory excludesFile,
        (Scan.takeCompile ⟨excludesDirectory, excludesFile, fileExists⟩ table line
          directory).1.table = table := by
  intro compilation
  refine ⟨?_, ?_, fun _ _ => table_takeCompile _ table line directory⟩
  · intro cause
    cases hargs : tokens line with
    | error found =>
        have hresult : compilation.result = .error (.malformedCommand found) := by
          simp only [compilation, compile, hargs]
        rw [hresult]
        simp
    | ok args =>
        simp only [compilation, result_eq_error_iff hargs]
        simp
  intro args hargs
  have hasked : compilation.asked = lookedAt (header? fileExists table)
      (operands "-include" (Argument.read compileFlags args)) := by
    simp only [compilation, compile, hargs, compileTokens]
  refine ⟨?_, ?_, ?_⟩
  · constructor
    · rintro ⟨path, text, hresult⟩
      obtain ⟨-, i, hi, hnowhere, -⟩ := (result_eq_unresolvedHeader_iff hargs).mp hresult
      exact ⟨i, path, hi, hnowhere⟩
    · rintro ⟨i, path, hi, hnowhere⟩
      obtain ⟨j, first, hfirst⟩ := exists_firstNowhere hi hnowhere
      exact ⟨first, line, (result_eq_unresolvedHeader_iff hargs).mpr ⟨rfl, j, hfirst⟩⟩
  · intro path text hresult
    obtain ⟨htext, i, hfirst⟩ := (result_eq_unresolvedHeader_iff hargs).mp hresult
    exact ⟨htext, i, hfirst, hasked.trans (lookedAt_of_firstNowhere hfirst)⟩
  · intro hall
    have hnone := headless?_includePaths_eq_none_iff.mpr hall
    refine ⟨?_, ?_⟩
    · rw [hasked, lookedAt_of_headless? hnone, includePaths_eq]
    · intro failure
      simp only [compilation, result_eq_error_iff hargs, hnone, takesSource_iff]
      simp [and_comm]

/-- A path that leads nowhere counts before the want of a source, and no path behind it is looked at. -/
example :
    (compile (fun _ => false) .empty "cc -include -c -include b.h" "/w").asked = ["-c"] ∧
      (compile (fun _ => false) .empty "cc -include -c -include b.h" "/w").result =
        .error (.unresolvedHeader "-c" "cc -include -c -include b.h") := by
  decide +kernel

end CompileCommands.Command
