import CompileCommands.Command.Compile
import CompileCommands.Proofs.Command.Operands

/-!
# What a compile command comes to

A compile command fails at the first include path that neither exists nor has a known header. Where
all have one, it fails if no `-c` takes an operand, and otherwise gives the tokens with the include
paths replaced, at the positions that the reading found (`compile_eq`). The table and the file
system matter through the include paths alone, so a command without `-include` is passed on as it
is (`compile_without_include`).
-/

namespace CompileCommands.Command

/-! ## Include paths replaced -/

def Argument.replace (header : String → Option String) : Argument → Argument
  | plain token => plain token
  | flagged flag operand =>
      flagged flag (if flag = "-include" then (header operand).getD operand else operand)

/-- The first of some paths that has no header. -/
def headless? (header : String → Option String) (paths : List String) : Option String :=
  paths.find? fun path => (header path).isNone

theorem headless?_append (header : String → Option String) (front back : List String) :
    headless? header (front ++ back) = (headless? header front).or (headless? header back) :=
  List.find?_append

theorem headless?_eq_none_iff {header : String → Option String} {paths : List String} :
    headless? header paths = none ↔ ∀ path ∈ paths, (header path).isSome = true := by
  simp [headless?, Option.isSome_iff_ne_none]

theorem lookedAt_of_headless? {header : String → Option String} {paths : List String}
    (h : headless? header paths = none) : lookedAt header paths = paths := by
  rw [headless?_eq_none_iff] at h
  induction paths with
  | nil => rfl
  | cons path paths ih =>
      rw [lookedAt, if_pos (h path List.mem_cons_self),
        ih fun p hp => h p (List.mem_cons_of_mem _ hp)]

theorem resolveArgument_eq (header : String → Option String) (a : Argument) :
    resolveArgument header a =
      match headless? header (a.operand? "-include").toList with
      | some path => .error path
      | none => .ok (a.replace header) := by
  cases a with
  | plain token => rfl
  | flagged flag operand =>
      by_cases hflag : flag = "-include"
      · cases hpath : header operand <;>
          simp [resolveArgument, Argument.operand?, headless?, Argument.replace, hflag, hpath]
      · simp [resolveArgument, Argument.operand?, headless?, Argument.replace, hflag]

/-- Resolving fails at the first include path without a header, or replaces them all. -/
theorem mapM_resolveArgument (header : String → Option String) (as : List Argument) :
    as.mapM (resolveArgument header) =
      match headless? header (operands "-include" as) with
      | some path => .error path
      | none => .ok (as.map (Argument.replace header)) := by
  induction as with
  | nil => rfl
  | cons a as ih =>
      rw [List.mapM_cons, ih, operands_cons, resolveArgument_eq, headless?_append]
      cases headless? header (a.operand? "-include").toList with
      | some path => rfl
      | none => cases headless? header (operands "-include" as) <;> rfl

/-- The tokens of a compile command, its include paths replaced where they have headers. -/
def withHeaders (header : String → Option String) (args : List String) : List String :=
  args.mapIdx fun i token =>
    if (operandAt? "-include" compileFlags args i).isSome then (header token).getD token
    else token

theorem length_withHeaders (header : String → Option String) (args : List String) :
    (withHeaders header args).length = args.length := List.length_mapIdx

theorem getElem?_withHeaders {header : String → Option String} {args : List String} {i : Nat}
    (h : operandAt? "-include" compileFlags args i = none) :
    (withHeaders header args)[i]? = args[i]? := by
  rw [withHeaders, List.getElem?_mapIdx, h]
  simp

theorem replace_read (header : String → Option String) (args : List String) :
    ((Argument.read compileFlags args).map (Argument.replace header)).flatMap Argument.tokens =
      withHeaders header args := by
  induction args using Argument.read.induct compileFlags with
  | case1 => rfl
  | case2 token => rfl
  | case3 token next rest h ih =>
      rw [Argument.read, if_pos h, List.map_cons, List.flatMap_cons, ih]
      simp only [withHeaders, List.mapIdx_cons, operandAt?_behind_pair h]
      by_cases hflag : token = "-include" <;>
        simp [Argument.replace, Argument.tokens, operandAt?, isOperand, hflag]
  | case4 token next rest h ih =>
      rw [Argument.read, if_neg h, List.map_cons, List.flatMap_cons, ih]
      have hinclude : "-include" ∈ compileFlags := by decide
      simp only [withHeaders, List.mapIdx_cons, operandAt?_behind_plain hinclude h]
      rfl

/-! ## The whole command -/

theorem compile_eq {fileExists : String → Bool} {table : HeaderTable} {line : String}
    {args : List String} (h : tokens line = .ok args) (directory : String) :
    (compile fileExists table line directory).result =
      match headless? (header? fileExists table)
          (operands "-include" (Argument.read compileFlags args)) with
      | some path => .error (.unresolvedHeader path line)
      | none =>
          match (operands "-c" (Argument.read compileFlags args)).getLast? with
          | none => .error (.missingSource line)
          | some source => .ok
              { directory
                command := join (withHeaders (header? fileExists table) args)
                file := Path.normalize source } := by
  rw [compile, h]
  simp only [compileTokens, mapM_resolveArgument]
  cases headless? (header? fileExists table)
      (operands "-include" (Argument.read compileFlags args)) with
  | some path => rfl
  | none =>
      cases (operands "-c" (Argument.read compileFlags args)).getLast? with
      | none => rfl
      | some source => simp only [replace_read]

theorem operandAt?_of_not_mem {flag : String} {flags args : List String} (h : flag ∉ args) :
    ∀ i, operandAt? flag flags args i = none
  | 0 => rfl
  | i + 1 => by
      have hi : args[i]? ≠ some flag := fun hi => h (List.mem_of_getElem? hi)
      simp [operandAt?, hi]

theorem operands_of_not_mem {flag : String} {flags args : List String} (hflag : flag ∈ flags)
    (h : flag ∉ args) : operands flag (Argument.read flags args) = [] := by
  rw [operands_read hflag, List.filterMap_eq_nil_iff]
  exact fun i _ => operandAt?_of_not_mem h i

theorem withHeaders_of_not_mem (header : String → Option String) {args : List String}
    (h : "-include" ∉ args) : withHeaders header args = args := by
  apply List.ext_getElem
  · simp [withHeaders]
  · simp [withHeaders, operandAt?_of_not_mem h]

theorem compile_without_include (fileExists : String → Bool) (table : HeaderTable) {line : String}
    {args : List String} (h : tokens line = .ok args) (hinclude : "-include" ∉ args)
    {i : Nat} (hi : IsLastFlag "-c" compileFlags args i) {source : String}
    (hsource : args[i + 1]? = some source) (directory : String) :
    compile fileExists table line directory =
      ⟨[], .ok ⟨directory, join args, Path.normalize source⟩⟩ := by
  have hnone : operands "-include" (Argument.read compileFlags args) = [] :=
    operands_of_not_mem (by decide) hinclude
  have hlast : (operands "-c" (Argument.read compileFlags args)).getLast? = some source :=
    (getLast?_operands_iff (by decide)).mpr ⟨i, hi, hsource⟩
  have hasked : (compile fileExists table line directory).asked = [] := by
    rw [compile, h]
    simp only [compileTokens, hnone, lookedAt]
  have hresult : (compile fileExists table line directory).result =
      .ok ⟨directory, join args, Path.normalize source⟩ := by
    rw [compile_eq h, hnone, hlast, withHeaders_of_not_mem _ hinclude]
    rfl
  rw [← hasked, ← hresult]

/-! ## Commands without a source -/

/-- The token at a position stands behind an `-include` that takes it. -/
def BehindInclude (args : List String) (j : Nat) : Prop :=
  ∃ i, i + 1 = j ∧ TakesOperand "-include" compileFlags args i

/-- No `-c` takes an operand exactly if each that could take one is itself taken, and then by an
`-include`: the flag before a `-c` that is taken would else be a `-c` that takes one. -/
theorem no_source_iff {args : List String} :
    (∀ i, ¬ TakesOperand "-c" compileFlags args i) ↔
      ∀ j, args[j]? = some "-c" → j + 1 < args.length → BehindInclude args j := by
  constructor
  · intro hnone j hj hlt
    have htaken : isOperand compileFlags args j = true := by
      by_contra hfree
      exact hnone j ⟨hj, by simpa using hfree, hlt⟩
    cases j with
    | zero => simp [isOperand] at htaken
    | succ i =>
        obtain ⟨flag, hmem, hflag, hfree⟩ := isOperand_succ_iff.mp htaken
        have htakes : TakesOperand flag compileFlags args i := ⟨hflag, hfree, by omega⟩
        have hcases : flag = "-include" ∨ flag = "-c" := by simpa [compileFlags] using hmem
        rcases hcases with rfl | rfl
        · exact ⟨i, rfl, htakes⟩
        · exact absurd htakes (hnone i)
  · rintro h j ⟨hj, hfree, hlt⟩
    obtain ⟨i, rfl, hinclude, hflag, -⟩ := h j hj hlt
    have htaken : isOperand compileFlags args (i + 1) = true :=
      isOperand_succ_iff.mpr ⟨"-include", by decide, hinclude, hflag⟩
    rw [hfree] at htaken
    cases htaken

/-! ## Entries and failures -/

theorem result_eq_ok_iff {fileExists : String → Bool} {table : HeaderTable} {line : String}
    {args : List String} (hargs : tokens line = .ok args) {directory : String} {entry : Entry} :
    (compile fileExists table line directory).result = .ok entry ↔
      headless? (header? fileExists table)
          (operands "-include" (Argument.read compileFlags args)) = none ∧
        ∃ source, (operands "-c" (Argument.read compileFlags args)).getLast? = some source ∧
          entry = ⟨directory, join (withHeaders (header? fileExists table) args),
            Path.normalize source⟩ := by
  rw [compile_eq hargs]
  cases headless? (header? fileExists table)
      (operands "-include" (Argument.read compileFlags args)) with
  | some path => simp
  | none =>
      cases (operands "-c" (Argument.read compileFlags args)).getLast? with
      | none => simp
      | some source => simp [eq_comm]

/-- A command that gives an entry has asked about all its include paths. -/
theorem asked_of_result {fileExists : String → Bool} {table : HeaderTable} {line : String}
    {args : List String} (hargs : tokens line = .ok args) {directory : String} {entry : Entry}
    (h : (compile fileExists table line directory).result = .ok entry) :
    (compile fileExists table line directory).asked =
      operands "-include" (Argument.read compileFlags args) := by
  have hall := ((result_eq_ok_iff hargs).mp h).1
  rw [compile, hargs]
  exact lookedAt_of_headless? hall

theorem result_eq_error_iff {fileExists : String → Bool} {table : HeaderTable} {line : String}
    {args : List String} (hargs : tokens line = .ok args) {directory : String} {failure : Failure} :
    (compile fileExists table line directory).result = .error failure ↔
      (∃ path, headless? (header? fileExists table)
          (operands "-include" (Argument.read compileFlags args)) = some path ∧
        failure = .unresolvedHeader path line) ∨
      headless? (header? fileExists table)
          (operands "-include" (Argument.read compileFlags args)) = none ∧
        (∀ i, ¬ TakesOperand "-c" compileFlags args i) ∧ failure = .missingSource line := by
  rw [compile_eq hargs, ← getLast?_operands_eq_none_iff (by decide)]
  cases headless? (header? fileExists table)
      (operands "-include" (Argument.read compileFlags args)) with
  | some path => simp [eq_comm]
  | none =>
      cases (operands "-c" (Argument.read compileFlags args)).getLast? with
      | none => simp [eq_comm]
      | some source => simp

end CompileCommands.Command
