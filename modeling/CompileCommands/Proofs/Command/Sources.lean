import CompileCommands.Proofs.Command.Compile
import CompileCommands.Proofs.Command.Precompile

/-!
# The source that both readings find

A line is read with one set of flags as a compile command and with another as a precompile command,
so the two soon differ in which tokens they take for operands. They never differ over a flag that
both sets have, as long as none of the other flags stands right before it (`StandsFree`). What may
take such a flag is then only the same flag, and of the ones in a row both readings take every
second (`isOperand_flag_congr`). So both find the same operands of `-c`, and the same source
(`readings_agree_on_source`).
-/

namespace CompileCommands.Command

/-- No other flag of the set stands right before this one. -/
def StandsFree (flag : String) (flags args : List String) : Prop :=
  ∀ i, args[i + 1]? = some flag → ∀ before ∈ flags, args[i]? = some before → before = flag

variable {flag : String} {flags flags' args : List String}

theorem isOperand_of_standsFree (hfree : StandsFree flag flags args) {i : Nat}
    (hi : args[i + 1]? = some flag) (hbefore : args[i]? ≠ some flag) :
    isOperand flags args (i + 1) = false := by
  rw [Bool.eq_false_iff]
  intro htaken
  obtain ⟨before, hmem, hat, -⟩ := isOperand_succ_iff.mp htaken
  apply hbefore
  rw [hat, hfree i hi before hmem hat]

/-- Two readings take the same occurrences of a flag for operands. -/
theorem isOperand_flag_congr (hmem : flag ∈ flags) (hmem' : flag ∈ flags')
    (hfree : StandsFree flag flags args) (hfree' : StandsFree flag flags' args) {i : Nat}
    (hi : args[i]? = some flag) : isOperand flags args i = isOperand flags' args i := by
  induction i with
  | zero => rfl
  | succ i ih =>
      by_cases hbefore : args[i]? = some flag
      · -- the flag before it takes it in both readings or in none
        rw [isOperand, isOperand, hbefore, ih hbefore]
        simp [hmem, hmem']
      · rw [isOperand_of_standsFree hfree hi hbefore, isOperand_of_standsFree hfree' hi hbefore]

theorem operands_congr (hmem : flag ∈ flags) (hmem' : flag ∈ flags')
    (hfree : StandsFree flag flags args) (hfree' : StandsFree flag flags' args) :
    operands flag (Argument.read flags args) = operands flag (Argument.read flags' args) := by
  have hoperand : operandAt? flag flags args = operandAt? flag flags' args := by
    funext i
    cases i with
    | zero => rfl
    | succ i =>
        by_cases hi : args[i]? = some flag
        · rw [operandAt?, operandAt?, isOperand_flag_congr hmem hmem' hfree hfree' hi]
        · rw [operandAt?, operandAt?, if_neg fun h => hi h.1, if_neg fun h => hi h.1]
  rw [operands_read hmem, operands_read hmem', hoperand]

/-! ## Compile and precompile commands -/

/-- No `-c` stands right behind an `-include` or an `-o`. -/
def SourcesApart (args : List String) : Prop :=
  ∀ i, args[i + 1]? = some "-c" → args[i]? ≠ some "-include" ∧ args[i]? ≠ some "-o"

instance (args : List String) : Decidable (SourcesApart args) :=
  decidable_of_iff (∀ i < args.length,
      args[i + 1]? = some "-c" → args[i]? ≠ some "-include" ∧ args[i]? ≠ some "-o") <| by
    constructor
    · intro h i hi
      have hlt : i + 1 < args.length := (List.getElem?_eq_some_iff.mp hi).1
      exact h i (by omega) hi
    · exact fun h i _ => h i

theorem SourcesApart.standsFree_compile (h : SourcesApart args) :
    StandsFree "-c" compileFlags args := by
  intro i hi before hmem hbefore
  rcases (by simpa [compileFlags] using hmem : before = "-include" ∨ before = "-c") with rfl | rfl
  · exact absurd hbefore (h i hi).1
  · rfl

theorem SourcesApart.standsFree_precompile (h : SourcesApart args) :
    StandsFree "-c" precompileFlags args := by
  intro i hi before hmem hbefore
  rcases (by simpa [precompileFlags] using hmem : before = "-c" ∨ before = "-o") with rfl | rfl
  · rfl
  · exact absurd hbefore (h i hi).2

theorem SourcesApart.operands_eq (h : SourcesApart args) :
    operands "-c" (Argument.read compileFlags args) =
      operands "-c" (Argument.read precompileFlags args) :=
  operands_congr (by decide) (by decide) h.standsFree_compile h.standsFree_precompile

theorem source_of_mappingOfTokens? {m : HeaderMapping} (h : mappingOfTokens? args = some m) :
    (operands "-c" (Argument.read precompileFlags args)).getLast? = some m.source :=
  source_eq_some_iff.mpr (mappingOfTokens?_eq_some_iff.mp h).1

/-- **Both readings find the same source.** On a line where no `-c` stands right behind an
`-include` or an `-o`, an entry's file is the reduced path of the source that the line maps, if it
maps any. A line that has no source as a compile command maps nothing. -/
theorem readings_agree_on_source {line : String} {args : List String}
    (hargs : tokens line = .ok args) (hapart : SourcesApart args) (fileExists : String → Bool)
    (table : HeaderTable) (directory : String) :
    (∀ entry m, (compile fileExists table line directory).result = .ok entry →
        mapping? line = .ok (some m) → entry.file = Path.normalize m.source) ∧
      ∀ command,
        (compile fileExists table line directory).result = .error (.missingSource command) →
          mapping? line = .ok none := by
  rw [mapping?_of_tokens hargs]
  constructor
  · intro entry m hentry hmapping
    obtain ⟨-, source, hsource, rfl⟩ := (result_eq_ok_iff hargs).mp hentry
    have hmapped := source_of_mappingOfTokens? (Except.ok.inj hmapping)
    rw [← hapart.operands_eq, hsource] at hmapped
    rw [← Option.some.inj hmapped]
  · intro command hfailure
    rcases (result_eq_error_iff hargs).mp hfailure with ⟨path, -, hpath⟩ | ⟨-, hnone, -⟩
    · cases hpath
    · have hmapped : (operands "-c" (Argument.read precompileFlags args)).getLast? = none := by
        rw [← hapart.operands_eq, getLast?_operands_eq_none_iff (by decide)]
        exact hnone
      rw [mappingOfTokens?_eq_none_iff.mpr (Or.inl (source_eq_none_iff.mp hmapped))]

/-- Of three `-c` in a row the second is taken by the first. Behind them an `-include` is a flag in
one reading and the operand of an `-o` in the other. -/
theorem source_behind_drifting_flags :
    let line := "cc -c -c -c a.h -o -include gone.h -o y.h.pch -c ./b.h"
    let entry : Entry := ⟨"/w", line, "b.h"⟩
    let sourceless := "cc -include -o y.h.pch -c"
    (compile (fun _ => true) .empty line "/w").result = .ok entry ∧
      mapping? line = .ok (some ⟨"y.h.pch", "./b.h"⟩) ∧ entry.file = Path.normalize "./b.h" ∧
      (compile (fun _ => true) .empty sourceless "/w").result = .error (.missingSource sourceless) ∧
      mapping? sourceless = .ok none := by
  intro line entry sourceless
  have hline : tokens line = .ok ["cc", "-c", "-c", "-c", "a.h", "-o", "-include", "gone.h", "-o",
      "y.h.pch", "-c", "./b.h"] := by decide +kernel
  have hsourceless : tokens sourceless = .ok ["cc", "-include", "-o", "y.h.pch", "-c"] := by
    decide +kernel
  have hentry : (compile (fun _ => true) .empty line "/w").result = .ok entry := by decide +kernel
  have hmapping : mapping? line = .ok (some ⟨"y.h.pch", "./b.h"⟩) := by decide +kernel
  have hfailure : (compile (fun _ => true) .empty sourceless "/w").result =
      .error (.missingSource sourceless) := by decide +kernel
  obtain ⟨hfile, -⟩ := readings_agree_on_source hline (by decide) (fun _ => true) .empty "/w"
  obtain ⟨-, hnone⟩ := readings_agree_on_source hsourceless (by decide) (fun _ => true) .empty "/w"
  exact ⟨hentry, hmapping, hfile entry _ hentry hmapping, hfailure, hnone sourceless hfailure⟩

/-- A `-c` behind an `-o` is a flag in one reading only, and the sources differ. -/
example :
    let line := "cc -c a.h -o -c b.h -o x.h.pch"
    (compile (fun _ => true) .empty line "/w").result = .ok ⟨"/w", line, "b.h"⟩ ∧
      mapping? line = .ok (some ⟨"x.h.pch", "a.h"⟩) := by
  decide +kernel

end CompileCommands.Command
