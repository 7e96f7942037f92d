import CompileCommands.Command.Precompile
import CompileCommands.Proofs.Command.Operands
import CompileCommands.Proofs.HeaderTable
import CompileCommands.Scan
import Mathlib.Order.Bounds.Basic

/-!
# What a precompile command records

A precompile command is read with `-c` and `-o` as the flags that take an operand, so either may be
taken by the other. By position: the source is what the last `-c` takes that is a flag, and the
artifact is the last output with the ending of one, whatever outputs stand behind it (`LastNamed`).
A command that has both records the mapping and changes nothing else in the table; one that lacks
either, and one that the tokenizer refuses, leaves the table alone
(`precompile_command_records`).
-/

namespace CompileCommands

def EndsIn (endings : List String) (path : String) : Prop :=
  ∃ ending ∈ endings, ∃ stem, path = stem ++ ending

theorem isArtifact_iff {output : String} :
    Command.isArtifact output = true ↔ EndsIn Command.artifactEndings output := by
  have hsuffix : ∀ ending : String,
      ending.toList.isSuffixOf output.toList = true ↔ ∃ stem, output = stem ++ ending := by
    intro ending
    rw [List.isSuffixOf_iff_suffix]
    constructor
    · rintro ⟨stem, hstem⟩
      refine ⟨String.ofList stem, String.toList_injective ?_⟩
      rw [String.toList_append, String.toList_ofList, hstem]
    · rintro ⟨stem, rfl⟩
      exact ⟨stem.toList, (String.toList_append ..).symm⟩
  simp only [Command.isArtifact, Command.artifactEndings, List.any_eq_true, hsuffix, EndsIn]

namespace Command

/-! ## Sources and outputs by position -/

/-- The position holds a flag that is not itself taken, and takes this value. -/
def Names (flag : String) (args : List String) (i : Nat) (value : String) : Prop :=
  args[i]? = some flag ∧ ¬ IsTaken precompileFlags args i ∧ args[i + 1]? = some value

/-- The value of a kind that a flag takes last. -/
def LastNamed (flag : String) (kind : String → Prop) (args : List String) (value : String) : Prop :=
  ∃ i, IsGreatest {j | ∃ v, Names flag args j v ∧ kind v} i ∧ Names flag args i value

open Shell (Malformed)

variable {flag : String} {args : List String}

theorem names_iff {i : Nat} {value : String} :
    Names flag args i value ↔ operandAt? flag precompileFlags args (i + 1) = some value := by
  rw [operandAt?_succ_eq_some, takesOperand_iff, Names]
  constructor
  · rintro ⟨hflag, hfree, hvalue⟩
    exact ⟨⟨hflag, hfree, (List.getElem?_eq_some_iff.mp hvalue).1⟩, hvalue⟩
  · rintro ⟨⟨hflag, hfree, -⟩, hvalue⟩
    exact ⟨hflag, hfree, hvalue⟩

theorem getLast?_eq_some_iff_lastNamed (hflag : flag ∈ precompileFlags) {p : String → Bool}
    {value : String} :
    ((operands flag (Argument.read precompileFlags args)).filter p).getLast? = some value ↔
      LastNamed flag (p · = true) args value := by
  simp only [getLast?_filter_operands_iff hflag, ← names_iff]
  constructor
  · rintro ⟨i, hvalue, hp, hlater⟩
    refine ⟨i, ⟨⟨value, hvalue, hp⟩, ?_⟩, hvalue⟩
    rintro j ⟨later, hj, hkind⟩
    by_contra hij
    rw [hlater j later (by omega) hj] at hkind
    cases hkind
  · rintro ⟨i, ⟨⟨v, hv, hp⟩, hupper⟩, hvalue⟩
    obtain rfl : v = value := Option.some.inj (hv.2.2.symm.trans hvalue.2.2)
    refine ⟨i, hvalue, hp, fun j later hij hj => ?_⟩
    rw [Bool.eq_false_iff]
    intro hkind
    have hle : j ≤ i := hupper ⟨later, hj, hkind⟩
    omega

/-- No value of the kind is the last one exactly if the flag takes none. -/
theorem getLast?_eq_none_iff_names (hflag : flag ∈ precompileFlags) {p : String → Bool} :
    ((operands flag (Argument.read precompileFlags args)).filter p).getLast? = none ↔
      ∀ i value, Names flag args i value → ¬ p value = true := by
  rw [List.getLast?_eq_none_iff, List.filter_eq_nil_iff]
  simp only [mem_operands_iff hflag, ← names_iff]
  constructor
  · intro h i value hvalue
    exact h value ⟨i, hvalue⟩
  · rintro h value ⟨i, hvalue⟩
    exact h i value hvalue

theorem LastNamed.kind {kind : String → Prop} {value : String} (h : LastNamed flag kind args value) :
    kind value := by
  obtain ⟨i, ⟨⟨v, hv, hkind⟩, -⟩, hvalue⟩ := h
  rwa [Option.some.inj (hv.2.2.symm.trans hvalue.2.2)] at hkind

/-! ## The mapping of a command -/

theorem source_eq_some_iff {source : String} :
    (operands "-c" (Argument.read precompileFlags args)).getLast? = some source ↔
      LastNamed "-c" (fun _ => True) args source := by
  have h := @getLast?_eq_some_iff_lastNamed "-c" args (by decide) (fun _ => true) source
  simpa only [List.filter_true] using h

theorem source_eq_none_iff :
    (operands "-c" (Argument.read precompileFlags args)).getLast? = none ↔
      ∀ i source, ¬ Names "-c" args i source := by
  have h := @getLast?_eq_none_iff_names "-c" args (by decide) (fun _ => true)
  simpa only [List.filter_true, not_true_eq_false, imp_false] using h

theorem artifact_eq_some_iff {artifact : String} :
    ((operands "-o" (Argument.read precompileFlags args)).filter isArtifact).getLast? =
        some artifact ↔
      LastNamed "-o" (EndsIn artifactEndings) args artifact := by
  have h := @getLast?_eq_some_iff_lastNamed "-o" args (by decide) isArtifact artifact
  simpa only [isArtifact_iff] using h

theorem artifact_eq_none_iff :
    ((operands "-o" (Argument.read precompileFlags args)).filter isArtifact).getLast? = none ↔
      ∀ i output, Names "-o" args i output → ¬ EndsIn artifactEndings output := by
  have h := @getLast?_eq_none_iff_names "-o" args (by decide) isArtifact
  simpa only [isArtifact_iff] using h

theorem mappingOfTokens?_eq_some_iff {m : HeaderMapping} :
    mappingOfTokens? args = some m ↔
      LastNamed "-c" (fun _ => True) args m.source ∧
        LastNamed "-o" (EndsIn artifactEndings) args m.artifact := by
  rw [← source_eq_some_iff, ← artifact_eq_some_iff]
  simp only [mappingOfTokens?]
  cases ((operands "-o" (Argument.read precompileFlags args)).filter isArtifact).getLast? with
  | none => simp
  | some artifact =>
      cases (operands "-c" (Argument.read precompileFlags args)).getLast? with
      | none => simp
      | some source =>
          cases m
          simp [and_comm]

theorem mappingOfTokens?_eq_none_iff :
    mappingOfTokens? args = none ↔
      (∀ i source, ¬ Names "-c" args i source) ∨
        ∀ i output, Names "-o" args i output → ¬ EndsIn artifactEndings output := by
  rw [← source_eq_none_iff, ← artifact_eq_none_iff]
  simp only [mappingOfTokens?]
  cases ((operands "-o" (Argument.read precompileFlags args)).filter isArtifact).getLast? with
  | none => simp
  | some artifact => cases (operands "-c" (Argument.read precompileFlags args)).getLast? <;> simp

theorem mapping?_of_tokens {line : String} (h : tokens line = .ok args) :
    mapping? line = .ok (mappingOfTokens? args) := by
  rw [mapping?, h]
  rfl

theorem mapping?_eq_error_iff {line : String} {cause : Malformed} :
    mapping? line = .error cause ↔ tokens line = .error cause := by
  rw [mapping?]
  cases tokens line <;> simp [Except.map]

theorem isArtifact_of_mapping {line : String} {m : HeaderMapping}
    (h : mapping? line = .ok (some m)) : isArtifact m.artifact = true := by
  cases hargs : tokens line with
  | error cause =>
      rw [mapping?_eq_error_iff.mpr hargs] at h
      cases h
  | ok args =>
      rw [mapping?_of_tokens hargs] at h
      exact isArtifact_iff.mpr (mappingOfTokens?_eq_some_iff.mp (Except.ok.inj h)).2.kind

/-! ## The table behind a command -/

/-- A table with one mapping recorded, and nothing else changed. -/
structure Records (m : HeaderMapping) (before after : HeaderTable) : Prop where
  recorded : after.get? m.artifact = some m.source
  others : ∀ other, other ≠ m.artifact → after.get? other = before.get? other
  size : after.size = before.size + if before.get? m.artifact = none then 1 else 0

theorem records_insert (table : HeaderTable) (m : HeaderMapping) :
    Records m table (table.insert m) where
  recorded := by rw [HeaderTable.get?_insert, if_pos rfl]
  others other hother := by rw [HeaderTable.get?_insert, if_neg hother.symm]
  size := HeaderTable.size_insert table m

/-- **What a precompile command records.** A command fails exactly if the tokenizer refuses it, and
leaves the table alone then. Any other makes a mapping exactly if a `-c` that is a flag takes a
token and a `-o` that is a flag takes one with the ending of an artifact. The source is what the
last such `-c` takes, and the artifact what the last such `-o` takes. The table behind the command
differs in that artifact only, or not at all if there is no mapping. The directory of the section
has no part in it. -/
theorem precompile_command_records (table : HeaderTable) (line : String) :
    (∀ cause, mapping? line = .error cause ↔ tokens line = .error cause) ∧
      (∀ cause, mapping? line = .error cause →
        Scan.takePrecompile table line = (⟨table, .stopped⟩, [.failed (.malformedCommand cause)])) ∧
      (∀ args, tokens line = .ok args →
        (∀ m, mapping? line = .ok (some m) ↔
          LastNamed "-c" (fun _ => True) args m.source ∧
            LastNamed "-o" (EndsIn artifactEndings) args m.artifact) ∧
        (mapping? line = .ok none ↔
          (∀ i source, ¬ Names "-c" args i source) ∨
            ∀ i output, Names "-o" args i output → ¬ EndsIn artifactEndings output)) ∧
      (∀ m, mapping? line = .ok (some m) →
        Records m table (Scan.takePrecompile table line).1.table) ∧
      (mapping? line = .ok none → (Scan.takePrecompile table line).1.table = table) ∧
      ∀ q directory, isInvocation line = true →
        Scan.take q ⟨table, .seeking .precompile directory⟩ line =
          Scan.takePrecompile table line := by
  refine ⟨fun _ => mapping?_eq_error_iff, ?_, ?_, ?_, ?_, ?_⟩
  · intro cause h
    simp only [Scan.takePrecompile, h]
  · intro args hargs
    rw [mapping?_of_tokens hargs]
    constructor
    · intro m
      rw [Except.ok.injEq]
      exact mappingOfTokens?_eq_some_iff
    · rw [Except.ok.injEq]
      exact mappingOfTokens?_eq_none_iff
  · intro m h
    simp only [Scan.takePrecompile, h]
    exact records_insert table m
  · intro h
    simp only [Scan.takePrecompile, h]
    rfl
  · intro q directory h
    simp only [Scan.take, if_pos h]

/-- A `-c` takes the first `-o`, so the second `-c` counts, and a later output of another kind does
not take the place of the artifact. -/
theorem mapping_behind_taken_flag :
    let line := "cc -c -o -c a.h -o x.h.pch -o late.o"
    let table := HeaderTable.empty.insert ⟨"y.h.pch", "b.h"⟩
    mapping? line = .ok (some ⟨"x.h.pch", "a.h"⟩) ∧
      Records ⟨"x.h.pch", "a.h"⟩ table (Scan.takePrecompile table line).1.table := by
  intro line table
  have hmapping : mapping? line = .ok (some ⟨"x.h.pch", "a.h"⟩) := by decide +kernel
  obtain ⟨-, -, -, hrecords, -⟩ := precompile_command_records table line
  exact ⟨hmapping, hrecords _ hmapping⟩

/-- The first `-c` takes the `-o`, so no output is named. -/
example : mapping? "cc a.h -c -o x.h.pch" = .ok none := by decide +kernel

end Command

end CompileCommands
