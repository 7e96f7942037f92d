import CompileCommands.Command.Argument
import Mathlib.Algebra.Ring.Parity
import Mathlib.Data.List.DropRight

/-!
# Flags and operands by position

A command line is read from left to right, so whether a token is a flag or an operand hangs on all
tokens before it. By position: the first token is no operand, and the token behind position `i` is
one exactly if position `i` has the name of a flag and is itself no operand (`isOperand`). What the
reading gives is said here in positions: the operands of a flag (`operands_read`), and the last of
them, or of those of a kind (`getLast?_filter_operands_iff`).

The same can be said without the walk. Flags in a row take each other in pairs, so a token is an
operand exactly if the flags right before it are odd in number (`isOperand_iff_isTaken`).
-/

namespace CompileCommands.Command

/-! ## Positions -/

def isOperand (flags args : List String) : Nat → Bool
  | 0 => false
  | i + 1 => args[i]?.any (· ∈ flags) && !isOperand flags args i

def operandAt? (flag : String) (flags args : List String) : Nat → Option String
  | 0 => none
  | i + 1 => if args[i]? = some flag ∧ isOperand flags args i = false then args[i + 1]? else none

variable {flag token next : String} {flags args rest : List String}

/-- A token is taken by the flag right before it. -/
theorem isOperand_succ_iff {i : Nat} :
    isOperand flags args (i + 1) = true ↔
      ∃ flag ∈ flags, args[i]? = some flag ∧ isOperand flags args i = false := by
  rw [isOperand, Bool.and_eq_true, Option.any_eq_true, Bool.not_eq_true']
  constructor
  · rintro ⟨⟨flag, hflag, hmem⟩, hfree⟩
    exact ⟨flag, by simpa using hmem, hflag, hfree⟩
  · rintro ⟨flag, hmem, hflag, hfree⟩
    exact ⟨⟨flag, hflag, by simpa using hmem⟩, hfree⟩

theorem isOperand_behind_pair (h : token ∈ flags) :
    ∀ i, isOperand flags (token :: next :: rest) (i + 2) = isOperand flags rest i
  | 0 => by simp [isOperand, h]
  | i + 1 => by
      rw [isOperand, isOperand_behind_pair h i, isOperand]
      rfl

theorem isOperand_behind_plain (h : token ∉ flags) :
    ∀ i, isOperand flags (token :: rest) (i + 1) = isOperand flags rest i
  | 0 => by simp [isOperand, h]
  | i + 1 => by
      rw [isOperand, isOperand_behind_plain h i, isOperand]
      rfl

theorem operandAt?_behind_pair (h : token ∈ flags) :
    ∀ i, operandAt? flag flags (token :: next :: rest) (i + 2) = operandAt? flag flags rest i
  | 0 => by simp [operandAt?, isOperand, h]
  | i + 1 => by
      rw [operandAt?, isOperand_behind_pair h i, operandAt?]
      rfl

theorem operandAt?_behind_plain (hflag : flag ∈ flags) (h : token ∉ flags) :
    ∀ i, operandAt? flag flags (token :: rest) (i + 1) = operandAt? flag flags rest i
  | 0 => by
      have hne : token ≠ flag := fun e => h (e ▸ hflag)
      simp [operandAt?, hne]
  | i + 1 => by
      rw [operandAt?, isOperand_behind_plain h i, operandAt?]
      rfl

/-! ## The operands of a flag -/

theorem filterMap_range_succ (f : Nat → Option String) (n : Nat) :
    (List.range (n + 1)).filterMap f =
      (f 0).toList ++ (List.range n).filterMap fun i => f (i + 1) := by
  rw [List.range_succ_eq_map, List.filterMap_cons, List.filterMap_map]
  cases f 0 <;> rfl

theorem operands_cons (a : Argument) (as : List Argument) :
    operands flag (a :: as) = (a.operand? flag).toList ++ operands flag as := by
  unfold operands
  rw [List.filterMap_cons]
  cases a.operand? flag <;> rfl

theorem operands_read (hflag : flag ∈ flags) (args : List String) :
    operands flag (Argument.read flags args) =
      (List.range args.length).filterMap (operandAt? flag flags args) := by
  induction args using Argument.read.induct flags with
  | case1 => rfl
  | case2 token => rfl
  | case3 token next rest h ih =>
      have hpair : operandAt? flag flags (token :: next :: rest) 1 =
          (Argument.flagged token next).operand? flag := by
        simp [operandAt?, isOperand, Argument.operand?]
      have hbehind : (fun i => operandAt? flag flags (token :: next :: rest) (i + 2)) =
          operandAt? flag flags rest := funext (operandAt?_behind_pair h)
      rw [Argument.read, if_pos h, operands_cons, ih, List.length_cons, List.length_cons,
        filterMap_range_succ, filterMap_range_succ, hpair, hbehind]
      rfl
  | case4 token next rest h ih =>
      have hbehind : (fun i => operandAt? flag flags (token :: next :: rest) (i + 1)) =
          operandAt? flag flags (next :: rest) := funext (operandAt?_behind_plain hflag h)
      rw [Argument.read, if_neg h, operands_cons, ih, List.length_cons (a := token),
        filterMap_range_succ, hbehind]
      rfl

/-- The last value among positions stands at a position behind which there is no other. -/
theorem getLast?_filterMap_range_iff {f : Nat → Option String} {n : Nat} {value : String} :
    ((List.range n).filterMap f).getLast? = some value ↔
      ∃ i < n, f i = some value ∧ ∀ j < n, i < j → f j = none := by
  induction n with
  | zero => simp
  | succ n ih =>
      rw [List.range_succ, List.filterMap_append, List.getLast?_append]
      cases hn : f n with
      | none =>
          have hlast : [n].filterMap f = [] := by simp [hn]
          rw [hlast, List.getLast?_nil, Option.none_or, ih]
          constructor
          · rintro ⟨i, hi, hvalue, hlater⟩
            refine ⟨i, by omega, hvalue, fun j hj hij => ?_⟩
            rcases Nat.lt_succ_iff_lt_or_eq.mp hj with hj | rfl
            · exact hlater j hj hij
            · exact hn
          · rintro ⟨i, hi, hvalue, hlater⟩
            rcases Nat.lt_succ_iff_lt_or_eq.mp hi with hi | rfl
            · exact ⟨i, hi, hvalue, fun j hj hij => hlater j (by omega) hij⟩
            · rw [hn] at hvalue
              exact absurd hvalue (by simp)
      | some last =>
          have hlast : [n].filterMap f = [last] := by simp [hn]
          rw [hlast]
          constructor
          · intro h
            exact ⟨n, by omega, by simpa [hn] using h, fun j hj hij => by omega⟩
          · rintro ⟨i, hi, hvalue, hlater⟩
            rcases Nat.lt_succ_iff_lt_or_eq.mp hi with hi | rfl
            · have := hlater n (by omega) hi
              rw [hn] at this
              exact absurd this (by simp)
            · rw [hn] at hvalue
              simpa using hvalue

/-- A position holds the flag, as a flag, with a token behind it. -/
def TakesOperand (flag : String) (flags args : List String) (i : Nat) : Prop :=
  args[i]? = some flag ∧ isOperand flags args i = false ∧ i + 1 < args.length

theorem operandAt?_succ_eq_some {i : Nat} {value : String} :
    operandAt? flag flags args (i + 1) = some value ↔
      TakesOperand flag flags args i ∧ args[i + 1]? = some value := by
  rw [operandAt?, TakesOperand]
  split
  · rename_i h
    constructor
    · intro hvalue
      exact ⟨⟨h.1, h.2, (List.getElem?_eq_some_iff.mp hvalue).1⟩, hvalue⟩
    · exact fun hvalue => hvalue.2
  · rename_i h
    constructor
    · intro hvalue
      exact absurd hvalue (by simp)
    · rintro ⟨⟨htoken, hflag, -⟩, -⟩
      exact absurd ⟨htoken, hflag⟩ h

theorem operandAt?_succ_eq_none {i : Nat} :
    operandAt? flag flags args (i + 1) = none ↔ ¬ TakesOperand flag flags args i := by
  rw [Option.eq_none_iff_forall_ne_some]
  constructor
  · intro h htakes
    exact h _ (operandAt?_succ_eq_some.mpr ⟨htakes, List.getElem?_eq_getElem htakes.2.2⟩)
  · intro h value hvalue
    exact h (operandAt?_succ_eq_some.mp hvalue).1

theorem mem_operands_iff (hflag : flag ∈ flags) {value : String} :
    value ∈ operands flag (Argument.read flags args) ↔
      ∃ i, operandAt? flag flags args (i + 1) = some value := by
  rw [operands_read hflag, List.mem_filterMap]
  constructor
  · rintro ⟨i, -, hvalue⟩
    cases i with
    | zero => simp [operandAt?] at hvalue
    | succ i => exact ⟨i, hvalue⟩
  · rintro ⟨i, hvalue⟩
    exact ⟨i + 1, List.mem_range.mpr (operandAt?_succ_eq_some.mp hvalue).1.2.2, hvalue⟩

/-- The last position at which a flag takes an operand. -/
def IsLastFlag (flag : String) (flags args : List String) (i : Nat) : Prop :=
  TakesOperand flag flags args i ∧ ∀ j, i < j → ¬ TakesOperand flag flags args j

/-- The last operand of a kind stands behind a flag, and no operand of a later one is of the kind. -/
theorem getLast?_filter_operands_iff (hflag : flag ∈ flags) {p : String → Bool} {value : String} :
    ((operands flag (Argument.read flags args)).filter p).getLast? = some value ↔
      ∃ i, operandAt? flag flags args (i + 1) = some value ∧ p value = true ∧
        ∀ j later, i < j → operandAt? flag flags args (j + 1) = some later → p later = false := by
  have hbound : ∀ {i : Nat} {v : String}, operandAt? flag flags args (i + 1) = some v →
      i + 1 < args.length := fun h => (operandAt?_succ_eq_some.mp h).1.2.2
  rw [operands_read hflag, List.filter_filterMap, getLast?_filterMap_range_iff]
  constructor
  · rintro ⟨i, -, hvalue, hlater⟩
    obtain ⟨hvalue, hp⟩ := Option.filter_eq_some_iff.mp hvalue
    cases i with
    | zero => simp [operandAt?] at hvalue
    | succ i =>
        refine ⟨i, hvalue, hp, fun j later hij hj => ?_⟩
        have hnone := hlater (j + 1) (hbound hj) (by omega)
        rw [hj] at hnone
        simpa using hnone
  · rintro ⟨i, hvalue, hp, hlater⟩
    refine ⟨i + 1, hbound hvalue, Option.filter_eq_some_iff.mpr ⟨hvalue, hp⟩, fun j _ hij => ?_⟩
    cases j with
    | zero => omega
    | succ j =>
        cases hj : operandAt? flag flags args (j + 1) with
        | none => rfl
        | some later => simp [hlater j later (by omega) hj]

theorem getLast?_operands_iff (hflag : flag ∈ flags) {value : String} :
    (operands flag (Argument.read flags args)).getLast? = some value ↔
      ∃ i, IsLastFlag flag flags args i ∧ args[i + 1]? = some value := by
  have hall : (operands flag (Argument.read flags args)).filter (fun _ => true) =
      operands flag (Argument.read flags args) := List.filter_true _
  rw [← hall, getLast?_filter_operands_iff hflag]
  constructor
  · rintro ⟨i, hvalue, -, hlater⟩
    obtain ⟨htakes, hvalue⟩ := operandAt?_succ_eq_some.mp hvalue
    refine ⟨i, ⟨htakes, fun j hij hj => ?_⟩, hvalue⟩
    have hoperand := operandAt?_succ_eq_some.mpr ⟨hj, List.getElem?_eq_getElem hj.2.2⟩
    exact Bool.noConfusion (hlater j _ hij hoperand)
  · rintro ⟨i, ⟨htakes, hlast⟩, hvalue⟩
    refine ⟨i, operandAt?_succ_eq_some.mpr ⟨htakes, hvalue⟩, rfl, fun j later hij hj => ?_⟩
    exact absurd (operandAt?_succ_eq_some.mp hj).1 (hlast j hij)

theorem getLast?_operands_eq_none_iff (hflag : flag ∈ flags) :
    (operands flag (Argument.read flags args)).getLast? = none ↔
      ∀ i, ¬ TakesOperand flag flags args i := by
  rw [List.getLast?_eq_none_iff, operands_read hflag, List.filterMap_eq_nil_iff]
  constructor
  · intro h i htakes
    exact operandAt?_succ_eq_none.mp (h (i + 1) (List.mem_range.mpr htakes.2.2)) htakes
  · intro h i _
    cases i with
    | zero => rfl
    | succ i => exact operandAt?_succ_eq_none.mpr (h i)

/-- Where no other flag occurs, each flag with a token behind it takes an operand or is the operand
of one that does. -/
theorem exists_takesOperand (honly : ∀ f ∈ flags, f ∈ args → f = flag) {i : Nat}
    (hi : args[i]? = some flag) (hlt : i + 1 < args.length) :
    ∃ k, TakesOperand flag flags args k := by
  cases hop : isOperand flags args i with
  | false => exact ⟨i, hi, hop, hlt⟩
  | true =>
      cases i with
      | zero => simp [isOperand] at hop
      | succ i =>
          obtain ⟨before, hmem, hbefore, hfree⟩ := isOperand_succ_iff.mp hop
          have hsame : before = flag := honly before hmem (List.mem_of_getElem? hbefore)
          rw [hsame] at hbefore
          exact ⟨i, hbefore, hfree, by omega⟩

/-! ## Runs of flags -/

/-- The number of flags in a row right before a position. -/
def flagRun (flags args : List String) (i : Nat) : Nat :=
  ((args.take i).rtakeWhile (· ∈ flags)).length

/-- The flags in a row before a position take each other in pairs, so the token there is taken if
their number is odd. -/
def IsTaken (flags args : List String) (i : Nat) : Prop := Odd (flagRun flags args i)

instance (flags args : List String) (i : Nat) : Decidable (IsTaken flags args i) :=
  inferInstanceAs (Decidable (Odd _))

theorem flagRun_succ {i : Nat} (h : args[i]? = some token) :
    flagRun flags args (i + 1) = if token ∈ flags then flagRun flags args i + 1 else 0 := by
  unfold flagRun
  rw [List.take_add_one, h, Option.toList_some, List.rtakeWhile_concat]
  by_cases hmem : token ∈ flags
  · simp [hmem]
  · simp [hmem]

theorem isOperand_iff_isTaken {i : Nat} (h : i ≤ args.length) :
    isOperand flags args i = true ↔ IsTaken flags args i := by
  induction i with
  | zero => simp [isOperand, IsTaken, flagRun]
  | succ i ih =>
      have hi : args[i]? = some args[i] := List.getElem?_eq_getElem h
      have ih : isOperand flags args i = true ↔ Odd (flagRun flags args i) := ih (by omega)
      rw [isOperand, IsTaken, flagRun_succ hi, hi]
      by_cases hmem : args[i] ∈ flags
      · -- one more flag in the row turns the parity
        rw [if_pos hmem, Nat.odd_add_one, ← ih]
        simp [hmem]
      · rw [if_neg hmem]
        simp [hmem]

def takenBy? (flag : String) (flags args : List String) (i : Nat) : Option String :=
  if IsTaken flags args i ∧ args[i - 1]? = some flag then args[i]? else none

theorem operandAt?_eq_takenBy? (hflag : flag ∈ flags) :
    operandAt? flag flags args = takenBy? flag flags args := by
  funext i
  unfold takenBy?
  cases i with
  | zero => simp [operandAt?, IsTaken, flagRun]
  | succ i =>
      rw [operandAt?, Nat.add_sub_cancel]
      by_cases hi : args[i]? = some flag
      · have hlt : i < args.length := (List.getElem?_eq_some_iff.mp hi).1
        have htaken : IsTaken flags args (i + 1) ↔ isOperand flags args i = false := by
          rw [← isOperand_iff_isTaken hlt, isOperand, hi]
          simp [hflag]
        simp only [hi, htaken, true_and, and_true]
      · rw [if_neg fun h => hi h.1, if_neg fun h => hi h.2]

theorem takesOperand_iff {i : Nat} :
    TakesOperand flag flags args i ↔
      args[i]? = some flag ∧ ¬ IsTaken flags args i ∧ i + 1 < args.length := by
  unfold TakesOperand
  constructor
  · rintro ⟨hi, hfree, hlt⟩
    refine ⟨hi, ?_, hlt⟩
    rw [← isOperand_iff_isTaken (by omega), hfree]
    simp
  · rintro ⟨hi, hfree, hlt⟩
    refine ⟨hi, ?_, hlt⟩
    rw [← isOperand_iff_isTaken (by omega)] at hfree
    simpa using hfree

end CompileCommands.Command
