import CompileCommands.Command.Invocation
import Mathlib.Data.List.Basic

/-!
# Lines that call a compiler

An invocation is told by a search for a compiler, then `-c`, then `-o`, each behind the match before
it. The search never goes back, and it need not: behind the first token of a kind stands all that
stands behind any (`sublist_behind_iff`). So it finds the three wherever they stand in that order
(`invokesCompiler_iff`), and more tokens in front, between or behind do not hide them
(`isInvocation_iff_calls`).
-/

namespace CompileCommands.Command

/-! ## Tokens in order -/

/-- A compiler, `-c` and `-o` stand in this order, perhaps with other tokens around them. -/
def CallsCompiler (args : List String) : Prop :=
  ∃ i j k : Nat, i < j ∧ j < k ∧
    (∃ compiler, args[i]? = some compiler ∧ isCompiler compiler = true) ∧
      args[j]? = some "-c" ∧ args[k]? = some "-o"

theorem cons_sublist_iff_getElem? {a : String} {m l : List String} :
    (a :: m).Sublist l ↔ ∃ i, l[i]? = some a ∧ m.Sublist (l.drop (i + 1)) := by
  constructor
  · intro h
    induction l with
    | nil => simp at h
    | cons b l ih =>
        rcases List.cons_sublist_cons'.mp h with h | ⟨rfl, h⟩
        · obtain ⟨i, hi, hm⟩ := ih h
          exact ⟨i + 1, by simpa using hi, by simpa using hm⟩
        · exact ⟨0, rfl, by simpa using h⟩
  · rintro ⟨i, hi, hm⟩
    obtain ⟨hlt, rfl⟩ := List.getElem?_eq_some_iff.mp hi
    have hdrop : (l[i] :: m).Sublist (l.drop i) := by
      rw [List.drop_eq_getElem_cons hlt]
      exact hm.cons_cons _
    exact hdrop.trans (List.drop_sublist i l)

theorem callsCompiler_iff_sublist {args : List String} :
    CallsCompiler args ↔
      ∃ compiler, isCompiler compiler = true ∧ [compiler, "-c", "-o"].Sublist args := by
  constructor
  · rintro ⟨i, j, k, hij, hjk, ⟨compiler, hi, hcompiler⟩, hj, hk⟩
    refine ⟨compiler, hcompiler, cons_sublist_iff_getElem?.mpr ⟨i, hi,
      cons_sublist_iff_getElem?.mpr ⟨j - (i + 1), ?_, cons_sublist_iff_getElem?.mpr
        ⟨k - (j + 1), ?_, List.nil_sublist _⟩⟩⟩⟩
    · have hindex : i + 1 + (j - (i + 1)) = j := by omega
      rw [List.getElem?_drop, hindex, hj]
    · have hindex : i + 1 + (j - (i + 1) + 1) + (k - (j + 1)) = k := by omega
      rw [List.drop_drop, List.getElem?_drop, hindex, hk]
  · rintro ⟨compiler, hcompiler, h⟩
    obtain ⟨i, hi, h⟩ := cons_sublist_iff_getElem?.mp h
    obtain ⟨j, hj, h⟩ := cons_sublist_iff_getElem?.mp h
    obtain ⟨k, hk, -⟩ := cons_sublist_iff_getElem?.mp h
    rw [List.drop_drop] at hk
    rw [List.getElem?_drop] at hj hk
    exact ⟨i, _, _, by omega, by omega, ⟨compiler, hi, hcompiler⟩, hj, hk⟩

theorem CallsCompiler.of_sublist {args args' : List String} (h : CallsCompiler args)
    (hsub : args.Sublist args') : CallsCompiler args' := by
  rw [callsCompiler_iff_sublist] at h ⊢
  obtain ⟨compiler, hcompiler, hrow⟩ := h
  exact ⟨compiler, hcompiler, hrow.trans hsub⟩

/-! ## The search -/

def behind (p : String → Bool) (args : List String) : List String :=
  (args.dropWhile (!p ·)).drop 1

/-- Behind the first token of a kind stands all that stands behind any. -/
theorem sublist_behind_iff {p : String → Bool} {m args : List String} (hm : m ≠ []) :
    m.Sublist (behind p args) ↔ ∃ a, p a = true ∧ (a :: m).Sublist args := by
  induction args with
  | nil =>
      constructor
      · intro h
        exact absurd (List.sublist_nil.mp h) hm
      · rintro ⟨a, -, h⟩
        simp at h
  | cons b args ih =>
      cases hb : p b with
      | true =>
          have hbehind : behind p (b :: args) = args := by simp [behind, hb]
          rw [hbehind]
          constructor
          · intro h
            exact ⟨b, hb, h.cons_cons b⟩
          · rintro ⟨a, -, h⟩
            rcases List.cons_sublist_cons'.mp h with h | ⟨-, h⟩
            · exact (List.sublist_cons_self a m).trans h
            · exact h
      | false =>
          have hbehind : behind p (b :: args) = behind p args := by simp [behind, hb]
          rw [hbehind, ih]
          constructor
          · rintro ⟨a, ha, h⟩
            exact ⟨a, ha, h.cons b⟩
          · rintro ⟨a, ha, h⟩
            rcases List.cons_sublist_cons'.mp h with h | ⟨rfl, -⟩
            · exact ⟨a, ha, h⟩
            · rw [ha] at hb
              exact Bool.noConfusion hb

theorem invokesCompiler_iff {args : List String} :
    invokesCompiler args = true ↔ CallsCompiler args := by
  have hsearch : invokesCompiler args = true ↔
      ["-o"].Sublist (behind (· = "-c") (behind isCompiler args)) := by
    simp [invokesCompiler, behind, List.singleton_sublist]
  rw [hsearch, sublist_behind_iff (by simp), callsCompiler_iff_sublist]
  constructor
  · rintro ⟨flag, hflag, h⟩
    obtain rfl : flag = "-c" := by simpa using hflag
    exact (sublist_behind_iff (by simp)).mp h
  · intro h
    exact ⟨"-c", by simp, (sublist_behind_iff (by simp)).mpr h⟩

/-! ## Lines -/

/-- An invocation is a line that the tokenizer accepts. -/
theorem tokens_of_isInvocation {line : String} (h : isInvocation line = true) :
    ∃ args, tokens line = .ok args := by
  unfold isInvocation at h
  split at h
  · rename_i args hargs
    exact ⟨args, hargs⟩
  · exact absurd h (by simp)

/-- **The search decides the order of the tokens.** A line is an invocation exactly if the tokenizer
accepts it and a compiler, `-c` and `-o` stand among its tokens in this order. So a line is one too
if it has all tokens of an invocation in their order, whatever other tokens stand among them. -/
theorem isInvocation_iff_calls :
    (∀ line, isInvocation line = true ↔ ∃ args, tokens line = .ok args ∧ CallsCompiler args) ∧
      ∀ (line line' : String) (args args' : List String), tokens line = .ok args →
        tokens line' = .ok args' → args.Sublist args' →
          isInvocation line = true → isInvocation line' = true := by
  have hcalls : ∀ line, isInvocation line = true ↔
      ∃ args, tokens line = .ok args ∧ CallsCompiler args := by
    intro line
    unfold isInvocation
    cases tokens line with
    | error cause => simp
    | ok args => simp [invokesCompiler_iff]
  refine ⟨hcalls, ?_⟩
  intro line line' args args' hargs hargs' hsub hline
  obtain ⟨found, hfound, hcall⟩ := (hcalls line).mp hline
  obtain rfl : found = args := Except.ok.inj (hfound.symm.trans hargs)
  exact (hcalls line').mpr ⟨args', hargs', hcall.of_sublist hsub⟩

/-- The compiler is called by its path, and the wrapper has an `-o` of its own in front of the `-c`. -/
theorem isInvocation_of_wrapped :
    let line := "/usr/bin/clang -c a.c -o a.o"
    let wrapped := "ccache -o log /usr/bin/clang -O2 -c a.c '-DS=\"x y\"' -o a.o -c"
    isInvocation line = true ∧ isInvocation wrapped = true := by
  intro line wrapped
  have hargs : tokens line = .ok ["/usr/bin/clang", "-c", "a.c", "-o", "a.o"] := by decide +kernel
  have hwrapped : tokens wrapped = .ok ["ccache", "-o", "log", "/usr/bin/clang", "-O2", "-c", "a.c",
      "-DS=\"x y\"", "-o", "a.o", "-c"] := by decide +kernel
  have hline : isInvocation line = true := by decide +kernel
  obtain ⟨-, hmore⟩ := isInvocation_iff_calls
  exact ⟨hline, hmore line wrapped _ _ hargs hwrapped (by decide) hline⟩

/-- A line with an open quotation calls nothing. -/
example : isInvocation "cc -c it's.c -o it.o" = false := by decide +kernel

end CompileCommands.Command
