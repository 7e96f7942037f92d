import CompileCommands.Proofs.Shell.Grammar

/-!
# Commands one behind the other

A blank separates commands as it separates words. Behind a whole command, which leaves no quote and
no escape open, it settles all words read so far, and what follows is read as if nothing stood
before it: the words of both in a row (`words_behind_blank`), or the fault of the second. So a text
of many commands, each with its blank, has the words of all of them (`readWords_sequence`).
-/

namespace CompileCommands.Shell

/-- Whole commands with a blank behind each are read one by one, whatever follows them. -/
theorem readWords_sequence {α : Type} {write : α → List Char} {read : α → List String} {c : Char}
    (hc : isBlank c = true) (back : List Char) {xs : List α}
    (h : ∀ x ∈ xs, readWords (write x) = .ok (read x)) :
    readWords ((xs.flatMap fun x => write x ++ [c]) ++ back) =
      (readWords back).map (xs.flatMap read ++ ·) := by
  induction xs with
  | nil => cases hback : readWords back <;> simp [Except.map, hback]
  | cons x xs ih =>
      have hsplit : ((x :: xs).flatMap fun x => write x ++ [c]) ++ back =
          write x ++ c :: ((xs.flatMap fun x => write x ++ [c]) ++ back) := by simp
      rw [hsplit, readWords_blank hc (h x List.mem_cons_self),
        ih fun y hy => h y (List.mem_cons_of_mem _ hy)]
      cases readWords back with
      | error fault => rfl
      | ok args => simp [Except.map]

theorem isBlank_of_mem {c : Char} (h : c ∈ [' ', '\t', '\n', '\r']) : isBlank c = true := by
  simpa [isBlank, or_assoc] using h

/-- **A blank separates commands.** Behind a text that is read as some words, a blank and any other
text are read as these words and the words of the other text, or are refused for the same reason as
the other text. -/
theorem words_behind_blank {a : String} {xs : List String} {s : Char}
    (hs : s ∈ [' ', '\t', '\n', '\r']) (ha : words a = .ok xs) (b : String) :
    let both := a ++ String.singleton s ++ b
    (∀ ys, words b = .ok ys → words both = .ok (xs ++ ys)) ∧
      ∀ e, words b = .error e → words both = .error ⟨e.fault, both⟩ := by
  intro both
  have hboth : readWords both.toList = (readWords b.toList).map (xs ++ ·) := by
    have hchars : both.toList = a.toList ++ s :: b.toList := by simp [both]
    rw [hchars]
    exact readWords_blank (isBlank_of_mem hs) (words_eq_ok_iff.mp ha) b.toList
  constructor
  · intro ys hb
    rw [words_eq_ok_iff, hboth, words_eq_ok_iff.mp hb]
    rfl
  · intro e hb
    rw [words_eq_error_iff, hboth, (words_eq_error_iff.mp hb).2]
    exact ⟨rfl, rfl⟩

/-- The first text has an empty word, and ends with an escaped blank and a plain one. -/
theorem words_behind_escaped_blank :
    let a := "'' x\\  "
    '\n' ∈ [' ', '\t', '\n', '\r'] ∧ words a = .ok ["", "x "] ∧
      words (a ++ String.singleton '\n' ++ "'y z'") = .ok ["", "x ", "y z"] ∧
      words (a ++ String.singleton '\n' ++ "y'") =
        .error ⟨.openQuote, a ++ String.singleton '\n' ++ "y'"⟩ := by
  intro a
  have hs : '\n' ∈ [' ', '\t', '\n', '\r'] := by decide
  have ha : words a = .ok ["", "x "] := by decide +kernel
  have hread : words "'y z'" = .ok ["y z"] := by decide +kernel
  have hrefused : words "y'" = .error ⟨.openQuote, "y'"⟩ := by decide +kernel
  exact ⟨hs, ha, (words_behind_blank hs ha "'y z'").1 _ hread,
    (words_behind_blank hs ha "y'").2 _ hrefused⟩

/-- An open quote takes the blank into its word. -/
example : words "a 'b" = .error ⟨.openQuote, "a 'b"⟩ ∧
    words ("a 'b" ++ String.singleton ' ' ++ "c'") = .ok ["a", "b c"] := by decide +kernel

end CompileCommands.Shell
