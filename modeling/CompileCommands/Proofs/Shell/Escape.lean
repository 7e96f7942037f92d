import CompileCommands.Shell.Escape

/-!
# Escaped arguments are read back

Whatever is read of a command up to a blank outside quotes is settled there: the words before the
blank stay, and what stands behind it is read as a command of its own (`readWords_blank`). An
escaped argument is read as one word, the argument itself (`readWords_escape`). A row of texts that
are one word each is read as those words (`readWords_intercalate`), so a row of escaped arguments
is read as the arguments (`readWords_escaped`).
-/

namespace CompileCommands.Shell

open Transducer

/-! ## Words without their command -/

/-- The words of a row of characters, and a fault without the command it belongs to. -/
def readWords (cs : List Char) : Except Fault (List String) :=
  (run WordScan.step .start cs).1.finish.map ((run WordScan.step .start cs).2 ++ ·)

theorem words_eq (command : String) :
    words command = (readWords command.toList).mapError (⟨·, command⟩) := by
  unfold words readWords
  cases h : (run WordScan.step .start command.toList).1.finish with
  | error fault =>
      simp only [h]
      rfl
  | ok final =>
      simp only [h]
      rfl

/-- A command can only end outside its quotes and escapes. -/
theorem finish_eq_ok {s : WordScan} {final : List String} (h : s.finish = .ok final) :
    s.mode = .bare ∧ final = s.word.toList := by
  obtain ⟨mode, word⟩ := s
  cases mode <;> simp_all [WordScan.finish]

theorem step_blank {s : WordScan} (hs : s.mode = .bare) {c : Char} (hc : isBlank c = true) :
    s.step c = (.start, s.word.toList) := by
  simp [WordScan.step, hs, hc]

/-- A blank behind a whole command brings the scan back to its start, with all words given out. -/
theorem run_blank {front : List Char} {args : List String} {c : Char} (hc : isBlank c = true)
    (h : readWords front = .ok args) :
    run WordScan.step .start (front ++ [c]) = (.start, args) := by
  unfold readWords at h
  cases hf : (run WordScan.step .start front).1.finish with
  | error fault =>
      rw [hf] at h
      simp [Except.map] at h
  | ok final =>
      obtain ⟨hmode, hfinal⟩ := finish_eq_ok hf
      rw [hf] at h
      have hargs : (run WordScan.step .start front).2 ++ final = args := Except.ok.inj h
      rw [run_concat, step_blank hmode hc, ← hfinal, hargs]

theorem readWords_blank {front : List Char} {args : List String} {c : Char}
    (hc : isBlank c = true) (h : readWords front = .ok args) (back : List Char) :
    readWords (front ++ c :: back) = (readWords back).map (args ++ ·) := by
  have hsplit : front ++ c :: back = front ++ [c] ++ back := by simp
  rw [hsplit, readWords, readWords, run_append, run_blank hc h]
  cases (run WordScan.step .start back).1.finish with
  | error fault => rfl
  | ok final => simp [Except.map]

theorem readWords_leading_blank {c : Char} (hc : isBlank c = true) (cs : List Char) :
    readWords (c :: cs) = readWords cs := by
  have h : readWords ([] ++ c :: cs) = (readWords cs).map ([] ++ ·) :=
    readWords_blank hc rfl cs
  rw [List.nil_append] at h
  rw [h]
  cases readWords cs <;> rfl

theorem readWords_leading_blanks {blanks : List Char} (h : ∀ c ∈ blanks, isBlank c = true)
    (cs : List Char) : readWords (blanks ++ cs) = readWords cs := by
  induction blanks with
  | nil => rfl
  | cons c rest ih =>
      rw [List.cons_append, readWords_leading_blank (h c List.mem_cons_self)]
      exact ih fun d hd => h d (List.mem_cons_of_mem _ hd)

/-! ## One escaped argument -/

def IsOrdinary (c : Char) : Prop :=
  isBlank c = false ∧ c ≠ singleQuote ∧ c ≠ doubleQuote ∧ c ≠ backslash

theorem step_ordinary {c : Char} (h : IsOrdinary c) (word : Option String) :
    WordScan.step ⟨.bare, word⟩ c = (⟨.bare, some ((word.getD "").push c)⟩, []) := by
  obtain ⟨hb, hs, hd, he⟩ := h
  simp [WordScan.step, WordScan.push, hb, hs, hd, he]

theorem run_ordinary {cs : List Char} (h : ∀ c ∈ cs, IsOrdinary c) (word : String) :
    run WordScan.step ⟨.bare, some word⟩ cs =
      (⟨.bare, some (word ++ String.ofList cs)⟩, []) :=
  run_push (fun word => (⟨.bare, some word⟩ : WordScan))
    (fun c hc word => step_ordinary (h c hc) (some word)) word

theorem isSafe_ordinary {c : Char} (h : isSafe c = true ∨ c = '=') : IsOrdinary c := by
  refine ⟨?_, ?_, ?_, ?_⟩
  · rw [Bool.eq_false_iff]
    intro hb
    simp only [isBlank, Bool.or_eq_true, decide_eq_true_eq] at hb
    rcases hb with ((rfl | rfl) | rfl) | rfl <;> revert h <;> decide
  all_goals
    rintro rfl
    revert h
    decide

theorem isPlain_safe {cs : List Char} (h : isPlain cs = true) :
    ∀ c ∈ cs, isSafe c = true ∨ c = '=' := by
  cases cs with
  | nil => simp [isPlain] at h
  | cons c cs =>
      simp only [isPlain, Bool.and_eq_true, List.all_eq_true, Bool.or_eq_true,
        decide_eq_true_eq] at h
      intro d hd
      rcases List.mem_cons.mp hd with rfl | hd
      · exact Or.inl h.1
      · exact h.2 d hd

theorem isPlain_ne_nil {cs : List Char} (h : isPlain cs = true) : cs ≠ [] := by
  rintro rfl
  simp [isPlain] at h

/-- A plain argument is one word. -/
theorem run_plain {arg : String} (h : isPlain arg.toList = true) :
    run WordScan.step .start arg.toList = (⟨.bare, some arg⟩, []) := by
  have hord : ∀ c ∈ arg.toList, IsOrdinary c := fun c hc => isSafe_ordinary (isPlain_safe h c hc)
  cases harg : arg.toList with
  | nil => exact absurd harg (isPlain_ne_nil h)
  | cons c cs =>
      rw [harg] at hord
      have hc : IsOrdinary c := hord c List.mem_cons_self
      have hcs : ∀ d ∈ cs, IsOrdinary d := fun d hd => hord d (List.mem_cons_of_mem _ hd)
      rw [run_cons, WordScan.start, step_ordinary hc, run_ordinary hcs, push_append]
      simp [← harg]

/-- Escaped characters are read inside single quotes; each single quote of the argument leaves
them and comes back. -/
theorem run_escapeChars (cs : List Char) (word : String) :
    run WordScan.step ⟨.single, some word⟩ (cs.flatMap escapeChar) =
      (⟨.single, some (word ++ String.ofList cs)⟩, []) := by
  refine run_collect (fun word => (⟨.single, some word⟩ : WordScan)) ?_ word
  intro c _ word
  by_cases hq : c = singleQuote
  · subst hq
    rfl
  · simp [escapeChar, hq, run_cons, WordScan.step, WordScan.push]

theorem run_escape (arg : String) :
    run WordScan.step .start (escape arg).toList = (⟨.bare, some arg⟩, []) := by
  unfold escape
  split
  · rename_i h
    exact run_plain h
  · rw [String.toList_ofList, List.cons_append, run_cons]
    have hopen : WordScan.step .start singleQuote = (⟨.single, some ""⟩, []) := rfl
    rw [hopen, run_append, run_escapeChars, run_cons]
    simp [WordScan.step, WordScan.enter]

theorem readWords_escape (arg : String) : readWords (escape arg).toList = .ok [arg] := by
  rw [readWords, run_escape]
  rfl

/-! ## Rows of escaped arguments -/

def escapeAll (args : List String) : String := " ".intercalate (args.map escape)

theorem escapeAll_singleton (arg : String) : escapeAll [arg] = escape arg :=
  String.intercalate_singleton

theorem escapeAll_cons (first second : String) (rest : List String) :
    escapeAll (first :: second :: rest) = escape first ++ " " ++ escapeAll (second :: rest) :=
  String.intercalate_cons_cons

theorem toList_escapeAll (args : List String) :
    (escapeAll args).toList = [' '].intercalate (args.map fun arg => (escape arg).toList) := by
  rw [escapeAll, String.toList_intercalate, List.map_map]
  rfl

/-- Texts that are read as one word each, with single spaces between them, are read as those
words. -/
theorem readWords_intercalate {write : String → List Char} : ∀ {args : List String},
    (∀ arg ∈ args, readWords (write arg) = .ok [arg]) →
      readWords ([' '].intercalate (args.map write)) = .ok args
  | [], _ => rfl
  | [arg], h => by
      rw [List.map_singleton, List.intercalate_singleton]
      exact h arg List.mem_cons_self
  | arg :: next :: rest, h => by
      have hspace : isBlank ' ' = true := rfl
      have hrest : readWords ([' '].intercalate ((next :: rest).map write)) = .ok (next :: rest) :=
        readWords_intercalate fun a ha => h a (List.mem_cons_of_mem _ ha)
      have hcons : [' '].intercalate ((arg :: next :: rest).map write) =
          write arg ++ ' ' :: [' '].intercalate ((next :: rest).map write) := by
        rw [List.map_cons, List.map_cons, List.intercalate_cons_cons, List.append_assoc]
        rfl
      rw [hcons, readWords_blank hspace (h arg List.mem_cons_self), hrest]
      rfl

theorem readWords_escaped (args : List String) :
    readWords (escapeAll args).toList = .ok args := by
  rw [toList_escapeAll]
  exact readWords_intercalate fun arg _ => readWords_escape arg

end CompileCommands.Shell
