import CompileCommands.Proofs.Command.Compile
import CompileCommands.Proofs.Shell.Escape

/-!
# Reading the command field

A reader of the command field needs to know three characters. A space outside double quotes ends an
argument, a double quote enters or leaves quotes, and between them a backslash makes the character
behind it stand for itself. Such a reader gets back the arguments that `join` has written, so the
field tells one command from every other (`command_field_reads_back`).

An argument is read in one piece, bare or between quotes (`run_quote`). The space behind it gives it
out and brings the reader back to its start, and so a row of arguments comes back one by one.
-/

namespace CompileCommands.Command

open Transducer
open CompileCommands.Shell (doubleQuote backslash)

/-! ## The reader -/

/-- Outside quotes, between them, and behind a backslash between them. -/
inductive FieldMode where
  | bare
  | quoted
  | literal
  deriving DecidableEq

/-- A mode, and the argument under way: quotes begin one even while it is empty. -/
structure FieldScan where
  mode : FieldMode
  argument : Option String

namespace FieldScan

def start : FieldScan := ⟨.bare, none⟩

def push (s : FieldScan) (mode : FieldMode) (c : Char) : FieldScan :=
  ⟨mode, some ((s.argument.getD "").push c)⟩

/-- Reads one character; a space outside quotes gives out the argument before it. -/
def step : Transducer FieldScan Char String := fun s c =>
  match s.mode with
  | .bare =>
      if c = ' ' then (start, s.argument.toList)
      else if c = doubleQuote then (⟨.quoted, some (s.argument.getD "")⟩, [])
      else (s.push .bare c, [])
  | .quoted =>
      if c = doubleQuote then (⟨.bare, s.argument⟩, [])
      else if c = backslash then (⟨.literal, s.argument⟩, [])
      else (s.push .quoted c, [])
  | .literal => (s.push .quoted c, [])

end FieldScan

/-- The arguments in a field; none if its quotes are not closed. -/
def readField (field : String) : Option (List String) :=
  let (last, ended) := run FieldScan.step .start field.toList
  match last.mode with
  | .bare => some (ended ++ last.argument.toList)
  | .quoted | .literal => none

/-! ## One argument -/

theorem run_bare {cs : List Char} (h : ∀ c ∈ cs, needsQuotes c = false) (argument : String) :
    run FieldScan.step ⟨.bare, some argument⟩ cs =
      (⟨.bare, some (argument ++ String.ofList cs)⟩, []) := by
  refine run_push (fun argument => (⟨.bare, some argument⟩ : FieldScan)) ?_ argument
  intro c hmem argument
  have hc : (c ≠ ' ' ∧ c ≠ doubleQuote) ∧ c ≠ backslash := by
    simpa [needsQuotes] using h c hmem
  simp [FieldScan.step, FieldScan.push, hc]

/-- Between quotes a character is read as itself, whether a backslash stands before it or not. -/
theorem run_quoteChar (c : Char) (argument : String) :
    run FieldScan.step ⟨.quoted, some argument⟩ (quoteChar c) =
      (⟨.quoted, some (argument.push c)⟩, []) := by
  unfold quoteChar
  split
  · rfl
  · rename_i hplain
    have hc : c ≠ doubleQuote ∧ c ≠ backslash := by simpa using hplain
    simp [run_cons, FieldScan.step, FieldScan.push, hc]

theorem run_quoteChars (cs : List Char) (argument : String) :
    run FieldScan.step ⟨.quoted, some argument⟩ (cs.flatMap quoteChar) =
      (⟨.quoted, some (argument ++ String.ofList cs)⟩, []) :=
  run_collect (fun argument => (⟨.quoted, some argument⟩ : FieldScan))
    (fun c _ => run_quoteChar c) argument

theorem run_quote (arg : String) :
    run FieldScan.step .start (quote arg).toList = (⟨.bare, some arg⟩, []) := by
  have hopen : FieldScan.step .start doubleQuote = (⟨.quoted, some ""⟩, []) := rfl
  unfold quote
  split
  · rw [String.toList_ofList, List.cons_append, run_cons, hopen, run_append, run_quoteChars,
      run_cons]
    simp [FieldScan.step]
  · rename_i hplain
    obtain ⟨hne, hsafe⟩ : arg ≠ "" ∧ ∀ c ∈ arg.toList, needsQuotes c = false := by
      simpa using hplain
    -- the first character begins the argument, and the others go to it
    obtain ⟨c, cs, hchars⟩ : ∃ c cs, arg.toList = c :: cs :=
      List.exists_cons_of_ne_nil (by simpa using hne)
    rw [hchars] at hsafe
    have hc : (c ≠ ' ' ∧ c ≠ doubleQuote) ∧ c ≠ backslash := by
      simpa [needsQuotes] using hsafe c List.mem_cons_self
    have hfirst : FieldScan.step .start c = (⟨.bare, some ("".push c)⟩, []) := by
      simp [FieldScan.step, FieldScan.push, FieldScan.start, hc]
    rw [hchars, run_cons, hfirst, run_bare fun d hd => hsafe d (List.mem_cons_of_mem _ hd),
      push_append, ← hchars]
    simp

/-! ## The whole field -/

theorem toList_join (args : List String) :
    (join args).toList = [' '].intercalate (args.map fun arg => (quote arg).toList) := by
  rw [join, String.toList_intercalate, List.map_map]
  rfl

theorem readField_join (args : List String) : readField (join args) = some args := by
  rcases List.eq_nil_or_concat args with rfl | ⟨front, last, rfl⟩
  · rfl
  · have hspace : ∀ arg : String, FieldScan.step ⟨.bare, some arg⟩ ' ' = (.start, [arg]) :=
      fun arg => rfl
    -- no space stands behind the last argument, so the end of the field gives it out
    rw [List.concat_eq_append, readField, toList_join, run_intercalate run_quote hspace]
    rfl

theorem join_injective : Function.Injective join := by
  intro args args' h
  have hread : some args = some args' := by
    rw [← readField_join args, ← readField_join args', h]
  exact Option.some.inj hread

theorem tokens_of_compile {fileExists : String → Bool} {table : HeaderTable}
    {line directory : String} {entry : Entry}
    (h : (compile fileExists table line directory).result = .ok entry) :
    ∃ args, tokens line = .ok args := by
  cases hargs : tokens line with
  | ok args => exact ⟨args, rfl⟩
  | error cause =>
      rw [compile, hargs] at h
      cases h

theorem command_of_compile {fileExists : String → Bool} {table : HeaderTable}
    {line directory : String} {args : List String} {entry : Entry}
    (hargs : tokens line = .ok args)
    (h : (compile fileExists table line directory).result = .ok entry) :
    entry.command = join (withHeaders (header? fileExists table) args) := by
  rw [compile_eq hargs] at h
  split at h
  · cases h
  · split at h
    · cases h
    · cases h
      rfl

/-- **The command field loses nothing.** A reader that knows space, double quote and backslash gets
back the arguments that have been written, so that no two commands have the same field. The field of
an entry gives the tokens of its log line, with the include paths that have been replaced. -/
theorem command_field_reads_back :
    (∀ args, readField (join args) = some args) ∧
      (∀ args args', join args = join args' → args = args') ∧
      ∀ fileExists table line directory entry,
        (compile fileExists table line directory).result = .ok entry →
          ∃ args, tokens line = .ok args ∧
            readField entry.command = some (withHeaders (header? fileExists table) args) := by
  refine ⟨readField_join, fun _ _ h => join_injective h, ?_⟩
  · intro fileExists table line directory entry h
    obtain ⟨args, hargs⟩ := tokens_of_compile h
    refine ⟨args, hargs, ?_⟩
    rw [command_of_compile hargs h]
    exact readField_join _

end CompileCommands.Command
