import CompileCommands.Proofs.Scan.HeaderHistory

/-!
# The failures of a scan

A scan of lines can fail in two ways, and both belong to the invocation of a compile section: an
include path leads nowhere, or the command names no source. An invocation is well-formed for the
tokenizer, so neither its own reading nor that of a precompile section fails (`failures_of_scan`).

Being an invocation is told without operands, and reading a compile command is not, so a command
with a `-c` may still have no source. It has none exactly if each `-c` that could take one is itself
taken by an `-include`.
-/

namespace CompileCommands

/-- An invocation has a `-c` with another token behind it. -/
theorem Command.exists_compileFlag {line : String} {args : List String}
    (hline : Command.isInvocation line = true) (hargs : Command.tokens line = .ok args) :
    ∃ j, args[j]? = some "-c" ∧ j + 1 < args.length := by
  have hinvokes : Command.invokesCompiler args = true := by
    simpa [Command.isInvocation, hargs] using hline
  obtain ⟨i, j, k, -, hjk, -, hj, hk⟩ := Command.invokesCompiler_iff.mp hinvokes
  have hlt : k < args.length := (List.getElem?_eq_some_iff.mp hk).1
  exact ⟨j, hj, by omega⟩

namespace Scan

open Transducer

/-- What can go wrong at the invocation of a compile section. -/
def FailsAt (line : String) (args : List String) (failure : Failure) : Prop :=
  (∃ path ∈ Command.compileOperands "-include" args, failure = .unresolvedHeader path line) ∨
    failure = .missingSource line ∧ "-include" ∈ args ∧
      ∀ j, args[j]? = some "-c" → j + 1 < args.length → Command.BehindInclude args j

theorem failsAt_of_result {fileExists : String → Bool} {table : HeaderTable} {line : String}
    {directory : String} {args : List String} {failure : Failure}
    (hline : Command.isInvocation line = true) (hargs : Command.tokens line = .ok args)
    (h : (Command.compile fileExists table line directory).result = .error failure) :
    FailsAt line args failure := by
  rw [Command.result_eq_error_iff hargs, Command.operands_read (by decide)] at h
  rcases h with ⟨path, hpath, rfl⟩ | ⟨-, hnone, rfl⟩
  · exact Or.inl ⟨path, List.mem_of_find?_eq_some hpath, rfl⟩
  · have hall := Command.no_source_iff.mp hnone
    obtain ⟨j, hj, hlt⟩ := Command.exists_compileFlag hline hargs
    obtain ⟨i, -, hinclude, -⟩ := hall j hj hlt
    exact Or.inr ⟨rfl, List.mem_of_getElem? hinclude, hall⟩

/-- A line that stops a scan is the invocation of a compile section, and its answer says how the
command fails. -/
theorem failsAt_of_stop {q : Questions} {s : Scan} {line : String} (hrunning : s.phase ≠ .stopped)
    (h : (s.take q line).1.phase = .stopped) :
    ∃ directory args failure, Closing s line .compile directory ∧
      Command.tokens line = .ok args ∧ FailsAt line args failure ∧
      Trace.failure? (s.take q line).2 = some failure := by
  have hanswer := take_answer q s line
  generalize s.take q line = r at hanswer h
  cases hanswer with
  | quiet houtline =>
      have hgoes : (outlineStep q.excludesDirectory s.phase line).1 ≠ .stopped :=
        outlineStep_running hrunning line
      rw [houtline] at hgoes
      exact absurd h hgoes
  | unmapped => cases h
  | mapped => cases h
  | excluded => cases h
  | kept => cases h
  | @failed directory failure asides hclosing hresult hasides =>
      obtain ⟨args, hargs⟩ := Command.tokens_of_isInvocation hclosing.2
      refine ⟨directory, args, failure, hclosing, hargs, failsAt_of_result hclosing.2 hargs hresult,
        ?_⟩
      rw [failure?_append, hasides.ongoing.failure?]
      rfl

/-- A scan of lines that fails has been stopped by the last line that it takes. -/
theorem stop_of_failure {q : Questions} {known : HeaderTable} {lines : List String}
    {failure : Failure} (h : Trace.failure? (trace q known ⟨lines, none⟩) = some failure) :
    ∃ read line, Trace.pulled (trace q known ⟨lines, none⟩) = read ++ [line] ∧
      (run (step q) (start known) read).1.phase ≠ .stopped ∧
      ((run (step q) (start known) read).1.take q line).1.phase = .stopped ∧
      Trace.failure? ((run (step q) (start known) read).1.take q line).2 = some failure := by
  have hstart : (start known).phase ≠ .stopped := by simp [start]
  rcases run_ending q lines hstart with ⟨hstopped, -⟩ | ⟨hrunning, hongoing⟩
  · obtain ⟨read, line, rest, rfl, hrunning, hstops⟩ := exists_stop q hstart hstopped
    have hrun : run (step q) (start known) (read ++ line :: rest) = _ :=
      run_of_stop q hrunning hstops
    have hbefore : Trace.failure? (run (step q) (start known) read).2 = none := by
      rcases run_ending q read hstart with ⟨hphase, -⟩ | ⟨-, hbefore⟩
      · exact absurd hphase hrunning
      · exact hbefore.failure?
    refine ⟨read, line, ?_, hrunning, hstops, ?_⟩
    · rw [pulled_trace, hrun, pulled_append, pulled_of_running q hrunning]
      exact congrArg (read ++ line :: ·) (pulled_take q _ line)
    · rw [trace_eq, hrun, finish_of_stopped hstops, List.append_nil, failure?_append, hbefore] at h
      exact h
  · obtain ⟨front, last, hfinish, hfront, hlast⟩ := finish_ending hrunning none
    rw [trace_eq, hfinish, failure?_append, failure?_append, hongoing.failure?, hfront.failure?]
      at h
    rcases hlast with ⟨rfl, -⟩ | ⟨f, -, hf⟩
    · cases h
    · cases hf

/-- **Only a compile section fails.** A scan of lines never fails for a command that the tokenizer
refuses, and never at a precompile section. If it fails, the last line that it has taken is the
invocation of a compile section in a directory that is not excluded, and an include path of that
line leads nowhere, or each `-c` of it that could take a source is itself taken by an `-include`. -/
theorem failures_of_scan (q : Questions) (known : HeaderTable) (lines : List String) :
    let trace := Scan.trace q known ⟨lines, none⟩
    (∀ cause, Trace.failure? trace ≠ some (.malformedCommand cause)) ∧
      (∀ read line directory, Trace.pulled trace = read ++ [line] →
        Closes q.excludesDirectory read line .precompile directory →
          Trace.failure? trace = none) ∧
      ∀ failure, Trace.failure? trace = some failure →
        ∃ read line directory args, Trace.pulled trace = read ++ [line] ∧
          Closes q.excludesDirectory read line .compile directory ∧
          q.excludesDirectory directory = false ∧ Command.tokens line = .ok args ∧
          FailsAt line args failure := by
  intro trace
  have hfails : ∀ failure, Trace.failure? trace = some failure →
      ∃ read line directory args, Trace.pulled trace = read ++ [line] ∧
        Closes q.excludesDirectory read line .compile directory ∧
        q.excludesDirectory directory = false ∧ Command.tokens line = .ok args ∧
        FailsAt line args failure := by
    intro failure h
    obtain ⟨read, line, hpulled, hrunning, hstops, hfailure⟩ := stop_of_failure h
    obtain ⟨directory, args, f, hclosing, hargs, hfailsAt, hf⟩ := failsAt_of_stop hrunning hstops
    obtain rfl : f = failure := Option.some.inj (hf.symm.trans hfailure)
    have hphase := ((follows_outline q known read (pulled_of_running q hrunning)).2).resolve_left
      hrunning
    exact ⟨read, line, directory, args, hpulled, (closes_iff_closing hphase).mpr hclosing,
      kept_of_seeking (hphase ▸ hclosing.1), hargs, hfailsAt⟩
  refine ⟨?_, ?_, hfails⟩
  · intro cause h
    obtain ⟨_, _, _, _, -, -, -, -, hfailsAt⟩ := hfails _ h
    rcases hfailsAt with ⟨_, -, hother⟩ | ⟨hother, -⟩
    · cases hother
    · cases hother
  · intro read line directory hpulled hcloses
    rw [← Option.not_isSome_iff_eq_none]
    intro hsome
    obtain ⟨failure, h⟩ := Option.isSome_iff_exists.mp hsome
    obtain ⟨read', line', directory', _, hpulled', hcloses', -⟩ := hfails failure h
    obtain ⟨rfl, rfl⟩ : read = read' ∧ line = line' := by
      simpa using hpulled.symm.trans hpulled'
    rw [Closes] at hcloses hcloses'
    rw [hcloses, List.append_cancel_left_eq] at hcloses'
    cases hcloses'

/-- The `-c` that makes this line an invocation is taken by the `-include` before it. -/
example :
    Trace.failure? (trace ⟨fun _ => false, fun _ => false, fun _ => true⟩ .empty
      ⟨["CompileC a.o", "cd /", "cc -include -c -o"], none⟩) =
        some (.missingSource "cc -include -c -o") := by
  decide +kernel

end Scan

end CompileCommands
