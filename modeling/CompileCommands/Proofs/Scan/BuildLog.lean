import Mathlib.Data.List.Forall2
import CompileCommands.Proofs.Scan.Steps
import CompileCommands.Proofs.Text.Lines

/-!
# Scanning the log of a build

A build is a list of steps, each with its directory and its command line. Its log has a section for
each step, with whatever else the tools print in the places where a log may hold it. Scanning the
log gives the build back: an entry for each step, in order, with the step's directory, its command
line quoted, and the file that the command line compiles (`entries_of_build`).

The scan goes through one section at a time. From between two sections it comes back to between two
sections with the table it had (`run_buildStep`), so the run over the log is an induction on the
steps.
-/

namespace CompileCommands

open Transducer

/-! ## Builds and their logs -/

/-- A step of a build, and the lines of its section that the build does not decide: the marker, and
what is printed before and after the command line. -/
structure BuildStep where
  directory : String
  argv : List String
  marker : String
  before : List String
  after : List String
  marker_compile : SectionKind.ofLine? marker = some .compile
  before_no_invocation : ∀ line ∈ before, Command.isInvocation line = false
  after_no_marker : ∀ line ∈ after, SectionKind.ofLine? line = none
  no_include : "-include" ∉ argv
  calls_compiler : Command.CallsCompiler argv

instance : Inhabited BuildStep where
  default :=
    { directory := "/"
      argv := ["cc", "-c", "a.c", "-o", "a.o"]
      marker := "CompileC a.o"
      before := []
      after := []
      marker_compile := by cbv
      before_no_invocation := by simp
      after_no_marker := by simp
      no_include := by simp
      calls_compiler := ⟨0, 1, 3, by omega, by omega, ⟨"cc", rfl, by cbv⟩, rfl, rfl⟩ }

namespace BuildStep

def lines (s : BuildStep) : List String :=
  [s.marker, Command.directoryLine s.directory] ++ s.before ++ [Command.indented s.argv] ++ s.after

/-- The entry is the step's own: its directory, its command line quoted token by token, and the
operand of the last `-c` that is read as a flag, reduced. -/
def Gives (s : BuildStep) (e : Entry) : Prop :=
  e.directory = s.directory ∧ e.command = " ".intercalate (s.argv.map Command.quote) ∧
    ∃ i source, Command.IsLastFlag "-c" Command.compileFlags s.argv i ∧
      s.argv[i + 1]? = some source ∧ e.file = Path.normalize source

theorem argv_ne_nil (s : BuildStep) : s.argv ≠ [] := by
  obtain ⟨i, j, k, -, -, ⟨compiler, hi, -⟩, -, -⟩ := s.calls_compiler
  intro h
  simp [h] at hi

theorem tokens_indented (s : BuildStep) : Command.tokens (Command.indented s.argv) = .ok s.argv :=
  Command.tokens_indented s.argv_ne_nil

theorem isInvocation_indented (s : BuildStep) :
    Command.isInvocation (Command.indented s.argv) = true := by
  rw [Command.isInvocation, s.tokens_indented]
  exact Command.invokesCompiler_iff.mpr s.calls_compiler

/-- The command line of a step has a source: its `-c` has at least the `-o` behind it. -/
theorem exists_source (s : BuildStep) :
    ∃ i source, Command.IsLastFlag "-c" Command.compileFlags s.argv i ∧
      s.argv[i + 1]? = some source := by
  obtain ⟨i, j, k, -, hjk, -, hj, hk⟩ := s.calls_compiler
  have honly : ∀ f ∈ Command.compileFlags, f ∈ s.argv → f = "-c" := by
    intro f hf hargv
    rcases List.mem_cons.mp hf with rfl | hf
    · exact absurd hargv s.no_include
    · exact List.mem_singleton.mp hf
  have hlt : k < s.argv.length := (List.getElem?_eq_some_iff.mp hk).1
  obtain ⟨n, hn⟩ := Command.exists_takesOperand honly hj (by omega)
  cases hlast :
      (Command.operands "-c" (Command.Argument.read Command.compileFlags s.argv)).getLast? with
  | none => exact absurd hn ((Command.getLast?_operands_eq_none_iff (by decide)).mp hlast n)
  | some source =>
      obtain ⟨i, hi, hsource⟩ := (Command.getLast?_operands_iff (by decide)).mp hlast
      exact ⟨i, source, hi, hsource⟩

end BuildStep

def Questions.keepingAll (fileExists : String → Bool) : Questions :=
  ⟨fun _ => false, fun _ => false, fileExists⟩

/-! ## The run over one section -/

namespace Scan

theorem run_between {q : Questions} {table : HeaderTable} {noise : List String}
    (h : ∀ line ∈ noise, SectionKind.ofLine? line = none) :
    run (step q) ⟨table, .between⟩ noise = (⟨table, .between⟩, noise.map .pulled) := by
  rw [run_of_still fun line => [.pulled line], List.map_eq_flatMap]
  intro line hline
  simp [step, take, h line hline]

theorem run_seeking {q : Questions} {table : HeaderTable} {kind : SectionKind}
    {directory : String} {body : List String}
    (h : ∀ line ∈ body, Command.isInvocation line = false) :
    run (step q) ⟨table, .seeking kind directory⟩ body =
      (⟨table, .seeking kind directory⟩, body.map .pulled) := by
  rw [run_of_still fun line => [.pulled line], List.map_eq_flatMap]
  intro line hline
  simp [step, take, h line hline]

variable (fileExists : String → Bool) (table : HeaderTable)

def sectionEvents (s : BuildStep) (e : Entry) : List Event :=
  [.pulled s.marker, .pulled (Command.directoryLine s.directory), .askedDirectory s.directory] ++
    s.before.map .pulled ++
      [.pulled (Command.indented s.argv), .askedFile e.file, .entry e] ++ s.after.map .pulled

theorem run_opening (s : BuildStep) :
    run (step (.keepingAll fileExists)) ⟨table, .between⟩
        [s.marker, Command.directoryLine s.directory] =
      (⟨table, .seeking .compile s.directory⟩,
        [.pulled s.marker, .pulled (Command.directoryLine s.directory),
          .askedDirectory s.directory]) := by
  rw [run_cons, run_cons]
  simp [step, take, s.marker_compile, Command.directory_directoryLine, Questions.keepingAll]

theorem run_command (s : BuildStep) {i : Nat} {source : String}
    (hi : Command.IsLastFlag "-c" Command.compileFlags s.argv i)
    (hsource : s.argv[i + 1]? = some source) :
    run (step (.keepingAll fileExists)) ⟨table, .seeking .compile s.directory⟩
        [Command.indented s.argv] =
      (⟨table, .between⟩,
        [.pulled (Command.indented s.argv), .askedFile (Path.normalize source),
          .entry ⟨s.directory, Command.join s.argv, Path.normalize source⟩]) := by
  have hcompile := Command.compile_without_include fileExists table s.tokens_indented s.no_include
    hi hsource s.directory
  rw [run_cons]
  simp [step, take, takeCompile, s.isInvocation_indented, hcompile, Questions.keepingAll]

theorem run_buildStep (s : BuildStep) :
    ∃ e, s.Gives e ∧
      run (step (.keepingAll fileExists)) ⟨table, .between⟩ s.lines =
        (⟨table, .between⟩, sectionEvents s e) := by
  obtain ⟨i, source, hi, hsource⟩ := s.exists_source
  refine ⟨⟨s.directory, Command.join s.argv, Path.normalize source⟩,
    ⟨rfl, rfl, i, source, hi, hsource, rfl⟩, ?_⟩
  rw [BuildStep.lines, run_append, run_append, run_append, run_opening,
    run_seeking s.before_no_invocation, run_command fileExists table s hi hsource,
    run_between s.after_no_marker]
  rfl

/-! ## The run over the whole log -/

def buildLog (steps : List BuildStep) : List String := steps.flatMap BuildStep.lines

theorem entries_sectionEvents (s : BuildStep) (e : Entry) :
    Trace.entries (sectionEvents s e) = [e] := by
  have hpulled : ∀ lines : List String, Trace.entries (lines.map .pulled) = [] :=
    unseen fun _ => rfl
  rw [sectionEvents, entries_append, entries_append, entries_append, hpulled, hpulled]
  rfl

theorem mappings_sectionEvents (s : BuildStep) (e : Entry) :
    Trace.mappings (sectionEvents s e) = [] := by
  have hpulled : ∀ lines : List String, Trace.mappings (lines.map .pulled) = [] :=
    unseen fun _ => rfl
  rw [sectionEvents, mappings_append, mappings_append, mappings_append, hpulled, hpulled]
  rfl

theorem failure?_sectionEvents (s : BuildStep) (e : Entry) :
    Trace.failure? (sectionEvents s e) = none := by
  have hpulled : ∀ lines : List String, Trace.failure? (lines.map .pulled) = none := by
    simp [Trace.failure?, Event.failed?]
  rw [sectionEvents, failure?_append, failure?_append, failure?_append, hpulled, hpulled]
  rfl

theorem run_buildLog (steps : List BuildStep) :
    ∃ events,
      run (step (.keepingAll fileExists)) ⟨table, .between⟩ (buildLog steps) =
        (⟨table, .between⟩, events) ∧
      List.Forall₂ BuildStep.Gives steps (Trace.entries events) ∧
      Trace.mappings events = [] ∧ Trace.failure? events = none := by
  induction steps with
  | nil => exact ⟨[], rfl, List.Forall₂.nil, rfl, rfl⟩
  | cons s steps ih =>
      obtain ⟨e, he, hs⟩ := run_buildStep fileExists table s
      obtain ⟨events, hrun, hentries, hmappings, hfailure⟩ := ih
      refine ⟨sectionEvents s e ++ events, ?_, ?_, ?_, ?_⟩
      · rw [buildLog, List.flatMap_cons, run_append, hs]
        exact congrArg (fun r => (r.1, sectionEvents s e ++ r.2)) hrun
      · rw [entries_append, entries_sectionEvents]
        exact List.Forall₂.cons he hentries
      · rw [mappings_append, mappings_sectionEvents, hmappings, List.nil_append]
      · rw [failure?_append, failure?_sectionEvents, hfailure, Option.none_or]

end Scan

/-- **Round trip of a build log.** Scanning the log of a build gives the build back. The scan ends
without a failure and leaves the table as it was. A log without line breaks inside its lines may
also be read from its text. -/
theorem entries_of_build (fileExists : String → Bool) (table : HeaderTable)
    (steps : List BuildStep) :
    let log : Log := ⟨Scan.buildLog steps, none⟩
    let trace := Scan.trace (.keepingAll fileExists) table log
    Trace.failure? trace = none ∧ trace.getLast? = some .ended ∧
      List.Forall₂ BuildStep.Gives steps (Trace.entries trace) ∧
      Trace.tableAfter table trace = table ∧
      ((∀ line ∈ log.lines, Text.IsUnbroken line) →
        Log.ofText (Text.terminated log.lines) .plain = log) := by
  intro log trace
  obtain ⟨events, hrun, hentries, hmappings, hfailure⟩ := Scan.run_buildLog fileExists table steps
  have htrace : trace = events ++ [.ended] := by
    simp only [trace, Scan.trace, log, Scan.start, hrun]
    rfl
  refine ⟨?_, ?_, ?_, ?_, ?_⟩
  · rw [htrace, Scan.failure?_append, hfailure]
    rfl
  · rw [htrace, List.getLast?_concat]
  · rw [htrace, Scan.entries_append, show Trace.entries [.ended] = [] from rfl, List.append_nil]
    exact hentries
  · rw [htrace, Trace.tableAfter, Scan.mappings_append, hmappings]
    rfl
  · intro hunbroken
    rw [Log.ofText, Text.lines_terminated hunbroken]

/-- A step that calls its compiler by a path, with a definition to be quoted and a source to be
reduced. -/
theorem entry_of_quoted_step :
    let step : BuildStep :=
      { directory := "/my project"
        argv := ["/usr/bin/clang", "-DS=\"x y\"", "-c", "lib/../a.c", "-o", "a.o"]
        marker := "CompileC a.o"
        before := ["export LANG=C"]
        after := ["1 warning generated."]
        marker_compile := by decide +kernel
        before_no_invocation := by decide +kernel
        after_no_marker := by decide +kernel
        no_include := by decide +kernel
        calls_compiler := ⟨0, 2, 4, by decide, by decide, ⟨_, rfl, by decide +kernel⟩, rfl, rfl⟩ }
    Scan.buildLog [step] =
        ["CompileC a.o", "    cd '/my project'", "export LANG=C",
          "    /usr/bin/clang '-DS=\"x y\"' -c lib/../a.c -o a.o", "1 warning generated."] ∧
      Trace.entries (Scan.trace (.keepingAll fun _ => false) .empty ⟨Scan.buildLog [step], none⟩) =
        [⟨"/my project", "/usr/bin/clang \"-DS=\\\"x y\\\"\" -c lib/../a.c -o a.o", "a.c"⟩] := by
  intro step
  obtain ⟨-, -, hgives, -⟩ := entries_of_build (fun _ => false) .empty [step]
  refine ⟨by decide +kernel, ?_⟩
  obtain ⟨e, es, ⟨hdirectory, hcommand, hfile⟩, hnone, hentries⟩ := List.forall₂_cons_left_iff.mp hgives
  obtain rfl := List.forall₂_nil_left_iff.mp hnone
  -- the last `-c` that is read as a flag has this operand
  obtain ⟨i, source, hlast, hsource, hfile⟩ := hfile
  have hoperand := (Command.getLast?_operands_iff (by decide)).mpr ⟨i, hlast, hsource⟩
  have hread : (Command.operands "-c" (Command.Argument.read Command.compileFlags step.argv)).getLast? =
      some "lib/../a.c" := by decide +kernel
  obtain rfl : source = "lib/../a.c" := Option.some.inj (hoperand.symm.trans hread)
  obtain ⟨directory, command, file⟩ := e
  simp only at hdirectory hcommand hfile
  rw [hentries, hdirectory, hcommand, hfile]
  decide +kernel

end CompileCommands
