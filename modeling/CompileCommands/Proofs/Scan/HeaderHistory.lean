import CompileCommands.Proofs.HeaderTable
import CompileCommands.Proofs.Scan.Steps

/-!
# Precompiled headers and the history of a log

At every point of a scan the table holds what the precompile sections before that point have
mapped, over what it held at first. An include path of a compile section is therefore resolved
against the part of the log before its section, and nothing that comes later plays a part
(`headers_of_history`).
-/

namespace CompileCommands

/-! ## Include paths -/

namespace Command

/-- What an include path stands for, where `header` gives the headers of artifacts: itself where it
exists, else the header of the path with `.pth`, of the path with `.pch`, or of the path. -/
def standIn? (fileExists : String → Bool) (header : String → Option String) (path : String) :
    Option String :=
  if fileExists path then some path
  else (header (path ++ ".pth")).or ((header (path ++ ".pch")).or (header path))

theorem header?_eq_standIn? (fileExists : String → Bool) {table : HeaderTable}
    {header : String → Option String} (h : ∀ artifact, table.get? artifact = header artifact) :
    header? fileExists table = standIn? fileExists header := by
  funext path
  unfold header? standIn?
  by_cases hexists : fileExists path = true
  · rw [if_pos hexists, if_pos hexists]
  · rw [if_neg hexists, if_neg hexists]
    simp only [HeaderTable.resolve?, HeaderTable.endings, List.findSome?_cons,
      List.findSome?_nil, String.append_empty, h]
    cases header (path ++ ".pth") with
    | some source => rfl
    | none =>
        cases header (path ++ ".pch") with
        | some source => rfl
        | none => cases header path <;> rfl

def compileOperands (flag : String) (args : List String) : List String :=
  (List.range args.length).filterMap (operandAt? flag compileFlags args)

end Command

namespace Scan

open Transducer

/-! ## The end of a section -/

/-- Behind these lines, the line ends a section. -/
def Closes (excludes : String → Bool) (read : List String) (line : String) (kind : SectionKind)
    (directory : String) : Prop :=
  sections excludes (read ++ [line]) = sections excludes read ++ [⟨kind, directory, line⟩]

theorem closes_iff_closing {excludes : String → Bool} {read : List String} {s : Scan}
    (hphase : s.phase = (run (outlineStep excludes) .between read).1) {line : String}
    {kind : SectionKind} {directory : String} :
    Closes excludes read line kind directory ↔ Closing s line kind directory := by
  rw [Closes, sections_concat, List.append_cancel_left_eq, ← hphase, Closing]
  cases s.phase with
  | between => simp [outlineStep]
  | marked k => simp [outlineStep]
  | stopped => simp [outlineStep]
  | seeking k d =>
      by_cases hline : Command.isInvocation line = true <;> simp [outlineStep, hline]

/-- What a compile command comes to, with `header` giving the header behind each include path. The
first path without one fails. If all have one, a command without a source fails, and any other gives
its entry, unless the file is excluded. -/
def outcomeOfCompile (q : Questions) (header : String → Option String) (line directory : String)
    (args : List String) : List Event :=
  match Command.headless? header (Command.compileOperands "-include" args),
      (Command.compileOperands "-c" args).getLast? with
  | some path, _ => [.failed (.unresolvedHeader path line)]
  | none, none => [.failed (.missingSource line)]
  | none, some source =>
      if q.excludesFile (Path.normalize source) then []
      else
        [.entry ⟨directory, Command.join (Command.withHeaders header args), Path.normalize source⟩]

def eventsOfResult (q : Questions) : Except Failure Entry → List Event
  | .error failure => [.failed failure]
  | .ok entry => if q.excludesFile entry.file then [] else [.entry entry]

theorem take_of_closing (q : Questions) {s : Scan} {line directory : String}
    (h : Closing s line .compile directory) :
    ∃ asides, Asides asides ∧ (s.take q line).2 = asides ++
      eventsOfResult q (Command.compile q.fileExists s.table line directory).result := by
  have hdirectory : ∀ {d}, Closing s line .compile d → d = directory := by
    intro d hd
    simpa using hd.1.symm.trans h.1
  have hother : ∀ {d}, ¬ Closing s line .precompile d := by
    intro d hd
    simpa using hd.1.symm.trans h.1
  have hanswer := take_answer q s line
  generalize s.take q line = r at hanswer
  cases hanswer with
  | quiet houtline =>
      rw [h.outline] at houtline
      cases houtline
  | unmapped hclosing => exact absurd hclosing hother
  | mapped hclosing => exact absurd hclosing hother
  | @excluded d entry asides hclosing hresult hexcluded hasides =>
      rw [hdirectory hclosing] at hresult
      refine ⟨asides, hasides, ?_⟩
      rw [hresult, eventsOfResult, if_pos hexcluded, List.append_nil]
  | @kept d entry asides hclosing hresult hkept hasides =>
      rw [hdirectory hclosing] at hresult
      refine ⟨asides, hasides, ?_⟩
      rw [hresult, eventsOfResult, if_neg (by simp [hkept])]
  | @failed d failure asides hclosing hresult hasides =>
      rw [hdirectory hclosing] at hresult
      refine ⟨asides, hasides, ?_⟩
      rw [hresult, eventsOfResult]

theorem outcomeOfCompile_eq (q : Questions) (table : HeaderTable) {line : String}
    {args : List String} (hargs : Command.tokens line = .ok args) (directory : String) :
    eventsOfResult q (Command.compile q.fileExists table line directory).result =
      outcomeOfCompile q (Command.header? q.fileExists table) line directory args := by
  rw [Command.compile_eq hargs, Command.operands_read (by decide), Command.operands_read (by decide),
    outcomeOfCompile, Command.compileOperands, Command.compileOperands]
  split
  · rename_i path hpath
    rw [hpath]
    rfl
  · rename_i hpath
    rw [hpath]
    split
    · rename_i hsource
      rw [hsource]
      rfl
    · rename_i source hsource
      rw [hsource]
      rfl

/-! ## The scan against its history -/

/-- What a scan has done up to a line that it takes is the front of all that it does. -/
theorem events_initial (q : Questions) {known : HeaderTable} {log : Log} {read : List String}
    (h : read <+: Trace.pulled (trace q known log)) :
    (run (step q) (start known) read).2 <+: trace q known log := by
  rw [pulled_trace] at h
  obtain ⟨rest, hrest⟩ := h.trans (pulled_initial q log.lines (start known))
  rw [trace_eq, ← hrest, run_append, List.append_assoc]
  exact List.prefix_append _ _

/-- A line that a scan takes ends a section exactly if it is the invocation that the scan seeks. -/
theorem closes_iff_of_pulled (q : Questions) {known : HeaderTable} {log : Log} {n : Nat}
    {line : String} (h : (Trace.pulled (trace q known log))[n]? = some line) {kind : SectionKind}
    {directory : String} :
    Closes q.excludesDirectory ((Trace.pulled (trace q known log)).take n) line kind directory ↔
      Closing (run (step q) (start known) ((Trace.pulled (trace q known log)).take n)).1 line kind
        directory := by
  have hread := List.take_prefix n (Trace.pulled (trace q known log))
  have hnext := List.take_prefix (n + 1) (Trace.pulled (trace q known log))
  rw [List.take_add_one, h] at hnext
  have hrunning := (trace_split hnext).1
  have htaken : (Trace.pulled (trace q known log)).take n <+:
      Trace.pulled (run (step q) (start known) log.lines).2 := by
    rw [← pulled_trace]
    exact hread
  obtain ⟨-, hphase⟩ := follows_outline q known _ (pulled_of_pulled q htaken)
  exact closes_iff_closing (hphase.resolve_left hrunning)

/-- **Precompiled headers resolve against the earlier part of the log.** At every point of a scan,
an artifact has the source of its latest mapping before that point, or the header known at first.
The line behind the point changes the table only where it ends a precompile section, and gives an
entry only where it ends a compile section. A compile section resolves its include paths with the
headers at that point, and a path without one ends the scan there. -/
theorem headers_of_history (q : Questions) (known : HeaderTable) (log : Log) (n : Nat) :
    let trace := Scan.trace q known log
    let read := (Trace.pulled trace).take n
    let history := sectionMappings q.excludesDirectory read
    let s := (run (step q) (start known) read).1
    let events := (run (step q) (start known) read).2
    (∀ artifact, s.table.get? artifact = known.headerSince history artifact) ∧
      s.table.size = (HeaderTable.artifacts (known.mappings ++ history)).card ∧
      s.table = Trace.tableAfter known events ∧ events <+: trace ∧
      ∀ line, (Trace.pulled trace)[n]? = some line →
        let next := (s.take q line).1
        let answers := (s.take q line).2
        let closes := Closes q.excludesDirectory read line
        let header := Command.standIn? q.fileExists (known.headerSince history)
        events ++ .pulled line :: answers <+: trace ∧
          ((∀ directory, ¬ closes .precompile directory) → next.table = s.table) ∧
          ((∀ directory, ¬ closes .compile directory) → Trace.entries answers = []) ∧
          ∀ directory, closes .compile directory →
            ∃ args asides, Command.tokens line = .ok args ∧ Asides asides ∧
              answers = asides ++ outcomeOfCompile q header line directory args ∧
              ∀ failure, .failed failure ∈ answers →
                trace = events ++ .pulled line :: answers ∧
                  Trace.failure? trace = some failure := by
  intro trace read history s events
  have hread : read <+: Trace.pulled trace := List.take_prefix n _
  have hpulled : Trace.pulled events = read :=
    pulled_of_pulled q ((pulled_trace q known log) ▸ hread)
  obtain ⟨htable, hphase⟩ := follows_outline q known read hpulled
  have hget : ∀ artifact, s.table.get? artifact = known.headerSince history artifact := by
    intro artifact
    rw [← HeaderTable.get?_insertAll]
    exact congrArg (·.get? artifact) htable
  refine ⟨hget, ?_, run_tableAfter q read (start known), events_initial q hread, ?_⟩
  · rw [← HeaderTable.size_insertAll]
    exact congrArg HeaderTable.size htable
  intro line hline next answers closes header
  have hnext : read ++ [line] <+: Trace.pulled trace := by
    have htake := List.take_prefix (n + 1) (Trace.pulled trace)
    rwa [List.take_add_one, hline] at htake
  obtain ⟨hrunning, after, hsplit, hstop⟩ := trace_split hnext
  -- the scan still runs, so its phase says what the line ends
  have hcloses : ∀ {kind directory}, closes kind directory ↔ Closing s line kind directory :=
    closes_iff_closing (hphase.resolve_left hrunning)
  refine ⟨⟨after, hsplit.symm⟩, ?_, ?_, ?_⟩
  · intro h
    exact table_take q fun directory hclosing => h directory (hcloses.mpr hclosing)
  · intro h
    exact entries_take q fun directory hclosing => h directory (hcloses.mpr hclosing)
  · intro directory h
    have hclosing := hcloses.mp h
    obtain ⟨args, hargs⟩ := Command.tokens_of_isInvocation hclosing.2
    obtain ⟨asides, hasides, hanswers⟩ := take_of_closing q hclosing
    refine ⟨args, asides, hargs, hasides, ?_, ?_⟩
    · rw [outcomeOfCompile_eq q s.table hargs, Command.header?_eq_standIn? q.fileExists hget]
        at hanswers
      exact hanswers
    · exact fun failure hfailure => trace_of_failed hnext hfailure

end Scan

end CompileCommands
