import CompileCommands.Proofs.Scan.HeaderHistory

/-!
# Leaving out files

A scan asks whether a file is excluded when the file's command has been read and nothing is left to
go wrong with it. So the scan with excluded files does, line by line and in every state, what the
scan without them does, and only tells of an entry where it would have given it (`take_withhold`).
The two rows of events are the same but for that, and so the entries are filtered, and nothing else
changes (`file_exclusion_filters`).
-/

namespace CompileCommands

/-- An event where some files are excluded: an entry of such a file is told of instead of given. -/
def Event.withhold (excludesFile : String → Bool) : Event → Event
  | .entry e => if excludesFile e.file then .logged (.excludedFile e.file) else .entry e
  | e => e

def Questions.keepingFiles (q : Questions) : Questions := { q with excludesFile := fun _ => false }

namespace Scan

open Transducer

/-! ## One line -/

theorem take_keepingFiles (q : Questions) {s : Scan} {line : String}
    (h : ∀ directory, ¬ Closing s line .compile directory) :
    s.take q.keepingFiles line = s.take q line := by
  have hsame : q.keepingFiles.excludesDirectory = q.excludesDirectory := rfl
  obtain ⟨hphase, hevents⟩ := take_elsewhere hsame (rfl : s.phase = s.phase) h
  have htable : (s.take q.keepingFiles line).1.table = (s.take q line).1.table := by
    rw [take_table, take_table]
    rfl
  exact Prod.ext (Scan.ext htable hphase) hevents

/-- A file is asked about nowhere but at the invocation of a compile section. -/
theorem askedFiles_elsewhere (q : Questions) {s : Scan} {line : String}
    (h : ∀ directory, ¬ Closing s line .compile directory) :
    (s.take q line).2.filterMap Event.askedFile? = [] := by
  rcases events_elsewhere q h with hrow | ⟨_, hrow⟩ | ⟨_, _, -, hrow⟩ | ⟨_, hrow⟩
  all_goals
    rw [hrow]
    rfl

theorem map_withhold_of_no_entries {excludesFile : String → Bool} {events : List Event}
    (h : Trace.entries events = []) : events.map (Event.withhold excludesFile) = events := by
  conv_rhs => rw [← List.map_id events]
  refine List.map_congr_left fun e he => ?_
  have hnone : e.entry? = none := List.filterMap_eq_nil_iff.mp h e he
  cases e with
  | entry entry => cases hnone
  | _ => rfl

theorem takeCompile_withhold (q : Questions) (table : HeaderTable) (line directory : String) :
    takeCompile q table line directory =
      ((takeCompile q.keepingFiles table line directory).1,
        (takeCompile q.keepingFiles table line directory).2.map
          (Event.withhold q.excludesFile)) := by
  have hasked : ∀ paths : List String,
      (paths.map Event.askedExists).map (Event.withhold q.excludesFile) =
        paths.map .askedExists :=
    fun paths => map_withhold_of_no_entries (asides_asked paths).entries
  rw [takeCompile, takeCompile]
  simp only [Questions.keepingFiles]
  cases (Command.compile q.fileExists table line directory).result with
  | error failure =>
      rw [List.map_append, hasked]
      rfl
  | ok entry =>
      rw [List.map_append, hasked]
      rfl

theorem take_withhold (q : Questions) (s : Scan) (line : String) :
    s.take q line =
      ((s.take q.keepingFiles line).1,
        (s.take q.keepingFiles line).2.map (Event.withhold q.excludesFile)) := by
  by_cases hcompile : ∃ directory, Closing s line .compile directory
  · obtain ⟨directory, hclosing⟩ := hcompile
    rw [take_of_closing_compile q hclosing, take_of_closing_compile q.keepingFiles hclosing]
    exact takeCompile_withhold q s.table line directory
  · have hother := not_exists.mp hcompile
    rw [take_keepingFiles q hother, map_withhold_of_no_entries (entries_take q hother)]

/-- Where no file is excluded, the scan asks about the file of each entry that it gives. -/
theorem askedFiles_take (q : Questions) (s : Scan) (line : String) :
    (s.take q.keepingFiles line).2.filterMap Event.askedFile? =
      (Trace.entries (s.take q.keepingFiles line).2).map Entry.file := by
  by_cases hcompile : ∃ directory, Closing s line .compile directory
  · obtain ⟨directory, hclosing⟩ := hcompile
    have hasked : ∀ paths : List String,
        (paths.map Event.askedExists).filterMap Event.askedFile? = [] := unseen fun _ => rfl
    rw [take_of_closing_compile q.keepingFiles hclosing, takeCompile]
    have hentries := (asides_asked (Command.compile q.keepingFiles.fileExists s.table line
      directory).asked).entries
    cases (Command.compile q.keepingFiles.fileExists s.table line directory).result with
    | error failure =>
        rw [entries_append, List.filterMap_append, hasked, hentries]
        rfl
    | ok entry =>
        rw [entries_append, List.filterMap_append, hasked, hentries]
        rfl
  · have hother := not_exists.mp hcompile
    rw [take_keepingFiles q hother, askedFiles_elsewhere q hother, entries_take q hother]
    rfl

/-! ## The whole scan -/

theorem step_withhold (q : Questions) (s : Scan) (line : String) :
    step q s line =
      ((step q.keepingFiles s line).1,
        (step q.keepingFiles s line).2.map (Event.withhold q.excludesFile)) := by
  by_cases h : s.phase = .stopped
  · rw [step_of_stopped h, step_of_stopped h]
    rfl
  · rw [step_of_running h, step_of_running h, take_withhold]
    rfl

theorem finish_withhold (excludesFile : String → Bool) (s : Scan) (failure : Option Failure) :
    (s.finish failure).map (Event.withhold excludesFile) = s.finish failure := by
  obtain ⟨table, phase⟩ := s
  cases phase <;> cases failure <;> rfl

theorem trace_withhold (q : Questions) (known : HeaderTable) (log : Log) :
    trace q known log =
      (trace q.keepingFiles known log).map (Event.withhold q.excludesFile) := by
  rw [trace_eq, trace_eq, run_map _ (step_withhold q), List.map_append, finish_withhold]

theorem askedFiles_run (q : Questions) (s : Scan) (lines : List String) :
    (run (step q.keepingFiles) s lines).2.filterMap Event.askedFile? =
      (Trace.entries (run (step q.keepingFiles) s lines).2).map Entry.file := by
  induction lines generalizing s with
  | nil => rfl
  | cons line lines ih =>
      rw [run_cons, List.filterMap_append, entries_append, List.map_append, ih]
      congr 1
      by_cases h : s.phase = .stopped
      · rw [step_of_stopped h]
        rfl
      · rw [step_of_running h]
        exact askedFiles_take q s line

theorem askedFiles_trace (q : Questions) (known : HeaderTable) (log : Log) :
    (trace q.keepingFiles known log).filterMap Event.askedFile? =
      (Trace.entries (trace q.keepingFiles known log)).map Entry.file := by
  have hfinish : ∀ s : Scan, (s.finish log.failure).filterMap Event.askedFile? = [] := by
    rintro ⟨table, phase⟩
    cases phase <;> cases log.failure <;> rfl
  rw [trace_eq, List.filterMap_append, entries_append, askedFiles_run, hfinish, entries_finish,
    List.append_nil, List.append_nil]

/-! ## What is left of the row -/

theorem filterMap_withhold {β : Type} {view : Event → Option β} {excludesFile : String → Bool}
    (hentry : ∀ e, view (.entry e) = none)
    (htold : ∀ file, view (.logged (.excludedFile file)) = none) (events : List Event) :
    (events.map (Event.withhold excludesFile)).filterMap view = events.filterMap view := by
  rw [List.filterMap_map]
  refine List.filterMap_congr fun e _ => ?_
  cases e with
  | entry entry =>
      by_cases hexcluded : excludesFile entry.file = true <;>
        simp [Event.withhold, hexcluded, hentry, htold]
  | _ => rfl

theorem entries_withhold (excludesFile : String → Bool) (events : List Event) :
    Trace.entries (events.map (Event.withhold excludesFile)) =
      (Trace.entries events).filter fun e => !excludesFile e.file := by
  induction events with
  | nil => rfl
  | cons e events ih =>
      cases e with
      | entry entry =>
          rw [List.map_cons, Event.withhold]
          by_cases hexcluded : excludesFile entry.file = true
          · rw [if_pos hexcluded]
            show Trace.entries (events.map _) = (entry :: Trace.entries events).filter _
            rw [ih, List.filter_cons_of_neg (by simp [hexcluded])]
          · rw [if_neg hexcluded]
            show entry :: Trace.entries (events.map _) = (entry :: Trace.entries events).filter _
            rw [ih, List.filter_cons_of_pos (by simp [hexcluded])]
      | _ => exact ih

theorem failure?_withhold (excludesFile : String → Bool) (events : List Event) :
    Trace.failure? (events.map (Event.withhold excludesFile)) = Trace.failure? events := by
  rw [failure?_eq_head?, failure?_eq_head?, filterMap_withhold (fun _ => rfl) fun _ => rfl]

theorem getLast?_withhold (q : Questions) (known : HeaderTable) (log : Log) :
    (trace q known log).getLast? = (trace q.keepingFiles known log).getLast? := by
  obtain ⟨front, last, hall, -, hlast⟩ := trace_ending q.keepingFiles known log
  rw [trace_withhold, hall, List.map_append, List.map_singleton, List.getLast?_concat,
    List.getLast?_concat]
  rcases hlast with ⟨rfl, -⟩ | ⟨f, rfl, -⟩
  · rfl
  · rfl

/-! ## The file of an entry -/

/-- The file is the source that the line compiles, in its normal form. -/
def CompiledBy (line file : String) : Prop :=
  ∃ args i source, Command.tokens line = .ok args ∧
    Command.IsLastFlag "-c" Command.compileFlags args i ∧ args[i + 1]? = some source ∧
      file = Path.normalize source

theorem compiledBy_of_result {fileExists : String → Bool} {table : HeaderTable}
    {line directory : String} {entry : Entry} (hline : Command.isInvocation line = true)
    (h : (Command.compile fileExists table line directory).result = .ok entry) :
    CompiledBy line entry.file := by
  obtain ⟨args, hargs⟩ := Command.tokens_of_isInvocation hline
  obtain ⟨-, source, hlast, rfl⟩ := (Command.result_eq_ok_iff hargs).mp h
  obtain ⟨i, hi, hsource⟩ := (Command.getLast?_operands_iff (by decide)).mp hlast
  exact ⟨args, i, source, hargs, hi, hsource, rfl⟩

theorem compiledBy_of_mem_entries {q : Questions} {known : HeaderTable} {log : Log} {entry : Entry}
    (h : entry ∈ Trace.entries (trace q known log)) :
    ∃ line ∈ Trace.pulled (trace q known log), CompiledBy line entry.file := by
  obtain ⟨e, hmem, he⟩ := List.mem_filterMap.mp h
  obtain rfl : e = .entry entry := by
    cases e with
    | entry other => exact congrArg Event.entry (Option.some.inj he)
    | _ => cases he
  rw [trace_eq] at hmem
  rcases List.mem_append.mp hmem with hmem | hmem
  · obtain ⟨read, line, hread, hline | hanswer⟩ := exists_line_of_mem q hmem
    · cases hline
    · obtain ⟨_, hclosing, hresult⟩ := closing_of_entry (List.mem_filterMap.mpr ⟨_, hanswer, rfl⟩)
      refine ⟨line, ?_, compiledBy_of_result hclosing.2 hresult⟩
      rw [pulled_trace]
      exact hread.subset (by simp)
  · have hentries : entry ∈ Trace.entries ((run (step q) (start known) log.lines).1.finish
        log.failure) := List.mem_filterMap.mpr ⟨_, hmem, rfl⟩
    rw [entries_finish] at hentries
    cases hentries

/-- **Leaving out files filters the entries.** The scan that leaves out files does what the scan
without them does, event by event, and only tells of the entries that it leaves out. So the entries
are filtered, in order, and nothing else changes: the lines taken, the other questions, the table,
and the end or the failure. It asks about the file of each entry of that scan once, in order, which
is the normal form of a source in the log, and at no line that does not end a compile section. -/
theorem file_exclusion_filters (q : Questions) (known : HeaderTable) (log : Log) :
    let all := Scan.trace q.keepingFiles known log
    let trace := Scan.trace q known log
    trace = all.map (Event.withhold q.excludesFile) ∧
      Trace.entries trace = (Trace.entries all).filter (fun e => !q.excludesFile e.file) ∧
      trace.getLast? = all.getLast? ∧ Trace.failure? trace = Trace.failure? all ∧
      Trace.pulled trace = Trace.pulled all ∧
      trace.filterMap Event.askedExists? = all.filterMap Event.askedExists? ∧
      trace.filterMap Event.askedDirectory? = all.filterMap Event.askedDirectory? ∧
      Trace.tableAfter known trace = Trace.tableAfter known all ∧
      trace.filterMap Event.askedFile? = (Trace.entries all).map Entry.file ∧
      (∀ e ∈ Trace.entries all, ∃ line ∈ Trace.pulled all, CompiledBy line e.file) ∧
      ∀ n line, (Trace.pulled trace)[n]? = some line →
        let read := (Trace.pulled trace).take n
        (∀ directory, ¬ Closes q.excludesDirectory read line .compile directory) →
          ((run (step q) (start known) read).1.take q line).2.filterMap Event.askedFile? = [] := by
  intro all trace
  have hrow : trace = all.map (Event.withhold q.excludesFile) := trace_withhold q known log
  have hview : ∀ {β : Type} {view : Event → Option β}, (∀ e, view (.entry e) = none) →
      (∀ file, view (.logged (.excludedFile file)) = none) →
        trace.filterMap view = all.filterMap view := by
    intro β view hentry htold
    rw [hrow]
    exact filterMap_withhold hentry htold all
  refine ⟨hrow, ?_, getLast?_withhold q known log, ?_, hview (fun _ => rfl) fun _ => rfl,
    hview (fun _ => rfl) fun _ => rfl, hview (fun _ => rfl) fun _ => rfl, ?_, ?_,
    fun e he => compiledBy_of_mem_entries he, ?_⟩
  · rw [hrow, entries_withhold]
  · rw [hrow, failure?_withhold]
  · exact congrArg known.insertAll (hview (fun _ => rfl) fun _ => rfl)
  · rw [hview (fun _ => rfl) fun _ => rfl]
    exact askedFiles_trace q known log
  · intro n line hline read hother
    refine askedFiles_elsewhere q fun directory hclosing => hother directory ?_
    exact (closes_iff_of_pulled q hline).mpr hclosing

end Scan

end CompileCommands
