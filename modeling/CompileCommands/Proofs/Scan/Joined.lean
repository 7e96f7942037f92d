import CompileCommands.Proofs.Scan.Segments

/-!
# Logs one behind the other

Between two sections a scan holds nothing of the lines before but its table. That it stands between
two sections can be told from the lines by their indices: each section has its directory line and,
unless the directory is excluded, its invocation (`NoneOpen`, `outline_between_iff`). Lines behind
such a log are therefore scanned as a log of their own, from the table that the first has left. A
scan that fails takes no further line, so nothing put behind its log changes it (`scans_compose`).
-/

namespace CompileCommands.Scan

open Transducer

/-! ## Open sections -/

/-- The log ends before the section does. -/
def Segment.isCut : Segment → Bool
  | cut _ => true
  | excluded _ | finished _ _ => false

/-- No section is open behind these lines: each has its directory line and, unless the directory is
excluded, its invocation. -/
def NoneOpen (excludes : String → Bool) (lines : List String) : Prop :=
  ∀ s ∈ segmentsFrom excludes lines 0, s.isCut = false

section Outline

variable (excludes : String → Bool) {lines : List String} {bound i : Nat}

/-- The outline passes over what stands before a marker. -/
theorem outline_marker (h : firstFrom isMarker lines bound = some i) :
    ∃ kind, run (outlineStep excludes) .between (lines.drop bound) =
      run (outlineStep excludes) (.marked kind) (lines.drop (i + 1)) := by
  obtain ⟨noise, marker, hdrop, -, hnoise, -, hopens⟩ := drop_of_firstFrom h
  obtain ⟨kind, hkind⟩ : ∃ kind, SectionKind.ofLine? marker = some kind :=
    Option.isSome_iff_exists.mp hopens
  have hbefore : run (outlineStep excludes) .between noise = (.between, []) :=
    outline_between fun line hline => isNoise_of_not_marker (hnoise line hline)
  refine ⟨kind, ?_⟩
  rw [hdrop, run_append, hbefore, run_cons]
  simp [outlineStep, hkind]

theorem outline_directory {directoryLine : String} (h : firstFrom isMarker lines bound = some i)
    (hdirectory : lines[i + 1]? = some directoryLine) :
    ∃ kind, run (outlineStep excludes) .between (lines.drop bound) =
      run (outlineStep excludes)
        (if excludes (Command.directory directoryLine) then .between
          else .seeking kind (Command.directory directoryLine)) (lines.drop (i + 2)) := by
  obtain ⟨kind, hmarked⟩ := outline_marker excludes h
  refine ⟨kind, ?_⟩
  rw [hmarked, List.drop_eq_getElem?_toList_append (i := i + 1), hdirectory]
  show run (outlineStep excludes) (.marked kind) (directoryLine :: lines.drop (i + 2)) = _
  rw [run_cons]
  rfl

theorem outline_between_iff_from (lines : List String) (bound : Nat) :
    (run (outlineStep excludes) .between (lines.drop bound)).1 = .between ↔
      ∀ s ∈ segmentsFrom excludes lines bound, s.isCut = false := by
  induction bound using segmentsFrom.induct excludes lines with
  | case1 bound h =>
      have hnoise : ∀ line ∈ lines.drop bound, isNoise line = true :=
        fun line hline => isNoise_of_not_marker (none_of_firstFrom h line hline)
      rw [segmentsFrom_of_none h, outline_between hnoise]
      simp
  | case2 bound i h hnone =>
      obtain ⟨kind, hmarked⟩ := outline_marker excludes h
      have hend : lines.drop (i + 1) = [] := by
        rw [List.drop_eq_nil_iff]
        exact List.getElem?_eq_none_iff.mp hnone
      rw [segmentsFrom_of_cut h hnone, hmarked, hend]
      simp [Segment.isCut]
  | case3 bound i h directoryLine hdirectory hexcluded ih =>
      obtain ⟨kind, hskipped⟩ := outline_directory excludes h hdirectory
      rw [segmentsFrom_of_excluded h hdirectory hexcluded, hskipped, if_pos hexcluded, ih]
      simp [Segment.isCut]
  | case4 bound i h directoryLine hdirectory hkept hopen =>
      obtain ⟨kind, hseeking⟩ := outline_directory excludes h hdirectory
      rw [segmentsFrom_of_open h hdirectory (by simpa using hkept) hopen, hseeking, if_neg hkept,
        outline_seeking (none_of_firstFrom hopen)]
      simp [Segment.isCut]
  | case5 bound i h directoryLine hdirectory hkept j hfound ih =>
      obtain ⟨kind, hseeking⟩ := outline_directory excludes h hdirectory
      obtain ⟨body, invocation, hrest, -, hbody, -, hinvokes⟩ := drop_of_firstFrom hfound
      rw [segmentsFrom_of_found h hdirectory (by simpa using hkept) hfound, hseeking, if_neg hkept,
        hrest, run_append, outline_seeking hbody, run_cons]
      simp only [outlineStep, if_pos hinvokes]
      rw [ih]
      simp [Segment.isCut]

variable {excludes}

/-- The outline is between two sections exactly if no section is open. -/
theorem outline_between_iff :
    (run (outlineStep excludes) .between lines).1 = .between ↔ NoneOpen excludes lines :=
  outline_between_iff_from excludes lines 0

end Outline

/-- A scan that has not stopped is in the phase of the outline. -/
theorem phase_of_running (q : Questions) {known : HeaderTable} {lines : List String}
    (h : (run (step q) (start known) lines).1.phase ≠ .stopped) :
    (run (step q) (start known) lines).1.phase =
      (run (outlineStep q.excludesDirectory) .between lines).1 :=
  ((follows_outline q known lines (pulled_of_running q h)).2).resolve_left h

/-! ## Two logs -/

theorem trace_append (q : Questions) (known : HeaderTable) (lines : List String) (later : Log) :
    trace q known ⟨lines ++ later.lines, later.failure⟩ =
      (run (step q) (start known) lines).2 ++
        eventsFrom q later.failure (run (step q) (start known) lines).1 later.lines := by
  rw [trace_eq]
  exact eventsFrom_append lines later.lines

/-- Behind a log that leaves no section open, a scan starts anew with the table left. -/
theorem run_of_noneOpen {q : Questions} {known : HeaderTable} {lines : List String}
    (hclosed : NoneOpen q.excludesDirectory lines)
    (hends : Trace.failure? (trace q known ⟨lines, none⟩) = none) :
    trace q known ⟨lines, none⟩ = (run (step q) (start known) lines).2 ++ [.ended] ∧
      (run (step q) (start known) lines).1 =
        start (Trace.tableAfter known (trace q known ⟨lines, none⟩)) := by
  obtain ⟨hrunning, -⟩ := failure?_eq_none_iff.mp hends
  have hphase : (run (step q) (start known) lines).1.phase = .between := by
    rw [phase_of_running q hrunning]
    exact outline_between_iff.mpr hclosed
  have htrace : trace q known ⟨lines, none⟩ =
      (run (step q) (start known) lines).2 ++ [.ended] := by
    rw [trace_eq]
    simp only [finish, hphase]
  refine ⟨htrace, Scan.ext ?_ hphase⟩
  -- the end of the log maps nothing
  rw [htrace, tableAfter_append, run_tableAfter]
  rfl

/-- A log whose scan fails stops it before anything that is put behind. -/
theorem trace_append_of_failure {q : Questions} {known : HeaderTable} {lines : List String}
    {failure : Failure} (h : Trace.failure? (trace q known ⟨lines, none⟩) = some failure)
    (later : Log) :
    trace q known ⟨lines ++ later.lines, later.failure⟩ = trace q known ⟨lines, none⟩ := by
  have hstopped : (run (step q) (start known) lines).1.phase = .stopped := by
    by_contra hrunning
    have hnone : Trace.failure? (trace q known ⟨lines, none⟩) = none :=
      failure?_eq_none_iff.mpr ⟨hrunning, rfl⟩
    rw [hnone] at h
    cases h
  rw [trace_append, eventsFrom_stopped hstopped, trace_eq, finish_of_stopped hstopped]

theorem getLast?_trace_append (q : Questions) (known : HeaderTable) (log : Log)
    (events : List Event) :
    (events ++ trace q known log).getLast? = (trace q known log).getLast? := by
  obtain ⟨front, last, htrace, -, -⟩ := trace_ending q known log
  rw [htrace, ← List.append_assoc, List.getLast?_concat, List.getLast?_concat]

/-- **Scans compose.** Where the scan of some lines ends without a failure and leaves no section
open, the scan of these lines and of a log behind them does first what the scan of the lines does,
and then what the scan of the log does from the table that the first has left. Where it fails, the
scan is the same whatever stands behind. -/
theorem scans_compose (q : Questions) (known : HeaderTable) (lines : List String) (later : Log) :
    let first := Scan.trace q known ⟨lines, none⟩
    let second := Scan.trace q (Trace.tableAfter known first) later
    let both := Scan.trace q known ⟨lines ++ later.lines, later.failure⟩
    (Trace.failure? first = none → NoneOpen q.excludesDirectory lines →
      first.getLast? = some .ended ∧ both = first.dropLast ++ second ∧
        Trace.entries both = Trace.entries first ++ Trace.entries second ∧
        Trace.messages both = Trace.messages first ++ Trace.messages second ∧
        both.filterMap Event.askedDirectory? =
          first.filterMap Event.askedDirectory? ++ second.filterMap Event.askedDirectory? ∧
        both.filterMap Event.askedFile? =
          first.filterMap Event.askedFile? ++ second.filterMap Event.askedFile? ∧
        both.filterMap Event.askedExists? =
          first.filterMap Event.askedExists? ++ second.filterMap Event.askedExists? ∧
        Trace.tableAfter known both =
          Trace.tableAfter (Trace.tableAfter known first) second ∧
        Trace.failure? both = Trace.failure? second ∧ both.getLast? = second.getLast?) ∧
      ∀ failure, Trace.failure? first = some failure →
        both = first ∧ Trace.failure? both = some failure ∧
          Trace.entries both = Trace.entries first := by
  intro first second both
  constructor
  · intro hends hclosed
    obtain ⟨hfirst, hnext⟩ := run_of_noneOpen hclosed hends
    have hboth : both = first.dropLast ++ second := by
      show Scan.trace q known ⟨lines ++ later.lines, later.failure⟩ = _
      rw [trace_append, hnext, show first = _ from hfirst, List.dropLast_concat]
      rfl
    have hview : ∀ {β : Type} {view : Event → Option β}, view .ended = none →
        both.filterMap view = first.filterMap view ++ second.filterMap view := by
      intro β view hended
      rw [hboth, List.filterMap_append, show first = _ from hfirst, List.dropLast_concat,
        List.filterMap_append, List.filterMap_cons_none hended, List.filterMap_nil,
        List.append_nil]
    have hmappings : Trace.mappings both = Trace.mappings first ++ Trace.mappings second :=
      hview rfl
    refine ⟨getLast?_of_ends hends, hboth, hview rfl, hview rfl, hview rfl, hview rfl, hview rfl,
      ?_, ?_, ?_⟩
    · rw [Trace.tableAfter, hmappings, HeaderTable.insertAll, List.foldl_append]
      rfl
    · have hbefore : Trace.failure? first.dropLast = none := by
        rw [show first = _ from hfirst, failure?_append, Option.or_eq_none_iff] at hends
        rw [show first = _ from hfirst, List.dropLast_concat]
        exact hends.1
      rw [hboth, failure?_append, hbefore, Option.none_or]
    · rw [hboth]
      exact getLast?_trace_append q _ later _
  · intro failure hfails
    have hboth : both = first := trace_append_of_failure hfails later
    rw [hboth]
    exact ⟨rfl, hfails, rfl⟩

/-- A header of the first log serves the second. In the other order its include path leads nowhere,
and nothing is scanned behind that. -/
theorem compose_over_header :
    let q : Questions := ⟨(· = "/vendor"), fun _ => false, fun _ => false⟩
    let headers :=
      ["ProcessPCH p.h.pch", "cd /w", "cc -c src/p.h -o p.h.pch", "CompileC z", "cd /vendor"]
    let sources := ["CompileC a.o", "cd /w", "cc -include p.h -c a.c -o a.o"]
    let first := Scan.trace q .empty ⟨headers, none⟩
    let second := Scan.trace q (Trace.tableAfter .empty first) ⟨sources, none⟩
    let both := Scan.trace q .empty ⟨headers ++ sources, none⟩
    let broken := Scan.trace q .empty ⟨sources, none⟩
    Trace.failure? first = none ∧ NoneOpen q.excludesDirectory headers ∧
      both = first.dropLast ++ second ∧
      (Trace.entries both).map Entry.command = ["cc -include src/p.h -c a.c -o a.o"] ∧
      Trace.failure? broken =
        some (.unresolvedHeader "p.h" "cc -include p.h -c a.c -o a.o") ∧
      Scan.trace q .empty ⟨sources ++ headers, none⟩ = broken := by
  intro q headers sources first second both broken
  have hends : Trace.failure? first = none := by decide +kernel
  have hclosed : NoneOpen q.excludesDirectory headers :=
    outline_between_iff.mp (by decide +kernel)
  have hfails : Trace.failure? broken =
      some (.unresolvedHeader "p.h" "cc -include p.h -c a.c -o a.o") := by decide +kernel
  have hcompose := (scans_compose q .empty headers ⟨sources, none⟩).1 hends hclosed
  have hstops := (scans_compose q .empty sources ⟨headers, none⟩).2 _ hfails
  exact ⟨hends, hclosed, hcompose.2.1, by decide +kernel, hfails, hstops.1⟩

end CompileCommands.Scan
