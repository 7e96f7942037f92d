import CompileCommands.Proofs.Command.Precompile
import CompileCommands.Proofs.Command.Transcription
import CompileCommands.Proofs.Conversion
import CompileCommands.Proofs.Scan.HeaderHistory

/-!
# The artifacts that a conversion knows

A conversion begins with an empty table, and a precompile command maps nothing but an output with the
ending of an artifact. So at no moment does the table hold an artifact with another ending. An
include path is tried with `.pth`, with `.pch`, and as it is; one of the three can be an artifact only
if the path itself ends in `.h`, `.pch` or `.pch.pth` (`endsIn_of_resolve?`). Every other path that
does not exist ends the conversion at its command, whatever the log holds before it
(`artifacts_of_conversion`).
-/

namespace CompileCommands

open Transducer

def replaceableEndings : List String := [".h", ".pch", ".pch.pth"]

/-! ## Endings -/

/-- Endings of one length at the end of one text are the same, and so is what they stand behind. -/
theorem eq_of_append_eq {path stem tried last : String} (h : path ++ tried = stem ++ last)
    (hlength : tried.toList.length = last.toList.length) : path = stem ∧ tried = last := by
  have hchars := congrArg String.toList h
  rw [String.toList_append, String.toList_append] at hchars
  obtain ⟨hfront, hback⟩ := List.append_inj' hchars hlength
  exact ⟨String.toList_injective hfront, String.toList_injective hback⟩

/-- An artifact's name ends in two endings, one behind the other. -/
theorem halves_of_artifact {output : String} (h : EndsIn Command.artifactEndings output) :
    ∃ stem inner outer, output = stem ++ inner ++ outer ∧
      (inner = ".pch" ∧ (outer = ".pth" ∨ outer = ".pch") ∨ inner = ".h" ∧ outer = ".pch") := by
  obtain ⟨ending, hending, stem, rfl⟩ := h
  have hcut : ∀ inner outer : String, inner ++ outer = ending →
      stem ++ ending = stem ++ inner ++ outer := by
    rintro inner outer rfl
    exact String.append_assoc.symm
  simp only [Command.artifactEndings, List.mem_cons, List.not_mem_nil, or_false] at hending
  rcases hending with rfl | rfl | rfl
  · exact ⟨stem, ".pch", ".pth", hcut _ _ (by decide), Or.inl ⟨rfl, Or.inl rfl⟩⟩
  · exact ⟨stem, ".pch", ".pch", hcut _ _ (by decide), Or.inl ⟨rfl, Or.inr rfl⟩⟩
  · exact ⟨stem, ".h", ".pch", hcut _ _ (by decide), Or.inr ⟨rfl, rfl⟩⟩

/-- A path that is an artifact's name with the ending that is tried behind it. -/
theorem endsIn_of_tried {path tried : String} (htried : tried ∈ HeaderTable.endings)
    (h : EndsIn Command.artifactEndings (path ++ tried)) : EndsIn replaceableEndings path := by
  obtain ⟨stem, inner, outer, hpath, hhalves⟩ := halves_of_artifact h
  have houter : outer.toList.length = 4 := by
    rcases hhalves with ⟨-, rfl | rfl⟩ | ⟨-, rfl⟩ <;> rfl
  -- `.pth` and `.pch` are as long as the outer ending, so the inner one is left
  have hinner : tried.toList.length = 4 → EndsIn replaceableEndings path := by
    intro hlength
    obtain ⟨rfl, -⟩ := eq_of_append_eq hpath (hlength.trans houter.symm)
    refine ⟨inner, ?_, stem, rfl⟩
    rcases hhalves with ⟨rfl, -⟩ | ⟨rfl, -⟩ <;> simp [replaceableEndings]
  simp only [HeaderTable.endings, List.mem_cons, List.not_mem_nil, or_false] at htried
  rcases htried with rfl | rfl | rfl
  · exact hinner rfl
  · exact hinner rfl
  · rw [String.append_empty] at hpath
    have hpch : outer = ".pch" → EndsIn replaceableEndings path := by
      rintro rfl
      exact ⟨".pch", by simp [replaceableEndings], stem ++ inner, hpath⟩
    rcases hhalves with ⟨rfl, rfl | rfl⟩ | ⟨-, rfl⟩
    · exact ⟨".pch.pth", by simp [replaceableEndings], stem, hpath.trans String.append_assoc⟩
    · exact hpch rfl
    · exact hpch rfl

/-! ## Tables of artifacts -/

namespace HeaderTable

/-- Every artifact of the table has the ending of one. -/
def WellNamed (t : HeaderTable) : Prop :=
  ∀ artifact ∈ artifacts t.mappings, EndsIn Command.artifactEndings artifact

theorem wellNamed_insertAll {t : HeaderTable} (ht : t.WellNamed) {ms : List HeaderMapping}
    (hms : ∀ m ∈ ms, Command.isArtifact m.artifact = true) : (t.insertAll ms).WellNamed := by
  intro artifact hartifact
  rw [artifacts_insertAll] at hartifact
  simp only [artifacts, List.map_append, List.mem_toFinset, List.mem_append] at hartifact
  rcases hartifact with hknown | hnew
  · exact ht artifact (List.mem_toFinset.mpr hknown)
  · obtain ⟨m, hm, rfl⟩ := List.mem_map.mp hnew
    exact isArtifact_iff.mp (hms m hm)

theorem endsIn_of_resolve? {t : HeaderTable} (ht : t.WellNamed) {path source : String}
    (h : t.resolve? path = some source) : EndsIn replaceableEndings path := by
  have hsome : (t.resolve? path).isSome = true := by rw [h]; rfl
  rw [resolve?, List.findSome?_isSome_iff] at hsome
  obtain ⟨tried, htried, hknown⟩ := hsome
  exact endsIn_of_tried htried (ht _ (mem_artifacts_iff.mpr hknown))

end HeaderTable

/-! ## The mappings of a scan -/

namespace Scan

/-- A line that is answered with a mapping makes it as a precompile command. -/
theorem mapping?_of_mem_take {q : Questions} {s : Scan} {line : String} {m : HeaderMapping}
    (h : .mapped m ∈ (s.take q line).2) : Command.mapping? line = .ok (some m) := by
  have hanswer := take_answer q s line
  generalize s.take q line = r at hanswer h
  have haside : ∀ {asides}, Asides asides → .mapped m ∉ asides := by
    intro asides hasides hmem
    exact Bool.noConfusion (hasides _ hmem)
  cases hanswer with
  | quiet _ hasides => exact absurd h (haside hasides)
  | unmapped => cases h
  | mapped _ hmapping =>
      obtain rfl : m = _ := by simpa using h
      exact hmapping
  | excluded _ _ _ hasides => exact absurd h (haside hasides)
  | kept _ _ _ hasides => exact absurd (by simpa using h) (haside hasides)
  | failed _ _ hasides => exact absurd (by simpa using h) (haside hasides)

/-- No mapping of a scan is for another name than an artifact's. -/
theorem isArtifact_of_mem_mappings {q : Questions} {known : HeaderTable} {log : Log}
    {m : HeaderMapping} (h : m ∈ Trace.mappings (trace q known log)) :
    Command.isArtifact m.artifact = true := by
  rw [trace_eq, mappings_append, mappings_finish, List.append_nil] at h
  obtain ⟨e, he, hview⟩ := List.mem_filterMap.mp h
  obtain rfl : e = .mapped m := by
    cases e <;> simp_all [Event.mapped?]
  obtain ⟨read, line, -, hline | hmem⟩ := exists_line_of_mem q he
  · cases hline
  · exact Command.isArtifact_of_mapping (mapping?_of_mem_take hmem)

/-- At every moment of a scan that begins with an empty table the table is well named. -/
theorem wellNamed_of_prefix {q : Questions} {log : Log} {events : List Event}
    (h : events <+: trace q .empty log) : (Trace.tableAfter .empty events).WellNamed := by
  apply HeaderTable.wellNamed_insertAll
  · intro artifact hartifact
    cases hartifact
  · intro m hm
    exact isArtifact_of_mem_mappings ((h.filterMap Event.mapped?).subset hm)

/-! ## A moment of a scan -/

/-- A row is cut in one way only before the entry that follows so many others of its kind. -/
theorem front_unique {α β : Type} {view : α → Option β} {front front' back back' : List α}
    {x x' : α} (h : front ++ x :: back = front' ++ x' :: back')
    (hviews : front.filterMap view = front'.filterMap view) (hx : (view x).isSome = true)
    (hx' : (view x').isSome = true) : front = front' := by
  have hlonger : ∀ {row : List α} {y : α} {middle : List α}, (view y).isSome = true →
      row.filterMap view ≠ (row ++ y :: middle).filterMap view := by
    intro row y middle hy hsame
    obtain ⟨seen, hseen⟩ := Option.isSome_iff_exists.mp hy
    rw [List.filterMap_append, List.filterMap_cons_some hseen] at hsame
    have hlength := congrArg List.length hsame
    rw [List.length_append, List.length_cons] at hlength
    omega
  rcases List.append_eq_append_iff.mp h with ⟨middle, rfl, hback⟩ | ⟨middle, rfl, hback⟩
  · cases middle with
    | nil => rw [List.append_nil]
    | cons y middle =>
        obtain rfl : x = y := (List.cons.inj hback).1
        exact absurd hviews (hlonger hx)
  · cases middle with
    | nil => rw [List.append_nil]
    | cons y middle =>
        obtain rfl : x' = y := (List.cons.inj hback).1
        exact absurd hviews.symm (hlonger hx')

/-- The state of a scan where it takes a line that ends a section, and what it does from there. -/
theorem closing_of_trace {q : Questions} {known : HeaderTable} {log : Log}
    {before after : List Event} {line directory : String} {kind : SectionKind}
    (htrace : trace q known log = before ++ .pulled line :: after)
    (hcloses : Closes q.excludesDirectory (Trace.pulled before) line kind directory) :
    let s := (run (step q) (start known) (Trace.pulled before)).1
    s.table = Trace.tableAfter known before ∧ Closing s line kind directory ∧
      ∃ later, trace q known log = before ++ (.pulled line :: (s.take q line).2) ++ later ∧
        ((s.take q line).1.phase = .stopped → later = []) := by
  have hpulled : Trace.pulled (trace q known log) =
      Trace.pulled before ++ line :: Trace.pulled after := by
    rw [htrace, pulled_append]
    rfl
  have hread : Trace.pulled before <+: Trace.pulled (trace q known log) :=
    ⟨line :: Trace.pulled after, hpulled.symm⟩
  have hnext : Trace.pulled before ++ [line] <+: Trace.pulled (trace q known log) :=
    ⟨Trace.pulled after, by rw [hpulled, List.append_assoc]; rfl⟩
  obtain ⟨-, later, hsplit, hstop⟩ := trace_split hnext
  have hbefore : (run (step q) (start known) (Trace.pulled before)).2 = before := by
    have htaken := pulled_of_pulled q ((pulled_trace q known log) ▸ hread)
    have hcut := hsplit.symm.trans htrace
    rw [List.append_assoc] at hcut
    exact front_unique hcut htaken rfl rfl
  have hclosing : Closing (run (step q) (start known) (Trace.pulled before)).1 line kind
      directory := by
    have htake : (Trace.pulled (trace q known log)).take (Trace.pulled before).length =
        Trace.pulled before := by
      rw [hpulled, List.take_left]
    have hline : (Trace.pulled (trace q known log))[(Trace.pulled before).length]? = some line := by
      rw [hpulled, List.getElem?_append_right (Nat.le_refl _), Nat.sub_self]
      rfl
    rw [← htake] at hcloses ⊢
    exact (closes_iff_of_pulled q hline).mp hcloses
  rw [hbefore] at hsplit
  refine ⟨?_, hclosing, later, hsplit, hstop⟩
  rw [run_tableAfter, hbefore]
  rfl

/-- A scan ends where it takes the invocation of a compile section whose command fails: behind the
line come only the questions about its include paths, and the failure. -/
theorem trace_of_failed_compile {q : Questions} {known : HeaderTable} {log : Log}
    {before after : List Event} {line directory : String}
    (htrace : trace q known log = before ++ .pulled line :: after)
    (hcloses : Closes q.excludesDirectory (Trace.pulled before) line .compile directory)
    {failure : Failure}
    (hresult : (Command.compile q.fileExists (run (step q) (start known) (Trace.pulled before)).1.table
      line directory).result = .error failure) :
    ∃ asked : List String, trace q known log =
      before ++ ((.pulled line :: asked.map Event.askedExists) ++ [Event.failed failure]) := by
  obtain ⟨-, hclosing, later, hsplit, hstop⟩ := closing_of_trace htrace hcloses
  have htake := take_of_closing_compile q hclosing
  rw [takeCompile_of_error hresult] at htake
  rw [hstop (by rw [htake]), htake, List.append_nil] at hsplit
  exact ⟨_, hsplit⟩

end Scan

/-! ## A conversion that gets so far -/

namespace Converter

theorem scannedEvents_request (refuses : Nat → Bool) (w : Document.Writer) (r : Document.Request) :
    scannedEvents (request refuses w r).2 = [] := by
  unfold request
  split <;> rfl

theorem scannedEvents_answer (refuses : Nat → Bool) (w : Document.Writer) (e : Event) :
    scannedEvents (answer refuses w e).2 = [] := by
  cases e with
  | entry entry => exact scannedEvents_request refuses w (.add entry)
  | ended => exact scannedEvents_request refuses w .closeDocument
  | _ => rfl

/-- A conversion takes the events of its scan in order, up to some event. -/
theorem scannedEvents_run (refuses : Nat → Bool) (events : List Event) (c : Converter) :
    scannedEvents (run (step refuses) c events).2 <+: events := by
  induction events generalizing c with
  | nil => exact List.prefix_rfl
  | cons e events ih =>
      rw [run_cons, scannedEvents_append]
      cases hfailed : c.failure.isSome with
      | true =>
          rw [step_of_failed hfailed, run_of_failed hfailed]
          exact List.nil_prefix
      | false =>
          rw [step_of_running hfailed]
          have hanswer := scannedEvents_answer refuses c.writer e
          have hfirst : scannedEvents (.scanned e :: (answer refuses c.writer e).2) = [e] :=
            congrArg (e :: ·) hanswer
          rw [hfirst]
          exact List.cons_prefix_cons.mpr ⟨rfl, ih _⟩

/-- Events that are neither entries nor the last are taken without a write. -/
theorem run_silent {refuses : Nat → Bool} {c : Converter} (hrunning : c.failure.isSome = false)
    {events : List Event} (h : ∀ e ∈ events, e.entry? = none ∧ e.isLast = false) :
    (run (step refuses) c events).1 = c := by
  obtain ⟨writer, failure⟩ := c
  obtain rfl : failure = none := by simpa using hrunning
  rw [run_of_still fun e => [.scanned e]]
  intro e he
  obtain ⟨hentry, hlast⟩ := h e he
  rw [step_of_running rfl]
  cases e with
  | entry entry => cases hentry
  | ended => cases hlast
  | failed failure => cases hlast
  | _ => rfl

end Converter

/-- A conversion takes the events of its scan once it has tried to open the database. -/
theorem convert_taking (refuses : Nat → Bool) (q : Questions) (log : Log) :
    ∃ opened, let r := run (Converter.step refuses) opened (Scan.trace q .empty log)
      (convert refuses q log).events = scannedEvents r.2 ∧
        ∀ failure, r.1.failure = some failure →
          (convert refuses q log).result = .error failure := by
  rcases hopen : Converter.request refuses .start .openDocument with ⟨opened, first⟩
  have hconvert := convert_eq hopen q log
  have hfirst := Converter.scannedEvents_request refuses .start .openDocument
  rw [hopen] at hfirst
  refine ⟨opened, ?_, ?_⟩
  · rw [hconvert]
    show scannedEvents (first ++ _) = _
    rw [scannedEvents_append, hfirst, List.nil_append]
  · intro failure hfailure
    simp only [hconvert, hfailure]

theorem events_of_convert (refuses : Nat → Bool) (q : Questions) (log : Log) :
    (convert refuses q log).events <+: Scan.trace q .empty log := by
  obtain ⟨opened, hevents, -⟩ := convert_taking refuses q log
  rw [hevents]
  exact Converter.scannedEvents_run refuses _ opened

/-- A conversion that takes an event behind which its scan writes nothing and fails comes to that
failure, whatever its sink would refuse. -/
theorem result_of_reached {refuses : Nat → Bool} {q : Questions} {log : Log}
    {before silent : List Event} {failure : Failure}
    (htrace : Scan.trace q .empty log = before ++ (silent ++ [.failed failure]))
    (hsilent : ∀ e ∈ silent, e.entry? = none ∧ e.isLast = false)
    (hreached : before.length < (convert refuses q log).events.length) :
    (convert refuses q log).result = .error failure := by
  obtain ⟨opened, hevents, hresult⟩ := convert_taking refuses q log
  apply hresult
  rw [htrace, run_append] at hevents ⊢
  cases hfailed : (run (Converter.step refuses) opened before).1.failure.isSome with
  | true =>
      -- a conversion that has failed before takes nothing behind
      have hlength := (Converter.scannedEvents_run refuses before opened).length_le
      rw [Converter.run_of_failed hfailed, List.append_nil] at hevents
      rw [hevents] at hreached
      exact absurd hreached (Nat.not_lt.mpr hlength)
  | false =>
      rw [run_append, Converter.run_silent hfailed hsilent, run_cons,
        Converter.step_of_running hfailed]
      rfl

/-- What a conversion has taken stands at the front of its scan. -/
theorem trace_of_events {refuses : Nat → Bool} {q : Questions} {log : Log}
    {before after : List Event} {e : Event}
    (h : (convert refuses q log).events = before ++ e :: after) :
    ∃ rest, Scan.trace q .empty log = before ++ e :: rest := by
  obtain ⟨rest, hrest⟩ := events_of_convert refuses q log
  refine ⟨after ++ rest, ?_⟩
  rw [← hrest, h, List.append_assoc]
  rfl

/-- A conversion that takes the invocation of a compile section ends there if an include path of it
leads nowhere. -/
theorem result_of_firstNowhere {refuses : Nat → Bool} {q : Questions} {log : Log}
    {before after : List Event} {line directory : String} {args : List String} {i : Nat}
    {path : String}
    (hevents : (convert refuses q log).events = before ++ .pulled line :: after)
    (hcloses : Scan.Closes q.excludesDirectory (Trace.pulled before) line .compile directory)
    (hargs : Command.tokens line = .ok args)
    (hfirst : Command.FirstNowhere q.fileExists
      (run (Scan.step q) (Scan.start .empty) (Trace.pulled before)).1.table args i path) :
    (convert refuses q log).result = .error (.unresolvedHeader path line) := by
  obtain ⟨rest, htrace⟩ := trace_of_events hevents
  obtain ⟨asked, hall⟩ := Scan.trace_of_failed_compile htrace hcloses
    ((Command.result_eq_unresolvedHeader_iff hargs).mpr ⟨rfl, i, hfirst⟩)
  apply result_of_reached hall
  · intro e he
    rcases List.mem_cons.mp he with rfl | he
    · exact ⟨rfl, rfl⟩
    · obtain ⟨asked, -, rfl⟩ := List.mem_map.mp he
      exact ⟨rfl, rfl⟩
  · rw [hevents, List.length_append, List.length_cons]
    omega

/-- **The artifacts that a conversion knows.** At every moment of a conversion each artifact in its
table ends in `.pch.pth`, `.pch.pch` or `.h.pch`. So where a compile section is taken, an include
path that does not exist can be replaced only if it ends in `.h`, `.pch` or `.pch.pth`. Any other
ends the conversion there, with the first include path of the section that leads nowhere. -/
theorem artifacts_of_conversion (refuses : Nat → Bool) (q : Questions) (log : Log) :
    let conversion := convert refuses q log
    (∀ done, done <+: conversion.actions →
        ∀ artifact ∈ HeaderTable.artifacts
            (Trace.tableAfter .empty (scannedEvents done)).mappings,
          EndsIn [".pch.pth", ".pch.pch", ".h.pch"] artifact) ∧
      ∀ before line after directory, conversion.events = before ++ .pulled line :: after →
        Scan.Closes q.excludesDirectory (Trace.pulled before) line .compile directory →
          let table := (run (Scan.step q) (Scan.start .empty) (Trace.pulled before)).1.table
          table = Trace.tableAfter .empty before ∧
          ∃ args, Command.tokens line = .ok args ∧
            ∀ i path, Command.includePath? args i = some path → q.fileExists path = false →
              (∀ source, table.resolve? path = some source →
                EndsIn [".h", ".pch", ".pch.pth"] path) ∧
              (¬ EndsIn [".h", ".pch", ".pch.pth"] path →
                ∃ j first, Command.FirstNowhere q.fileExists table args j first ∧
                  conversion.result = .error (.unresolvedHeader first line)) := by
  intro conversion
  refine ⟨?_, ?_⟩
  · rintro done ⟨rest, hrest⟩
    have hdone : scannedEvents done <+: conversion.events :=
      ⟨scannedEvents rest, by rw [← scannedEvents_append, hrest]; rfl⟩
    exact Scan.wellNamed_of_prefix (hdone.trans (events_of_convert refuses q log))
  intro before line after directory hsplit hcloses table
  obtain ⟨rest, htrace⟩ := trace_of_events hsplit
  obtain ⟨htable, hclosing, -⟩ := Scan.closing_of_trace htrace hcloses
  have hwell : table.WellNamed := by
    rw [show table = _ from htable]
    exact Scan.wellNamed_of_prefix ⟨_, htrace.symm⟩
  obtain ⟨args, hargs⟩ := Command.tokens_of_isInvocation hclosing.2
  refine ⟨htable, args, hargs, ?_⟩
  intro i path hpath hmissing
  have hending : ∀ source, table.resolve? path = some source →
      EndsIn [".h", ".pch", ".pch.pth"] path :=
    fun source hsource => HeaderTable.endsIn_of_resolve? hwell hsource
  refine ⟨hending, ?_⟩
  intro hother
  have hunknown : table.resolve? path = none := by
    rw [Option.eq_none_iff_forall_ne_some]
    exact fun source hsource => hother (hending source hsource)
  obtain ⟨j, first, hfirst⟩ := Command.exists_firstNowhere hpath ⟨hmissing, hunknown⟩
  exact ⟨j, first, hfirst, result_of_firstNowhere hsplit hcloses hargs hfirst⟩

/-- A header precompiled under a name that is no artifact's stays unknown, so a command that includes
it ends the conversion. -/
theorem conversion_ends_at_unknown_name :
    let q : Questions := ⟨fun _ => false, fun _ => false, fun _ => false⟩
    let line := "cc -include a.hpp -c b.c -o b.o"
    let log : Log :=
      ⟨["ProcessPCH a", "cd /w", "cc -c a.hpp -o a.hpp.pch", "CompileC b.o", "cd /w", line], none⟩
    ¬ EndsIn [".h", ".pch", ".pch.pth"] "a.hpp" ∧
      ∃ first, (convert (fun _ => false) q log).result = .error (.unresolvedHeader first line) := by
  intro q line log
  have hother : ¬ EndsIn [".h", ".pch", ".pch.pth"] "a.hpp" := by
    rintro ⟨ending, hending, stem, hpath⟩
    have hlast := congrArg (fun path : String => path.toList.getLast?) hpath
    simp only [List.mem_cons, List.not_mem_nil, or_false] at hending
    rcases hending with rfl | rfl | rfl <;> simp at hlast
  let before : List Event :=
    [.pulled "ProcessPCH a", .pulled "cd /w", .askedDirectory "/w",
      .pulled "cc -c a.hpp -o a.hpp.pch", .pulled "CompileC b.o", .pulled "cd /w",
      .askedDirectory "/w"]
  let after : List Event := [.askedExists "a.hpp", .failed (.unresolvedHeader "a.hpp" line)]
  have hevents : (convert (fun _ => false) q log).events = before ++ .pulled line :: after := by
    decide +kernel
  have hcloses :
      Scan.Closes q.excludesDirectory (Trace.pulled before) line .compile "/w" :=
    (Scan.closes_iff_closing (s := ⟨.empty, .seeking .compile "/w"⟩) (by decide +kernel)).mpr
      ⟨rfl, by decide +kernel⟩
  obtain ⟨-, hsections⟩ := artifacts_of_conversion (fun _ => false) q log
  obtain ⟨-, args, hargs, hpaths⟩ := hsections before line after "/w" hevents hcloses
  have htokens : Command.tokens line =
      .ok ["cc", "-include", "a.hpp", "-c", "b.c", "-o", "b.o"] := by
    decide +kernel
  obtain rfl := Except.ok.inj (htokens.symm.trans hargs)
  obtain ⟨-, hfails⟩ := hpaths 2 "a.hpp" (by decide +kernel) rfl
  obtain ⟨-, first, -, hresult⟩ := hfails hother
  exact ⟨hother, first, hresult⟩

end CompileCommands
