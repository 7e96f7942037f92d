import CompileCommands.Proofs.HeaderTable
import CompileCommands.Proofs.Scan.Steps

/-!
# Knowing more headers

Whether an artifact is known, and whether a path exists, decides if a compile command can be read.
Which header an artifact has decides nothing but the token that stands for the include path. So two
scans of one log with the same exclusions go through the same phases and give the same row of events
but for those tokens, as long as neither of them fails (`run_alike`). A scan that knows more
artifacts and finds more paths does not fail where the other does not (`run_of_more`).
-/

namespace CompileCommands

def Questions.onDisk (q : Questions) (fileExists : String → Bool) : Questions :=
  { q with fileExists }

/-- Two entries for a line that differ at most in what stands for its include paths: their commands
are the tokens of the line, with others in place of operands of `-include`. -/
def Entry.SameButHeaders (line : String) (e e' : Entry) : Prop :=
  e'.directory = e.directory ∧ e'.file = e.file ∧
    ∃ args out out', Command.tokens line = .ok args ∧
      e.command = Command.join out ∧ e'.command = Command.join out' ∧
      out.length = args.length ∧ out'.length = args.length ∧
      ∀ i, Command.operandAt? "-include" Command.compileFlags args i = none →
        out[i]? = args[i]? ∧ out'[i]? = args[i]?

/-- Two events are the same, or entries for one of these lines that are the same but for headers. -/
inductive Event.Alike (lines : List String) : Event → Event → Prop where
  | same {e : Event} (h : e.entry? = none) : Alike lines e e
  | entries {line : String} {e e' : Entry} (hline : line ∈ lines)
      (h : e.SameButHeaders line e') : Alike lines (.entry e) (.entry e')

namespace Command

variable {fileExists fileExists' : String → Bool} {table table' : HeaderTable}
  {line directory : String}

theorem header?_of_more (hexists : ∀ path, fileExists path = true → fileExists' path = true)
    (hknown : HeaderTable.artifacts table.mappings ⊆ HeaderTable.artifacts table'.mappings)
    {path : String} (h : (header? fileExists table path).isSome = true) :
    (header? fileExists' table' path).isSome = true := by
  rw [header?] at h ⊢
  by_cases hfound : fileExists' path = true
  · rw [if_pos hfound]
    rfl
  · rw [if_neg fun hpath => hfound (hexists path hpath)] at h
    rw [if_neg hfound]
    exact HeaderTable.resolve?_of_subset hknown h

/-- A compile command that gives an entry gives one also where more is known. -/
theorem result_of_more (hexists : ∀ path, fileExists path = true → fileExists' path = true)
    (hknown : HeaderTable.artifacts table.mappings ⊆ HeaderTable.artifacts table'.mappings)
    {args : List String} (hargs : tokens line = .ok args) {entry : Entry}
    (h : (compile fileExists table line directory).result = .ok entry) :
    ∃ entry', (compile fileExists' table' line directory).result = .ok entry' := by
  obtain ⟨hall, source, hlast, -⟩ := (result_eq_ok_iff hargs).mp h
  rw [headless?_eq_none_iff] at hall
  refine ⟨_, (result_eq_ok_iff hargs).mpr ⟨?_, source, hlast, rfl⟩⟩
  exact headless?_eq_none_iff.mpr fun path hpath => header?_of_more hexists hknown (hall path hpath)

theorem sameButHeaders_of_results {args : List String} (hargs : tokens line = .ok args)
    {entry entry' : Entry}
    (h : (compile fileExists table line directory).result = .ok entry)
    (h' : (compile fileExists' table' line directory).result = .ok entry') :
    entry.SameButHeaders line entry' := by
  obtain ⟨-, source, hlast, rfl⟩ := (result_eq_ok_iff hargs).mp h
  obtain ⟨-, source', hlast', rfl⟩ := (result_eq_ok_iff hargs).mp h'
  obtain rfl : source = source' := Option.some.inj (hlast.symm.trans hlast')
  exact ⟨rfl, rfl, args, _, _, hargs, rfl, rfl, length_withHeaders _ args,
    length_withHeaders _ args, fun i hi => ⟨getElem?_withHeaders hi, getElem?_withHeaders hi⟩⟩

end Command

namespace Scan

open Transducer

/-! ## Rows that are alike -/

abbrev AlikeRows (lines : List String) : List Event → List Event → Prop :=
  List.Forall₂ (Event.Alike lines)

theorem AlikeRows.refl {lines : List String} {events : List Event}
    (h : Trace.entries events = []) : AlikeRows lines events events :=
  List.forall₂_same.mpr fun e he => .same (List.filterMap_eq_nil_iff.mp h e he)

theorem AlikeRows.append {lines : List String} {front front' back back' : List Event}
    (hfront : AlikeRows lines front front') (hback : AlikeRows lines back back') :
    AlikeRows lines (front ++ back) (front' ++ back') :=
  List.rel_append hfront hback

theorem AlikeRows.mono {lines more : List String} (hsub : lines ⊆ more) {row row' : List Event}
    (h : AlikeRows lines row row') : AlikeRows more row row' := by
  refine List.Forall₂.imp (fun e e' he => ?_) h
  cases he with
  | same hnone => exact .same hnone
  | entries hline hentries => exact .entries (hsub hline) hentries

theorem AlikeRows.view {β : Type} {view : Event → Option β} (hentry : ∀ e, view (.entry e) = none)
    {lines : List String} {row row' : List Event} (h : AlikeRows lines row row') :
    row'.filterMap view = row.filterMap view := by
  induction h with
  | nil => rfl
  | cons he _ ih =>
      rw [List.filterMap_cons, List.filterMap_cons, ih]
      cases he with
      | same => rfl
      | entries => rw [hentry, hentry]

theorem AlikeRows.entries {lines : List String} {row row' : List Event}
    (h : AlikeRows lines row row') :
    List.Forall₂ (fun e e' => ∃ line ∈ lines, Entry.SameButHeaders line e e')
      (Trace.entries row) (Trace.entries row') := by
  induction h with
  | nil => exact .nil
  | cons he _ ih =>
      cases he with
      | same hnone =>
          rw [Trace.entries, Trace.entries, List.filterMap_cons_none hnone,
            List.filterMap_cons_none hnone]
          exact ih
      | entries hline hentries => exact .cons ⟨_, hline, hentries⟩ ih

/-! ## One line -/

section Step

variable (q : Questions) (fileExists' : String → Bool)

theorem takeCompile_alike {table table' : HeaderTable} {line directory : String}
    (hline : Command.isInvocation line = true) {entry entry' : Entry}
    (h : (Command.compile q.fileExists table line directory).result = .ok entry)
    (h' : (Command.compile fileExists' table' line directory).result = .ok entry') :
    AlikeRows [line] (takeCompile q table line directory).2
      (takeCompile (q.onDisk fileExists') table' line directory).2 := by
  obtain ⟨args, hargs⟩ := Command.tokens_of_isInvocation hline
  have hentries := Command.sameButHeaders_of_results hargs h h'
  have hfile : entry'.file = entry.file := hentries.2.1
  have hasked : (Command.compile fileExists' table' line directory).asked =
      (Command.compile q.fileExists table line directory).asked :=
    (Command.asked_of_result hargs h').trans (Command.asked_of_result hargs h).symm
  have hresult : (Command.compile (q.onDisk fileExists').fileExists table' line directory).result =
      .ok entry' := h'
  rw [takeCompile_of_ok h, takeCompile_of_ok hresult]
  simp only [Questions.onDisk, hasked, hfile]
  refine (AlikeRows.refl (asides_asked _).entries).append (.cons (.same rfl) (.cons ?_ .nil))
  by_cases hexcluded : q.excludesFile entry.file = true
  · rw [if_pos hexcluded, if_pos hexcluded]
    exact .same rfl
  · rw [if_neg hexcluded, if_neg hexcluded]
    exact .entries (List.mem_singleton_self line) hentries

/-- The invocation of a compile section that does not stop the scan has given an entry. -/
theorem result_of_running {s : Scan} {line directory : String}
    (hclosing : Closing s line .compile directory) (h : (s.take q line).1.phase ≠ .stopped) :
    ∃ entry, (Command.compile q.fileExists s.table line directory).result = .ok entry := by
  rw [take_of_closing_compile q hclosing] at h
  cases hresult : (Command.compile q.fileExists s.table line directory).result with
  | error failure =>
      rw [takeCompile_of_error hresult] at h
      exact absurd rfl h
  | ok entry => exact ⟨entry, rfl⟩

variable {s s' : Scan} (hphase : s'.phase = s.phase) {line : String}
  (h : (s.take q line).1.phase ≠ .stopped)

include hphase h

theorem take_alike (h' : (s'.take (q.onDisk fileExists') line).1.phase ≠ .stopped) :
    (s'.take (q.onDisk fileExists') line).1.phase = (s.take q line).1.phase ∧
      AlikeRows [line] (s.take q line).2 (s'.take (q.onDisk fileExists') line).2 := by
  by_cases hcompile : ∃ directory, Closing s line .compile directory
  · obtain ⟨directory, hclosing⟩ := hcompile
    have hclosing' : Closing s' line .compile directory := ⟨hphase.trans hclosing.1, hclosing.2⟩
    obtain ⟨entry, hresult⟩ := result_of_running q hclosing h
    obtain ⟨entry', hresult'⟩ := result_of_running (q.onDisk fileExists') hclosing' h'
    rw [take_of_closing_compile q hclosing, take_of_closing_compile _ hclosing']
    refine ⟨?_, takeCompile_alike q fileExists' hclosing.2 hresult hresult'⟩
    rw [takeCompile_of_ok hresult, takeCompile_of_ok hresult']
  · have hother := not_exists.mp hcompile
    have hsame : (q.onDisk fileExists').excludesDirectory = q.excludesDirectory := rfl
    obtain ⟨hnext, hevents⟩ := take_elsewhere hsame hphase hother
    rw [hnext, hevents]
    exact ⟨rfl, .refl (entries_take q hother)⟩

theorem take_of_more (hexists : ∀ path, q.fileExists path = true → fileExists' path = true)
    (hknown : HeaderTable.artifacts s.table.mappings ⊆ HeaderTable.artifacts s'.table.mappings) :
    (s'.take (q.onDisk fileExists') line).1.phase ≠ .stopped ∧
      HeaderTable.artifacts (s.take q line).1.table.mappings ⊆
        HeaderTable.artifacts (s'.take (q.onDisk fileExists') line).1.table.mappings := by
  have hsame : (q.onDisk fileExists').excludesDirectory = q.excludesDirectory := rfl
  constructor
  · by_cases hcompile : ∃ directory, Closing s line .compile directory
    · obtain ⟨directory, hclosing⟩ := hcompile
      have hclosing' : Closing s' line .compile directory := ⟨hphase.trans hclosing.1, hclosing.2⟩
      obtain ⟨args, hargs⟩ := Command.tokens_of_isInvocation hclosing.2
      obtain ⟨entry, hresult⟩ := result_of_running q hclosing h
      obtain ⟨entry', hresult'⟩ := Command.result_of_more hexists hknown hargs hresult
      have hnext : (Command.compile (q.onDisk fileExists').fileExists s'.table line directory).result =
          .ok entry' := hresult'
      rw [take_of_closing_compile _ hclosing', takeCompile_of_ok hnext]
      simp
    · rw [(take_elsewhere hsame hphase (not_exists.mp hcompile)).1]
      exact h
  · -- the outline tells the mappings, and the outlines are the same
    rw [take_table, take_table, hphase, hsame]
    exact HeaderTable.artifacts_insertAll_subset hknown _

end Step

/-! ## The run -/

section Run

variable (q : Questions) (fileExists' : String → Bool) {s s' : Scan} (hphase : s'.phase = s.phase)
  {lines : List String} (h : (run (step q) s lines).1.phase ≠ .stopped)

include hphase h

/-- Two scans of the same lines that both go on are in the same phase, and have done alike. -/
theorem run_alike (h' : (run (step (q.onDisk fileExists')) s' lines).1.phase ≠ .stopped) :
    (run (step (q.onDisk fileExists')) s' lines).1.phase = (run (step q) s lines).1.phase ∧
      AlikeRows lines (run (step q) s lines).2
        (run (step (q.onDisk fileExists')) s' lines).2 := by
  induction lines using List.reverseRecOn with
  | nil => exact ⟨hphase, .nil⟩
  | append_singleton lines line ih =>
      obtain ⟨hbefore, hgoes⟩ := running_concat q h
      obtain ⟨hbefore', hgoes'⟩ := running_concat _ h'
      obtain ⟨hsame, hrows⟩ := ih hbefore hbefore'
      obtain ⟨hnext, hrow⟩ := take_alike q fileExists' hsame hgoes hgoes'
      rw [run_concat, run_concat, step_of_running hbefore, step_of_running hbefore']
      refine ⟨hnext, (hrows.mono (List.subset_append_left _ _)).append (.cons (.same rfl) ?_)⟩
      exact hrow.mono (List.subset_append_right _ _)

/-- A scan that knows more goes on where the other does, and keeps knowing more. -/
theorem run_of_more (hexists : ∀ path, q.fileExists path = true → fileExists' path = true)
    (hknown : HeaderTable.artifacts s.table.mappings ⊆ HeaderTable.artifacts s'.table.mappings) :
    (run (step (q.onDisk fileExists')) s' lines).1.phase ≠ .stopped ∧
      HeaderTable.artifacts (run (step q) s lines).1.table.mappings ⊆
        HeaderTable.artifacts (run (step (q.onDisk fileExists')) s' lines).1.table.mappings := by
  induction lines using List.reverseRecOn with
  | nil => exact ⟨hphase ▸ h, hknown⟩
  | append_singleton lines line ih =>
      obtain ⟨hbefore, hgoes⟩ := running_concat q h
      obtain ⟨hbefore', hmore⟩ := ih hbefore
      obtain ⟨hsame, -⟩ := run_alike q fileExists' hphase hbefore hbefore'
      rw [run_concat, run_concat, step_of_running hbefore, step_of_running hbefore']
      exact take_of_more q fileExists' hsame hgoes hexists hmore

end Run

/-! ## The whole scan -/

theorem finish_of_phase {s s' : Scan} (h : s'.phase = s.phase) (failure : Option Failure) :
    s'.finish failure = s.finish failure := by
  simp only [finish, h]

/-- Two scans of one log that both end without a failure give rows that are alike. -/
theorem trace_alike (q : Questions) (fileExists' : String → Bool) {known known' : HeaderTable}
    {log : Log} (h : Trace.failure? (trace q known log) = none)
    (h' : Trace.failure? (trace (q.onDisk fileExists') known' log) = none) :
    AlikeRows log.lines (trace q known log) (trace (q.onDisk fileExists') known' log) := by
  obtain ⟨hrunning, -⟩ := failure?_eq_none_iff.mp h
  obtain ⟨hrunning', -⟩ := failure?_eq_none_iff.mp h'
  have hphase : (start known').phase = (start known).phase := rfl
  obtain ⟨hsame, hrows⟩ := run_alike q fileExists' hphase hrunning hrunning'
  rw [trace_eq, trace_eq, finish_of_phase hsame]
  exact hrows.append (.refl (entries_finish _ _))

theorem files_alike {lines : List String} {es es' : List Entry}
    (h : List.Forall₂ (fun e e' => ∃ line ∈ lines, Entry.SameButHeaders line e e') es es') :
    es'.map Entry.file = es.map Entry.file := by
  induction h with
  | nil => rfl
  | cons he _ ih =>
      obtain ⟨line, -, -, hfile, -⟩ := he
      rw [List.map_cons, List.map_cons, hfile, ih]

/-- **Knowing more headers never breaks a scan.** Where a scan ends without a failure, the scan that
knows more artifacts, by whatever headers, and finds more paths does so too. It takes the same lines
and tells the same, and its entries are the same but for what stands for include paths. The files
of the entries are the same for all scans that end without a failure, whatever they know. -/
theorem more_headers_change_no_file (q : Questions) (fileExists' : String → Bool)
    (known known' : HeaderTable) (log : Log)
    (hknown : HeaderTable.artifacts known.mappings ⊆ HeaderTable.artifacts known'.mappings)
    (hexists : ∀ path, q.fileExists path = true → fileExists' path = true)
    (hends : Trace.failure? (Scan.trace q known log) = none) :
    let trace := Scan.trace q known log
    let trace' := Scan.trace (q.onDisk fileExists') known' log
    Trace.failure? trace' = none ∧ trace'.getLast? = some .ended ∧
      Trace.pulled trace' = Trace.pulled trace ∧ Trace.messages trace' = Trace.messages trace ∧
      List.Forall₂ (fun e e' => ∃ line ∈ Trace.pulled trace, Entry.SameButHeaders line e e')
        (Trace.entries trace) (Trace.entries trace') ∧
      ∀ fileExists₂ known₂,
        let trace₂ := Scan.trace (q.onDisk fileExists₂) known₂ log
        Trace.failure? trace₂ = none →
          (Trace.entries trace₂).map Entry.file = (Trace.entries trace).map Entry.file := by
  intro trace trace'
  obtain ⟨hrunning, hlog⟩ := failure?_eq_none_iff.mp hends
  have hphase : (start known').phase = (start known).phase := rfl
  have hends' : Trace.failure? trace' = none :=
    failure?_eq_none_iff.mpr
      ⟨(run_of_more q fileExists' hphase hrunning hexists hknown).1, hlog⟩
  have halike : AlikeRows log.lines trace trace' := trace_alike q fileExists' hends hends'
  have hpulled : Trace.pulled trace = log.lines := by
    show Trace.pulled (Scan.trace q known log) = log.lines
    rw [pulled_trace, pulled_of_running q hrunning]
  refine ⟨hends', getLast?_of_ends hends', halike.view fun _ => rfl, halike.view fun _ => rfl,
    hpulled ▸ halike.entries, ?_⟩
  intro fileExists₂ known₂ trace₂ h
  exact files_alike (trace_alike q fileExists₂ hends h).entries

/-- Another header for the artifact of an include path, and a path more on disk. -/
theorem headers_of_one_include :
    let q : Questions := ⟨fun _ => false, fun _ => false, fun _ => false⟩
    let known := HeaderTable.empty.insert ⟨"p.h.pch", "p.h"⟩
    let known' := (HeaderTable.empty.insert ⟨"p.h.pch", "lib/p.h"⟩).insert ⟨"b.pch.pch", "b.h"⟩
    let log : Log := ⟨["CompileC a.o", "cd /w", "cc -include p.h -c a.c -o a.o"], none⟩
    let trace := Scan.trace q known log
    let trace' := Scan.trace (q.onDisk (· = "a.h")) known' log
    HeaderTable.artifacts known.mappings ⊆ HeaderTable.artifacts known'.mappings ∧
      (∀ path, q.fileExists path = true → decide (path = "a.h") = true) ∧
      Trace.failure? trace = none ∧ Trace.failure? trace' = none ∧
      (Trace.entries trace).map Entry.command = ["cc -include p.h -c a.c -o a.o"] ∧
      (Trace.entries trace').map Entry.command = ["cc -include lib/p.h -c a.c -o a.o"] ∧
      List.Forall₂ (fun e e' => ∃ line ∈ Trace.pulled trace, Entry.SameButHeaders line e e')
        (Trace.entries trace) (Trace.entries trace') := by
  intro q known known' log trace trace'
  have hknown : HeaderTable.artifacts known.mappings ⊆ HeaderTable.artifacts known'.mappings := by
    decide +kernel
  have hexists : ∀ path, q.fileExists path = true → decide (path = "a.h") = true := by
    intro path hpath
    cases hpath
  have hends : Trace.failure? trace = none := by decide +kernel
  have hmore := more_headers_change_no_file q (· = "a.h") known known' log hknown hexists hends
  exact ⟨hknown, hexists, hends, hmore.1, by decide +kernel, by decide +kernel,
    hmore.2.2.2.2.1⟩

end Scan

end CompileCommands
