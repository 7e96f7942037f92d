import CompileCommands.Proofs.Command.Compile
import CompileCommands.Proofs.Command.Invocation
import CompileCommands.Proofs.Command.Lines
import CompileCommands.Proofs.Failure
import CompileCommands.Proofs.Scan.Sections

/-!
# The steps of a scan

What a scan can do on one line is said once, with a case for each outcome (`Answer`,
`take_answer`). Everything else about single steps is read off the cases, and by induction holds of
whole runs: a scan follows the outline of its log (`follows_outline`), takes its lines in order
(`pulled_initial`), and stops with a failure and with nothing else (`run_ending`).
-/

namespace CompileCommands

/-- An event that shows neither a line, nor an entry, nor a mapping, nor the end. -/
def Event.isAside : Event → Bool
  | .askedDirectory _ | .askedFile _ | .askedExists _ | .logged _ => true
  | _ => false

/-- The event after which a scan does nothing. -/
def Event.isLast : Event → Bool
  | .ended | .failed _ => true
  | _ => false

namespace Scan

open Transducer

/-! ## Views of events -/

theorem unseen {β γ : Type} {view : Event → Option β} {f : γ → Event}
    (h : ∀ x, view (f x) = none) (xs : List γ) : (xs.map f).filterMap view = [] := by
  rw [List.filterMap_eq_nil_iff]
  intro e he
  obtain ⟨x, -, rfl⟩ := List.mem_map.mp he
  exact h x

theorem pulled_append (front back : List Event) :
    Trace.pulled (front ++ back) = Trace.pulled front ++ Trace.pulled back :=
  List.filterMap_append

theorem entries_append (front back : List Event) :
    Trace.entries (front ++ back) = Trace.entries front ++ Trace.entries back :=
  List.filterMap_append

theorem messages_append (front back : List Event) :
    Trace.messages (front ++ back) = Trace.messages front ++ Trace.messages back :=
  List.filterMap_append

theorem mappings_append (front back : List Event) :
    Trace.mappings (front ++ back) = Trace.mappings front ++ Trace.mappings back :=
  List.filterMap_append

theorem tableAfter_append (table : HeaderTable) (front back : List Event) :
    Trace.tableAfter table (front ++ back) =
      Trace.tableAfter (Trace.tableAfter table front) back := by
  rw [Trace.tableAfter, mappings_append, HeaderTable.insertAll, List.foldl_append]
  rfl

theorem failure?_append (front back : List Event) :
    Trace.failure? (front ++ back) = (Trace.failure? front).or (Trace.failure? back) :=
  List.findSome?_append

theorem failure?_eq_head? (events : List Event) :
    Trace.failure? events = (events.filterMap Event.failed?).head? :=
  List.head?_filterMap.symm

/-- A view of a row of events is none the less for the events left out that it does not show. -/
theorem filterMap_filter_of_unseen {β : Type} {view : Event → Option β} {kept : Event → Bool}
    (h : ∀ e, kept e = false → view e = none) (events : List Event) :
    (events.filter kept).filterMap view = events.filterMap view := by
  rw [List.filterMap_filter]
  refine List.filterMap_congr fun e _ => ?_
  cases hkept : kept e with
  | true => rw [if_pos rfl]
  | false =>
      rw [if_neg (by simp), h e hkept]

theorem failure?_filter {kept : Event → Bool} (h : ∀ failure, kept (.failed failure) = true)
    (events : List Event) : Trace.failure? (events.filter kept) = Trace.failure? events := by
  rw [failure?_eq_head?, failure?_eq_head?, filterMap_filter_of_unseen]
  intro e he
  cases e with
  | failed failure =>
      rw [h failure] at he
      cases he
  | _ => rfl

/-! ## Rows of asides, and rows that go on -/

def Asides (events : List Event) : Prop := ∀ e ∈ events, e.isAside = true

theorem Asides.nil : Asides [] := by simp [Asides]

theorem Asides.append {front back : List Event} (hfront : Asides front) (hback : Asides back) :
    Asides (front ++ back) :=
  List.forall_mem_append.mpr ⟨hfront, hback⟩

theorem asides_asked (paths : List String) : Asides (paths.map .askedExists) := by
  intro e he
  obtain ⟨path, -, rfl⟩ := List.mem_map.mp he
  rfl

theorem views_of_aside {e : Event} (h : e.isAside = true) :
    e.pulled? = none ∧ e.entry? = none ∧ e.mapped? = none ∧ e.isLast = false := by
  cases e with
  | askedDirectory directory => exact ⟨rfl, rfl, rfl, rfl⟩
  | askedFile file => exact ⟨rfl, rfl, rfl, rfl⟩
  | askedExists path => exact ⟨rfl, rfl, rfl, rfl⟩
  | logged message => exact ⟨rfl, rfl, rfl, rfl⟩
  | _ => exact absurd h (by simp [Event.isAside])

theorem Asides.pulled {events : List Event} (h : Asides events) : Trace.pulled events = [] :=
  List.filterMap_eq_nil_iff.mpr fun e he => (views_of_aside (h e he)).1

theorem Asides.entries {events : List Event} (h : Asides events) : Trace.entries events = [] :=
  List.filterMap_eq_nil_iff.mpr fun e he => (views_of_aside (h e he)).2.1

theorem Asides.mappings {events : List Event} (h : Asides events) : Trace.mappings events = [] :=
  List.filterMap_eq_nil_iff.mpr fun e he => (views_of_aside (h e he)).2.2.1

def Ongoing (events : List Event) : Prop := ∀ e ∈ events, e.isLast = false

theorem Ongoing.append {front back : List Event} (hfront : Ongoing front) (hback : Ongoing back) :
    Ongoing (front ++ back) :=
  List.forall_mem_append.mpr ⟨hfront, hback⟩

theorem Asides.ongoing {events : List Event} (h : Asides events) : Ongoing events :=
  fun e he => (views_of_aside (h e he)).2.2.2

theorem Ongoing.failure? {events : List Event} (h : Ongoing events) :
    Trace.failure? events = none := by
  rw [Trace.failure?, List.findSome?_eq_none_iff]
  intro e he
  cases e with
  | failed failure => exact absurd (h _ he) (by simp [Event.isLast])
  | _ => rfl

theorem Ongoing.not_failed {events : List Event} (h : Ongoing events) (failure : Failure) :
    .failed failure ∉ events := by
  intro hmem
  exact absurd (h _ hmem) (by simp [Event.isLast])

def FailsAtCommand (events : List Event) : Prop :=
  ∃ front failure, events = front ++ [.failed failure] ∧ Ongoing front ∧
    failure.isOfCommand = true

theorem FailsAtCommand.behind {front back : List Event} (hfront : Ongoing front)
    (hback : FailsAtCommand back) : FailsAtCommand (front ++ back) := by
  obtain ⟨middle, failure, rfl, hmiddle, hfailure⟩ := hback
  exact ⟨front ++ middle, failure, (List.append_assoc ..).symm, hfront.append hmiddle, hfailure⟩

theorem FailsAtCommand.failure? {events : List Event} (h : FailsAtCommand events)
    {failure : Failure} (hmem : .failed failure ∈ events) :
    Trace.failure? events = some failure := by
  obtain ⟨front, last, rfl, hfront, -⟩ := h
  rcases List.mem_append.mp hmem with hmem | hmem
  · exact absurd hmem (hfront.not_failed failure)
  · obtain rfl : failure = last := by simpa using hmem
    rw [failure?_append, hfront.failure?]
    rfl

@[ext] theorem ext {s t : Scan} (htable : s.table = t.table) (hphase : s.phase = t.phase) :
    s = t := by
  cases s
  cases t
  cases htable
  cases hphase
  rfl

/-! ## The answer to a line -/

def Closing (s : Scan) (line : String) (kind : SectionKind) (directory : String) : Prop :=
  s.phase = .seeking kind directory ∧ Command.isInvocation line = true

theorem Closing.outline {s : Scan} {line directory : String} {kind : SectionKind}
    (h : Closing s line kind directory) (excludes : String → Bool) :
    outlineStep excludes s.phase line = (.between, [⟨kind, directory, line⟩]) := by
  simp only [h.1, outlineStep, if_pos h.2]

/-- The answers that a scan can give to a line. -/
inductive Answer (q : Questions) (s : Scan) (line : String) : Scan × List Event → Prop
  /-- No section ends here. -/
  | quiet {phase : Phase} {asides : List Event}
      (houtline : outlineStep q.excludesDirectory s.phase line = (phase, []))
      (hasides : Asides asides) : Answer q s line (⟨s.table, phase⟩, asides)
  | unmapped {directory : String} (hclosing : Closing s line .precompile directory)
      (hmapping : Command.mapping? line = .ok none) : Answer q s line (⟨s.table, .between⟩, [])
  | mapped {directory : String} {m : HeaderMapping}
      (hclosing : Closing s line .precompile directory)
      (hmapping : Command.mapping? line = .ok (some m)) :
      Answer q s line (⟨s.table.insert m, .between⟩, [.mapped m, .logged (.builtHeader m)])
  | excluded {directory : String} {entry : Entry} {asides : List Event}
      (hclosing : Closing s line .compile directory)
      (hresult : (Command.compile q.fileExists s.table line directory).result = .ok entry)
      (hexcluded : q.excludesFile entry.file = true) (hasides : Asides asides) :
      Answer q s line (⟨s.table, .between⟩, asides)
  | kept {directory : String} {entry : Entry} {asides : List Event}
      (hclosing : Closing s line .compile directory)
      (hresult : (Command.compile q.fileExists s.table line directory).result = .ok entry)
      (hkept : q.excludesFile entry.file = false) (hasides : Asides asides) :
      Answer q s line (⟨s.table, .between⟩, asides ++ [.entry entry])
  | failed {directory : String} {failure : Failure} {asides : List Event}
      (hclosing : Closing s line .compile directory)
      (hresult : (Command.compile q.fileExists s.table line directory).result = .error failure)
      (hasides : Asides asides) :
      Answer q s line (⟨s.table, .stopped⟩, asides ++ [.failed failure])

theorem takeCompile_of_error {q : Questions} {table : HeaderTable} {line directory : String}
    {failure : Failure}
    (h : (Command.compile q.fileExists table line directory).result = .error failure) :
    takeCompile q table line directory =
      (⟨table, .stopped⟩,
        (Command.compile q.fileExists table line directory).asked.map .askedExists ++
          [.failed failure]) := by
  simp only [takeCompile, h]

theorem takeCompile_of_ok {q : Questions} {table : HeaderTable} {line directory : String}
    {entry : Entry} (h : (Command.compile q.fileExists table line directory).result = .ok entry) :
    takeCompile q table line directory =
      (⟨table, .between⟩,
        (Command.compile q.fileExists table line directory).asked.map .askedExists ++
          [.askedFile entry.file,
            if q.excludesFile entry.file then .logged (.excludedFile entry.file)
            else .entry entry]) := by
  simp only [takeCompile, h]

theorem take_of_closing_compile (q : Questions) {s : Scan} {line directory : String}
    (h : Closing s line .compile directory) :
    s.take q line = takeCompile q s.table line directory := by
  simp only [take, h.1, if_pos h.2]

theorem takeCompile_answer (q : Questions) {s : Scan} {line directory : String}
    (hclosing : Closing s line .compile directory) :
    Answer q s line (takeCompile q s.table line directory) := by
  rw [takeCompile]
  have hasked := asides_asked (Command.compile q.fileExists s.table line directory).asked
  cases hresult : (Command.compile q.fileExists s.table line directory).result with
  | error failure => exact .failed hclosing hresult hasked
  | ok entry =>
      have hfile : Asides [.askedFile entry.file] := by simp [Asides, Event.isAside]
      by_cases hexcluded : q.excludesFile entry.file = true
      · have hskipped : Asides [.askedFile entry.file, .logged (.excludedFile entry.file)] := by
          simp [Asides, Event.isAside]
        simp only [if_pos hexcluded]
        exact .excluded hclosing hresult hexcluded (hasked.append hskipped)
      · simp only [if_neg hexcluded]
        rw [show [Event.askedFile entry.file, .entry entry] =
          [.askedFile entry.file] ++ [.entry entry] from rfl, ← List.append_assoc]
        exact .kept hclosing hresult (by simpa using hexcluded) (hasked.append hfile)

theorem mapping?_of_isInvocation {line : String} (h : Command.isInvocation line = true) :
    ∃ mapping, Command.mapping? line = .ok mapping := by
  obtain ⟨args, hargs⟩ := Command.tokens_of_isInvocation h
  refine ⟨Command.mappingOfTokens? args, ?_⟩
  rw [Command.mapping?, hargs]
  rfl

theorem takePrecompile_answer (q : Questions) {s : Scan} {line directory : String}
    (hclosing : Closing s line .precompile directory) :
    Answer q s line (takePrecompile s.table line) := by
  obtain ⟨mapping, hmapping⟩ := mapping?_of_isInvocation hclosing.2
  rw [takePrecompile, hmapping]
  cases mapping with
  | none => exact .unmapped hclosing hmapping
  | some m => exact .mapped hclosing hmapping

theorem take_answer (q : Questions) (s : Scan) (line : String) :
    Answer q s line (s.take q line) := by
  rw [take]
  cases hphase : s.phase with
  | stopped =>
      rw [show s = ⟨s.table, .stopped⟩ from hphase ▸ rfl]
      exact .quiet rfl .nil
  | between => exact .quiet (by rw [hphase]; rfl) .nil
  | marked kind =>
      by_cases hexcluded : q.excludesDirectory (Command.directory line) = true
      · simp only [if_pos hexcluded]
        exact .quiet (by simp only [hphase, outlineStep, if_pos hexcluded])
          (by simp [Asides, Event.isAside])
      · simp only [if_neg hexcluded]
        exact .quiet (by simp only [hphase, outlineStep, if_neg hexcluded])
          (by simp [Asides, Event.isAside])
  | seeking kind directory =>
      by_cases hline : Command.isInvocation line = true
      · simp only [if_pos hline]
        cases kind with
        | compile => exact takeCompile_answer q ⟨hphase, hline⟩
        | precompile => exact takePrecompile_answer q ⟨hphase, hline⟩
      · simp only [if_neg hline]
        have houtline : outlineStep q.excludesDirectory s.phase line = (s.phase, []) := by
          simp only [hphase, outlineStep, if_neg hline]
        exact .quiet houtline .nil

/-- Only the invocation of a compile section is answered by more than the phase, the line and the
exclusion of directories. -/
theorem take_elsewhere {q q' : Questions} (hq : q'.excludesDirectory = q.excludesDirectory)
    {s s' : Scan} (hphase : s'.phase = s.phase) {line : String}
    (h : ∀ directory, ¬ Closing s line .compile directory) :
    (s'.take q' line).1.phase = (s.take q line).1.phase ∧
      (s'.take q' line).2 = (s.take q line).2 := by
  rw [take, take, hphase, hq]
  cases hcase : s.phase with
  | stopped => exact ⟨hphase, rfl⟩
  | between => exact ⟨rfl, rfl⟩
  | marked kind =>
      by_cases hexcluded : q.excludesDirectory (Command.directory line) = true
      · simp only [if_pos hexcluded, and_self]
      · simp only [if_neg hexcluded, and_self]
  | seeking kind directory =>
      by_cases hline : Command.isInvocation line = true
      · cases kind with
        | compile => exact absurd ⟨hcase, hline⟩ (h directory)
        | precompile =>
            simp only [if_pos hline, takePrecompile]
            cases Command.mapping? line with
            | error cause => exact ⟨rfl, rfl⟩
            | ok mapping => exact ⟨rfl, rfl⟩
      · simp only [if_neg hline, and_true]
        exact hphase

/-- What is done at a line that is not the invocation of a compile section: nothing, the question
about a directory, the same with the message that its section is skipped, or a mapping. -/
theorem events_elsewhere (q : Questions) {s : Scan} {line : String}
    (h : ∀ directory, ¬ Closing s line .compile directory) :
    (s.take q line).2 = [] ∨ (∃ directory, (s.take q line).2 = [.askedDirectory directory]) ∨
      (∃ kind directory, q.excludesDirectory directory = true ∧ (s.take q line).2 =
        [.askedDirectory directory, .logged (.excludedSection kind directory)]) ∨
      ∃ m, (s.take q line).2 = [.mapped m, .logged (.builtHeader m)] := by
  rw [take]
  cases hphase : s.phase with
  | stopped => exact Or.inl rfl
  | between => exact Or.inl rfl
  | marked kind =>
      by_cases hexcluded : q.excludesDirectory (Command.directory line) = true
      · simp only [if_pos hexcluded]
        exact Or.inr (Or.inr (Or.inl ⟨kind, _, hexcluded, rfl⟩))
      · simp only [if_neg hexcluded]
        exact Or.inr (Or.inl ⟨_, rfl⟩)
  | seeking kind directory =>
      by_cases hline : Command.isInvocation line = true
      · cases kind with
        | compile => exact absurd ⟨hphase, hline⟩ (h directory)
        | precompile =>
            obtain ⟨mapping, hmapping⟩ := mapping?_of_isInvocation hline
            simp only [if_pos hline, takePrecompile, hmapping]
            cases mapping with
            | none => exact Or.inl rfl
            | some m => exact Or.inr (Or.inr (Or.inr ⟨m, rfl⟩))
      · simp only [if_neg hline, true_or]

/-- Where the scan leaves the outline, it stops with the failure of a command. -/
theorem take_phase (q : Questions) (s : Scan) (line : String) :
    (s.take q line).1.phase = .stopped ∧ FailsAtCommand (s.take q line).2 ∨
      (s.take q line).1.phase = (outlineStep q.excludesDirectory s.phase line).1 ∧
        Ongoing (s.take q line).2 := by
  have hanswer := take_answer q s line
  generalize s.take q line = r at hanswer
  cases hanswer with
  | quiet houtline hasides => exact Or.inr ⟨by rw [houtline], hasides.ongoing⟩
  | unmapped hclosing =>
      rw [hclosing.outline]
      exact Or.inr ⟨rfl, Asides.nil.ongoing⟩
  | mapped hclosing =>
      rw [hclosing.outline]
      exact Or.inr ⟨rfl, by simp [Ongoing, Event.isLast]⟩
  | excluded hclosing _ _ hasides =>
      rw [hclosing.outline]
      exact Or.inr ⟨rfl, hasides.ongoing⟩
  | kept hclosing _ _ hasides =>
      rw [hclosing.outline]
      exact Or.inr ⟨rfl, hasides.ongoing.append (by simp [Ongoing, Event.isLast])⟩
  | @failed directory failure asides hclosing hresult hasides =>
      refine Or.inl ⟨rfl, asides, failure, rfl, hasides.ongoing, ?_⟩
      obtain ⟨args, hargs⟩ := Command.tokens_of_isInvocation hclosing.2
      -- the tokens of an invocation are well-formed, so two failures are left
      rw [Command.compile_eq hargs] at hresult
      split at hresult
      · cases hresult
        rfl
      · split at hresult <;> cases hresult
        rfl

theorem take_table (q : Questions) (s : Scan) (line : String) :
    (s.take q line).1.table =
      s.table.insertAll
        ((outlineStep q.excludesDirectory s.phase line).2.filterMap Section.mapping?) := by
  have hanswer := take_answer q s line
  generalize s.take q line = r at hanswer
  cases hanswer with
  | quiet houtline => rw [houtline]; rfl
  | unmapped hclosing hmapping =>
      simp only [hclosing.outline, List.filterMap_cons, Section.mapping?, hmapping]
      rfl
  | mapped hclosing hmapping =>
      simp only [hclosing.outline, List.filterMap_cons, Section.mapping?, hmapping]
      rfl
  | excluded hclosing => rw [hclosing.outline]; rfl
  | kept hclosing => rw [hclosing.outline]; rfl
  | failed hclosing => rw [hclosing.outline]; rfl

/-- The table of a scan is the one that its events tell of. -/
theorem take_tableAfter (q : Questions) (s : Scan) (line : String) :
    (s.take q line).1.table = Trace.tableAfter s.table (s.take q line).2 := by
  have hanswer := take_answer q s line
  generalize s.take q line = r at hanswer
  unfold Trace.tableAfter
  cases hanswer with
  | quiet _ hasides => rw [hasides.mappings]; rfl
  | unmapped => rfl
  | mapped => rfl
  | excluded _ _ _ hasides => rw [hasides.mappings]; rfl
  | kept _ _ _ hasides => rw [mappings_append, hasides.mappings]; rfl
  | failed _ _ hasides => rw [mappings_append, hasides.mappings]; rfl

/-- What a line is answered with holds no further line. -/
theorem pulled_take (q : Questions) (s : Scan) (line : String) :
    Trace.pulled (s.take q line).2 = [] := by
  have hanswer := take_answer q s line
  generalize s.take q line = r at hanswer
  cases hanswer with
  | quiet _ hasides => exact hasides.pulled
  | unmapped => rfl
  | mapped => rfl
  | excluded _ _ _ hasides => exact hasides.pulled
  | kept _ _ _ hasides => rw [pulled_append, hasides.pulled]; rfl
  | failed _ _ hasides => rw [pulled_append, hasides.pulled]; rfl

/-- Only the invocation of a compile section gives an entry. -/
theorem entries_take (q : Questions) {s : Scan} {line : String}
    (h : ∀ directory, ¬ Closing s line .compile directory) :
    Trace.entries (s.take q line).2 = [] := by
  have hanswer := take_answer q s line
  generalize s.take q line = r at hanswer
  cases hanswer with
  | quiet _ hasides => exact hasides.entries
  | unmapped => rfl
  | mapped => rfl
  | excluded hclosing => exact absurd hclosing (h _)
  | kept hclosing => exact absurd hclosing (h _)
  | failed hclosing => exact absurd hclosing (h _)

/-- An entry is given at the invocation of a compile section, for its command. -/
theorem closing_of_entry {q : Questions} {s : Scan} {line : String} {entry : Entry}
    (h : entry ∈ Trace.entries (s.take q line).2) :
    ∃ directory, Closing s line .compile directory ∧
      (Command.compile q.fileExists s.table line directory).result = .ok entry := by
  have hanswer := take_answer q s line
  generalize s.take q line = r at hanswer h
  cases hanswer with
  | quiet _ hasides =>
      rw [hasides.entries] at h
      cases h
  | unmapped => cases h
  | mapped => cases h
  | excluded _ _ _ hasides =>
      rw [hasides.entries] at h
      cases h
  | @kept directory _ _ hclosing hresult _ hasides =>
      rw [entries_append, hasides.entries] at h
      obtain rfl : entry = _ := List.mem_singleton.mp h
      exact ⟨directory, hclosing, hresult⟩
  | failed _ _ hasides =>
      rw [entries_append, hasides.entries] at h
      cases h

/-- Only the invocation of a precompile section changes the table. -/
theorem table_take (q : Questions) {s : Scan} {line : String}
    (h : ∀ directory, ¬ Closing s line .precompile directory) :
    (s.take q line).1.table = s.table := by
  have hanswer := take_answer q s line
  generalize s.take q line = r at hanswer
  cases hanswer with
  | unmapped hclosing => exact absurd hclosing (h _)
  | mapped hclosing => exact absurd hclosing (h _)
  | quiet => rfl
  | excluded => rfl
  | kept => rfl
  | failed => rfl

/-! ## Runs -/

theorem step_of_running {q : Questions} {s : Scan} (h : s.phase ≠ .stopped) (line : String) :
    step q s line = ((s.take q line).1, .pulled line :: (s.take q line).2) := by
  rw [step, if_neg h]

theorem step_of_stopped {q : Questions} {s : Scan} (h : s.phase = .stopped) (line : String) :
    step q s line = (s, []) := by
  rw [step, if_pos h]

theorem pulled_step (q : Questions) (s : Scan) (line : String) :
    Trace.pulled (step q s line).2 = if s.phase = .stopped then [] else [line] := by
  by_cases h : s.phase = .stopped
  · rw [step_of_stopped h, if_pos h]
    rfl
  · rw [step_of_running h, if_neg h]
    show line :: Trace.pulled (s.take q line).2 = [line]
    rw [pulled_take]

theorem run_stopped (q : Questions) {s : Scan} (h : s.phase = .stopped) (lines : List String) :
    run (step q) s lines = (s, []) := by
  rw [run_of_still fun _ => []]
  · simp
  · exact fun line _ => step_of_stopped h line

theorem pulled_initial (q : Questions) (lines : List String) (s : Scan) :
    Trace.pulled (run (step q) s lines).2 <+: lines := by
  induction lines generalizing s with
  | nil => exact List.prefix_rfl
  | cons line lines ih =>
      rw [run_cons, pulled_append, pulled_step]
      by_cases h : s.phase = .stopped
      · rw [if_pos h, step_of_stopped h, run_stopped q h]
        exact List.nil_prefix
      · rw [if_neg h]
        exact List.cons_prefix_cons.mpr ⟨rfl, ih _⟩

/-- A scan of lines that a scan has taken takes all of them. -/
theorem pulled_of_pulled (q : Questions) {lines read : List String} {s : Scan}
    (h : read <+: Trace.pulled (run (step q) s lines).2) :
    Trace.pulled (run (step q) s read).2 = read := by
  induction lines generalizing s read with
  | nil =>
      obtain rfl : read = [] := List.prefix_nil.mp h
      rfl
  | cons line lines ih =>
      rw [run_cons, pulled_append, pulled_step] at h
      by_cases hstopped : s.phase = .stopped
      · rw [if_pos hstopped, step_of_stopped hstopped, run_stopped q hstopped] at h
        obtain rfl : read = [] := List.prefix_nil.mp h
        rfl
      · rw [if_neg hstopped] at h
        cases read with
        | nil => rfl
        | cons first read =>
            obtain ⟨rfl, h⟩ := List.cons_prefix_cons.mp h
            rw [run_cons, pulled_append, pulled_step, if_neg hstopped, ih h]
            rfl

/-- A scan that takes one more line was not stopped before it. -/
theorem running_of_pulled (q : Questions) {read : List String} {line : String} {s : Scan}
    (h : Trace.pulled (run (step q) s (read ++ [line])).2 = read ++ [line]) :
    Trace.pulled (run (step q) s read).2 = read ∧ (run (step q) s read).1.phase ≠ .stopped := by
  rw [run_concat, pulled_append, pulled_step] at h
  by_cases hstopped : (run (step q) s read).1.phase = .stopped
  · have hlength := (pulled_initial q read s).length_le
    rw [if_pos hstopped, List.append_nil] at h
    rw [h, List.length_append, List.length_singleton] at hlength
    omega
  · rw [if_neg hstopped] at h
    exact ⟨List.append_cancel_right h, hstopped⟩

/-- A scan that runs behind a line has run before it. -/
theorem running_concat (q : Questions) {lines : List String} {line : String} {s : Scan}
    (h : (run (step q) s (lines ++ [line])).1.phase ≠ .stopped) :
    (run (step q) s lines).1.phase ≠ .stopped ∧
      ((run (step q) s lines).1.take q line).1.phase ≠ .stopped := by
  rw [run_concat] at h
  by_cases hbefore : (run (step q) s lines).1.phase = .stopped
  · rw [step_of_stopped hbefore] at h
    exact absurd hbefore h
  · rw [step_of_running hbefore] at h
    exact ⟨hbefore, h⟩

theorem pulled_of_running (q : Questions) {lines : List String} {s : Scan}
    (h : (run (step q) s lines).1.phase ≠ .stopped) :
    Trace.pulled (run (step q) s lines).2 = lines := by
  induction lines using List.reverseRecOn with
  | nil => rfl
  | append_singleton lines line ih =>
      have hbefore := (running_concat q h).1
      rw [run_concat, pulled_append, ih hbefore, pulled_step, if_neg hbefore]

/-- What stands in two rows, one behind the other, stands in one of them. -/
theorem append_eq_append_cons {α : Type} {xs ys front back : List α} {x : α}
    (h : xs ++ ys = front ++ x :: back) :
    (∃ later, xs = front ++ x :: later ∧ back = later ++ ys) ∨
      ∃ earlier, front = xs ++ earlier ∧ ys = earlier ++ x :: back := by
  rcases List.append_eq_append_iff.mp h with hsecond | ⟨less, rfl, hless⟩
  · exact Or.inr hsecond
  · cases less with
    | nil => exact Or.inr ⟨[], by simp, hless.symm⟩
    | cons first later =>
        cases hless
        exact Or.inl ⟨later, rfl, rfl⟩

/-- Each event of a scan is the taking of a line, or stands among the answers to a line; before it
stands what the scan has done with the lines before. -/
theorem exists_line_at (q : Questions) {lines : List String} {s : Scan} {e : Event}
    {front back : List Event} (h : (run (step q) s lines).2 = front ++ e :: back) :
    ∃ read line rest, lines = read ++ line :: rest ∧ (run (step q) s read).1.phase ≠ .stopped ∧
      (e = .pulled line ∧ front = (run (step q) s read).2 ∨
        ∃ answers later, front = (run (step q) s read).2 ++ .pulled line :: answers ∧
          ((run (step q) s read).1.take q line).2 = answers ++ e :: later) := by
  induction lines using List.reverseRecOn generalizing back with
  | nil => simp at h
  | append_singleton lines line ih =>
      rw [run_concat] at h
      rcases append_eq_append_cons h with ⟨later, hrun, -⟩ | ⟨earlier, rfl, hstep⟩
      · obtain ⟨read, first, rest, rfl, hrunning, hplace⟩ := ih hrun
        exact ⟨read, first, rest ++ [line], by simp, hrunning, hplace⟩
      · by_cases hstopped : (run (step q) s lines).1.phase = .stopped
        · simp [step_of_stopped hstopped] at hstep
        · rw [step_of_running hstopped] at hstep
          refine ⟨lines, line, [], rfl, hstopped, ?_⟩
          rcases List.cons_eq_append_iff.mp hstep with ⟨rfl, hfirst⟩ | ⟨answers, rfl, hanswers⟩
          · cases hfirst
            exact Or.inl ⟨rfl, List.append_nil _⟩
          · exact Or.inr ⟨answers, back, rfl, hanswers⟩

/-- Whatever a scan does, it does at a line that it takes. -/
theorem exists_line_of_mem (q : Questions) {lines : List String} {s : Scan} {e : Event}
    (h : e ∈ (run (step q) s lines).2) :
    ∃ read line, read ++ [line] <+: Trace.pulled (run (step q) s lines).2 ∧
      (e = .pulled line ∨ e ∈ ((run (step q) s read).1.take q line).2) := by
  obtain ⟨front, back, hsplit⟩ := List.append_of_mem h
  obtain ⟨read, line, rest, rfl, hrunning, hplace⟩ := exists_line_at q hsplit
  refine ⟨read, line, ?_, ?_⟩
  · rw [run_append, run_cons, pulled_append, pulled_append, pulled_of_running q hrunning,
      pulled_step, if_neg hrunning, ← List.append_assoc]
    exact List.prefix_append _ _
  · rcases hplace with ⟨hline, -⟩ | ⟨answers, later, -, hanswers⟩
    · exact Or.inl hline
    · rw [hanswers]
      exact Or.inr (by simp)

/-- A scan that is stopped has been stopped by one of the lines. -/
theorem exists_stop (q : Questions) {lines : List String} {s : Scan} (hs : s.phase ≠ .stopped)
    (h : (run (step q) s lines).1.phase = .stopped) :
    ∃ read line rest, lines = read ++ line :: rest ∧
      (run (step q) s read).1.phase ≠ .stopped ∧
      ((run (step q) s read).1.take q line).1.phase = .stopped := by
  induction lines using List.reverseRecOn with
  | nil => exact absurd h hs
  | append_singleton lines line ih =>
      by_cases hbefore : (run (step q) s lines).1.phase = .stopped
      · obtain ⟨read, first, rest, rfl, hrunning, hstops⟩ := ih hbefore
        exact ⟨read, first, rest ++ [line], by simp, hrunning, hstops⟩
      · refine ⟨lines, line, [], rfl, hbefore, ?_⟩
        rw [run_concat, step_of_running hbefore] at h
        exact h

/-- Up to the line that stops it, a scan has taken each line, and it does nothing behind that. -/
theorem run_of_stop (q : Questions) {read rest : List String} {line : String} {s : Scan}
    (hrunning : (run (step q) s read).1.phase ≠ .stopped)
    (hstops : ((run (step q) s read).1.take q line).1.phase = .stopped) :
    run (step q) s (read ++ line :: rest) =
      (((run (step q) s read).1.take q line).1,
        (run (step q) s read).2 ++ .pulled line :: ((run (step q) s read).1.take q line).2) := by
  rw [run_append, run_cons, step_of_running hrunning, run_stopped q hstops, List.append_nil]

/-- As long as a scan takes lines, its table is the first one with the mappings of the finished
sections, and its phase is that of the outline, unless the last line has stopped it. -/
theorem follows_outline (q : Questions) (table : HeaderTable) (read : List String)
    (h : Trace.pulled (run (step q) (start table) read).2 = read) :
    (run (step q) (start table) read).1.table =
        table.insertAll (sectionMappings q.excludesDirectory read) ∧
      ((run (step q) (start table) read).1.phase = .stopped ∨
        (run (step q) (start table) read).1.phase =
          (run (outlineStep q.excludesDirectory) .between read).1) := by
  induction read using List.reverseRecOn with
  | nil =>
      rw [sectionMappings, sections_of_no_marker rfl]
      exact ⟨rfl, Or.inr rfl⟩
  | append_singleton read line ih =>
      obtain ⟨hread, hrunning⟩ := running_of_pulled q h
      obtain ⟨htable, hphase⟩ := ih hread
      have hphase := hphase.resolve_left hrunning
      -- the outline of the lines before is in the phase, so the next line adds to the sections alone
      have hmappings : sectionMappings q.excludesDirectory (read ++ [line]) =
          sectionMappings q.excludesDirectory read ++
            (outlineStep q.excludesDirectory
              (run (step q) (start table) read).1.phase line).2.filterMap Section.mapping? := by
        rw [sectionMappings, sections_concat, List.filterMap_append, hphase]
        rfl
      rw [run_concat, run_concat, step_of_running hrunning, take_table, htable, hmappings, ← hphase]
      refine ⟨?_, (take_phase q _ line).imp And.left And.left⟩
      rw [HeaderTable.insertAll, HeaderTable.insertAll, HeaderTable.insertAll, List.foldl_append]

theorem step_tableAfter (q : Questions) (s : Scan) (line : String) :
    (step q s line).1.table = Trace.tableAfter s.table (step q s line).2 := by
  by_cases h : s.phase = .stopped
  · rw [step_of_stopped h]
    rfl
  · rw [step_of_running h, take_tableAfter]
    rfl

theorem run_tableAfter (q : Questions) (lines : List String) (s : Scan) :
    (run (step q) s lines).1.table = Trace.tableAfter s.table (run (step q) s lines).2 := by
  induction lines generalizing s with
  | nil => rfl
  | cons line lines ih => rw [run_cons, ih, step_tableAfter, tableAfter_append]

/-! ## The end of a scan -/

theorem run_ending (q : Questions) (lines : List String) {s : Scan} (h : s.phase ≠ .stopped) :
    (run (step q) s lines).1.phase = .stopped ∧ FailsAtCommand (run (step q) s lines).2 ∨
      (run (step q) s lines).1.phase ≠ .stopped ∧ Ongoing (run (step q) s lines).2 := by
  induction lines using List.reverseRecOn with
  | nil => exact Or.inr ⟨h, Asides.nil.ongoing⟩
  | append_singleton lines line ih =>
      rw [run_concat]
      rcases ih with ⟨hphase, hfails⟩ | ⟨hphase, hongoing⟩
      · rw [step_of_stopped hphase, List.append_nil]
        exact Or.inl ⟨hphase, hfails⟩
      · have hpulled : Ongoing [.pulled line] := by simp [Ongoing, Event.isLast]
        rw [step_of_running hphase]
        rcases take_phase q _ line with ⟨hnext, hfails⟩ | ⟨hnext, hanswers⟩
        · exact Or.inl ⟨hnext, (hfails.behind hpulled).behind hongoing⟩
        · refine Or.inr ⟨?_, hongoing.append (hpulled.append hanswers)⟩
          rw [hnext]
          exact outlineStep_running hphase line

theorem finish_ending {s : Scan} (h : s.phase ≠ .stopped) (failure : Option Failure) :
    ∃ front last, s.finish failure = front ++ [last] ∧ Ongoing front ∧
      (last = .ended ∧ failure = none ∨ ∃ f, last = .failed f ∧ failure = some f) := by
  obtain ⟨table, phase⟩ := s
  cases failure with
  | some f =>
      refine ⟨[], .failed f, ?_, Asides.nil.ongoing, Or.inr ⟨f, rfl, rfl⟩⟩
      cases phase with
      | stopped => exact absurd rfl h
      | _ => rfl
  | none =>
      cases phase with
      | stopped => exact absurd rfl h
      | between => exact ⟨[], .ended, rfl, Asides.nil.ongoing, Or.inl ⟨rfl, rfl⟩⟩
      | marked kind => exact ⟨[], .ended, rfl, Asides.nil.ongoing, Or.inl ⟨rfl, rfl⟩⟩
      | seeking kind directory =>
          exact ⟨[.logged (.openSection kind directory)], .ended, rfl,
            by simp [Ongoing, Event.isLast], Or.inl ⟨rfl, rfl⟩⟩

theorem finish_of_stopped {s : Scan} (h : s.phase = .stopped) (failure : Option Failure) :
    s.finish failure = [] := by
  simp only [finish, h]

theorem trace_eq (q : Questions) (table : HeaderTable) (log : Log) :
    trace q table log = (run (step q) (start table) log.lines).2 ++
      (run (step q) (start table) log.lines).1.finish log.failure := rfl

/-- The last event of a scan says that the log is at its end, or why the scan failed: at a command,
or where its log does. No event before it says either. -/
theorem trace_ending (q : Questions) (table : HeaderTable) (log : Log) :
    ∃ front last, trace q table log = front ++ [last] ∧ Ongoing front ∧
      (last = .ended ∧ log.failure = none ∨
        ∃ f, last = .failed f ∧ (log.failure = some f ∨ f.isOfCommand = true)) := by
  have hstart : (start table).phase ≠ .stopped := by simp [start]
  rw [trace_eq]
  rcases run_ending q log.lines hstart with ⟨hphase, hfails⟩ | ⟨hphase, hongoing⟩
  · obtain ⟨front, f, hevents, hfront, hf⟩ := hfails
    refine ⟨front, .failed f, ?_, hfront, Or.inr ⟨f, rfl, Or.inr hf⟩⟩
    rw [finish_of_stopped hphase, hevents, List.append_nil]
  · obtain ⟨front, last, hfinish, hfront, hlast⟩ := finish_ending hphase log.failure
    refine ⟨(run (step q) (start table) log.lines).2 ++ front, last, ?_,
      hongoing.append hfront, ?_⟩
    · rw [hfinish, List.append_assoc]
    · exact hlast.imp_right fun ⟨f, hf, hlog⟩ => ⟨f, hf, Or.inl hlog⟩

/-- A scan ends without a failure if it has not been stopped and its log does not fail. -/
theorem failure?_eq_none_iff {q : Questions} {known : HeaderTable} {log : Log} :
    Trace.failure? (trace q known log) = none ↔
      (run (step q) (start known) log.lines).1.phase ≠ .stopped ∧ log.failure = none := by
  have hstart : (start known).phase ≠ .stopped := by simp [start]
  rw [trace_eq, failure?_append]
  rcases run_ending q log.lines hstart with ⟨hstopped, hfails⟩ | ⟨hrunning, hongoing⟩
  · obtain ⟨front, failure, hevents, hfront, -⟩ := hfails
    rw [hevents, failure?_append, hfront.failure?]
    simp [hstopped, Trace.failure?, Event.failed?]
  · obtain ⟨front, last, hfinish, hfront, hlast⟩ := finish_ending hrunning log.failure
    rw [hongoing.failure?, hfinish, failure?_append, hfront.failure?]
    rcases hlast with ⟨rfl, hnone⟩ | ⟨f, rfl, hsome⟩
    · simp [hrunning, hnone, Trace.failure?, Event.failed?]
    · simp [hsome, Trace.failure?, Event.failed?]

theorem getLast?_of_ends {q : Questions} {known : HeaderTable} {log : Log}
    (h : Trace.failure? (trace q known log) = none) :
    (trace q known log).getLast? = some .ended := by
  obtain ⟨front, last, htrace, hfront, hlast⟩ := trace_ending q known log
  rw [htrace, failure?_append, hfront.failure?, Option.none_or] at h
  rw [htrace, List.getLast?_concat]
  rcases hlast with ⟨rfl, -⟩ | ⟨f, rfl, -⟩
  · rfl
  · cases h

/-- Leaving out events before the last leaves the last. -/
theorem getLast?_filter_trace {kept : Event → Bool} (h : ∀ e, e.isLast = true → kept e = true)
    (q : Questions) (known : HeaderTable) (log : Log) :
    ((trace q known log).filter kept).getLast? = (trace q known log).getLast? := by
  obtain ⟨front, last, htrace, -, hlast⟩ := trace_ending q known log
  have hkept : kept last = true := by
    rcases hlast with ⟨rfl, -⟩ | ⟨f, rfl, -⟩
    · exact h .ended rfl
    · exact h (.failed f) rfl
  rw [htrace, List.filter_append, List.filter_cons_of_pos hkept, List.filter_nil,
    List.getLast?_concat, List.getLast?_concat]

theorem entries_finish (s : Scan) (failure : Option Failure) :
    Trace.entries (s.finish failure) = [] := by
  obtain ⟨table, phase⟩ := s
  cases phase <;> cases failure <;> rfl

theorem pulled_finish (s : Scan) (failure : Option Failure) :
    Trace.pulled (s.finish failure) = [] := by
  obtain ⟨table, phase⟩ := s
  cases phase <;> cases failure <;> rfl

theorem mappings_finish (s : Scan) (failure : Option Failure) :
    Trace.mappings (s.finish failure) = [] := by
  obtain ⟨table, phase⟩ := s
  cases phase <;> cases failure <;> rfl

theorem pulled_trace (q : Questions) (known : HeaderTable) (log : Log) :
    Trace.pulled (trace q known log) = Trace.pulled (run (step q) (start known) log.lines).2 := by
  rw [trace_eq, pulled_append, pulled_finish, List.append_nil]

/-- Around a line that it takes, a scan is what it did before, the answer to the line, and what it
does later, which is nothing if the answer has stopped it. -/
theorem trace_split {q : Questions} {known : HeaderTable} {log : Log} {read : List String}
    {line : String} (h : read ++ [line] <+: Trace.pulled (trace q known log)) :
    let s := (run (step q) (start known) read).1
    s.phase ≠ .stopped ∧
      ∃ after, trace q known log =
          (run (step q) (start known) read).2 ++ (.pulled line :: (s.take q line).2) ++ after ∧
        ((s.take q line).1.phase = .stopped → after = []) := by
  intro s
  rw [pulled_trace] at h
  obtain ⟨rest, hrest⟩ := h.trans (pulled_initial q log.lines (start known))
  have hrunning : s.phase ≠ .stopped := (running_of_pulled q (pulled_of_pulled q h)).2
  have hrun : run (step q) (start known) log.lines =
      ((run (step q) (s.take q line).1 rest).1,
        (run (step q) (start known) read).2 ++ (.pulled line :: (s.take q line).2) ++
          (run (step q) (s.take q line).1 rest).2) := by
    rw [← hrest, run_append, run_concat, step_of_running hrunning]
  refine ⟨hrunning, (run (step q) (s.take q line).1 rest).2 ++
    (run (step q) (s.take q line).1 rest).1.finish log.failure, ?_, ?_⟩
  · rw [trace_eq, hrun, List.append_assoc _ _ (finish _ _)]
  · intro hstopped
    rw [run_stopped q hstopped, finish_of_stopped hstopped]
    rfl

/-- A line whose answer holds a failure is the last that the scan takes, and the failure is the
scan's own. -/
theorem trace_of_failed {q : Questions} {known : HeaderTable} {log : Log} {read : List String}
    {line : String} (h : read ++ [line] <+: Trace.pulled (trace q known log)) {failure : Failure}
    (hfailed : .failed failure ∈ ((run (step q) (start known) read).1.take q line).2) :
    trace q known log = (run (step q) (start known) read).2 ++
        .pulled line :: ((run (step q) (start known) read).1.take q line).2 ∧
      Trace.failure? (trace q known log) = some failure := by
  obtain ⟨hrunning, after, hsplit, hstop⟩ := trace_split h
  rcases take_phase q (run (step q) (start known) read).1 line with ⟨hstopped, hfails⟩ | ⟨-, hgoes⟩
  · rw [hstop hstopped, List.append_nil] at hsplit
    have hbefore : Ongoing (run (step q) (start known) read).2 := by
      rcases run_ending q read (s := start known) (by simp [start]) with ⟨hphase, -⟩ | ⟨-, hbefore⟩
      · exact absurd hphase hrunning
      · exact hbefore
    refine ⟨hsplit, ?_⟩
    rw [hsplit, failure?_append, hbefore.failure?, Option.none_or]
    exact hfails.failure? hfailed
  · exact absurd hfailed (hgoes.not_failed failure)

end Scan

end CompileCommands
