import CompileCommands.Proofs.Scan.BuildLog

/-!
# Leaving out directories

The section of an excluded directory ends at its directory line, and the scan reads the rest of its
lines between two sections. Where none of these opens a section of its own, nothing comes of them,
and the scan is back where it was. So excluding directories is the same as deleting their sections
from the log (`directory_exclusion_deletes`).

Both scans go through the log one section at a time. Over a section that is kept they do the same
(`run_of_kept`), over one that is left out only the first has lines to take, and comes back with the
table that it had (`run_of_excluded`).
-/

namespace CompileCommands

def Questions.keepingDirectories (q : Questions) : Questions :=
  { q with excludesDirectory := fun _ => false }

def Message.isSkip : Message → Bool
  | .excludedSection _ _ => true
  | _ => false

/-- What a deleted section takes with it: its lines, the question about its directory, and the
message that it is skipped. -/
def Event.isOfSkipping : Event → Bool
  | .pulled _ | .askedDirectory _ => true
  | .logged message => message.isSkip
  | _ => false

namespace Scan

open Transducer

/-! ## Logs of whole sections -/

/-- A section with all its lines. Behind the directory line none of them opens another section, and
the first invocation is the section's own. -/
structure Block where
  kind : SectionKind
  marker : String
  directoryLine : String
  body : List String
  invocation : String
  after : List String
  marker_opens : SectionKind.ofLine? marker = some kind
  body_no_marker : ∀ line ∈ body, SectionKind.ofLine? line = none
  body_no_invocation : ∀ line ∈ body, Command.isInvocation line = false
  invocation_invokes : Command.isInvocation invocation = true
  invocation_no_marker : SectionKind.ofLine? invocation = none
  after_no_marker : ∀ line ∈ after, SectionKind.ofLine? line = none

instance : Inhabited Block where
  default :=
    { kind := .precompile
      marker := "ProcessPCH p.pch"
      directoryLine := "cd /"
      body := ["export LANG"]
      invocation := "cc -c p.h -o p.h.pch"
      after := ["done"]
      marker_opens := by decide +kernel
      body_no_marker := by decide +kernel
      body_no_invocation := by decide +kernel
      invocation_invokes := by decide +kernel
      invocation_no_marker := by decide +kernel
      after_no_marker := by decide +kernel }

namespace Block

def directory (b : Block) : String := Command.directory b.directoryLine

def rest (b : Block) : List String := b.body ++ [b.invocation] ++ b.after

def lines (b : Block) : List String := [b.marker, b.directoryLine] ++ b.rest

def skip (b : Block) : Message := .excludedSection b.kind b.directory

/-- The sections of which the first line is among so many lines. -/
def begun : Nat → List Block → List Block
  | _, [] => []
  | taken, b :: later => if taken = 0 then [] else b :: begun (taken - b.lines.length) later

theorem rest_no_marker (b : Block) : ∀ line ∈ b.rest, SectionKind.ofLine? line = none := by
  intro line hline
  rcases List.mem_append.mp hline with hline | hline
  · rcases List.mem_append.mp hline with hline | hline
    · exact b.body_no_marker line hline
    · obtain rfl : line = b.invocation := List.mem_singleton.mp hline
      exact b.invocation_no_marker
  · exact b.after_no_marker line hline

theorem begun_zero (blocks : List Block) : begun 0 blocks = [] := by
  cases blocks <;> rfl

theorem begun_within {b : Block} {taken : Nat} (hfirst : 0 < taken) (hlast : taken ≤ b.lines.length)
    (later : List Block) : begun taken (b :: later) = [b] := by
  rw [begun, if_neg (by omega), Nat.sub_eq_zero_of_le hlast, begun_zero]

theorem begun_behind (b : Block) (taken : Nat) (later : List Block) :
    begun (b.lines.length + taken) (b :: later) = b :: begun taken later := by
  have hpos : 0 < b.lines.length := by simp [lines]
  rw [begun, if_neg (by omega), Nat.add_sub_cancel_left]

end Block

/-- Lines that open no section, and whole sections behind them. -/
structure BlockLog where
  preamble : List String
  blocks : List Block
  preamble_no_marker : ∀ line ∈ preamble, SectionKind.ofLine? line = none

namespace BlockLog

def lines (log : BlockLog) : List String := log.preamble ++ log.blocks.flatMap Block.lines

def without (excludes : String → Bool) (log : BlockLog) : BlockLog :=
  { log with blocks := log.blocks.filter fun b => !excludes b.directory }

def begun (log : BlockLog) (taken : Nat) : List Block :=
  Block.begun (taken - log.preamble.length) log.blocks

end BlockLog

/-! ## The run over one section -/

section Run

variable (q : Questions) (table : HeaderTable) (b : Block)

theorem run_of_excluded (h : q.excludesDirectory b.directory = true) :
    run (step q) ⟨table, .between⟩ b.lines =
      (⟨table, .between⟩,
        [.pulled b.marker, .pulled b.directoryLine, .askedDirectory b.directory, .logged b.skip] ++
          b.rest.map .pulled) := by
  have hopening : run (step q) ⟨table, .between⟩ [b.marker, b.directoryLine] =
      (⟨table, .between⟩,
        [.pulled b.marker, .pulled b.directoryLine, .askedDirectory b.directory,
          .logged b.skip]) := by
    rw [Block.directory] at h
    rw [run_cons, run_cons]
    simp [step, take, b.marker_opens, h, Block.skip, Block.directory]
  rw [Block.lines, run_append, hopening, run_between b.rest_no_marker]

def atInvocation : Scan × List Event :=
  (⟨table, .seeking b.kind b.directory⟩ : Scan).take q b.invocation

theorem phase_atInvocation :
    (atInvocation q table b).1.phase = .stopped ∨ (atInvocation q table b).1.phase = .between := by
  have hclosing : Closing ⟨table, .seeking b.kind b.directory⟩ b.invocation b.kind b.directory :=
    ⟨rfl, b.invocation_invokes⟩
  rcases take_phase q ⟨table, .seeking b.kind b.directory⟩ b.invocation with ⟨hstopped, -⟩ | ⟨hphase, -⟩
  · exact Or.inl hstopped
  · rw [hclosing.outline] at hphase
    exact Or.inr hphase

theorem run_after {s : Scan} (h : s.phase = .stopped ∨ s.phase = .between) {noise : List String}
    (hnoise : ∀ line ∈ noise, SectionKind.ofLine? line = none) :
    run (step q) s noise = (s, if s.phase = .stopped then [] else noise.map .pulled) := by
  obtain ⟨table, phase⟩ := s
  rcases h with rfl | rfl
  · exact run_stopped q rfl noise
  · exact run_between hnoise

theorem run_of_kept (h : q.excludesDirectory b.directory = false) :
    run (step q) ⟨table, .between⟩ b.lines =
      ((atInvocation q table b).1,
        [.pulled b.marker, .pulled b.directoryLine, .askedDirectory b.directory] ++
          b.body.map .pulled ++ .pulled b.invocation :: (atInvocation q table b).2 ++
            if (atInvocation q table b).1.phase = .stopped then [] else b.after.map .pulled) := by
  have hopening : run (step q) ⟨table, .between⟩ [b.marker, b.directoryLine] =
      (⟨table, .seeking b.kind b.directory⟩,
        [.pulled b.marker, .pulled b.directoryLine, .askedDirectory b.directory]) := by
    rw [Block.directory] at h
    rw [run_cons, run_cons]
    simp [step, take, b.marker_opens, h, Block.directory]
  have hinvocation : run (step q) ⟨table, .seeking b.kind b.directory⟩ [b.invocation] =
      ((atInvocation q table b).1, .pulled b.invocation :: (atInvocation q table b).2) := by
    rw [run_cons, step_of_running (by simp)]
    simp [atInvocation]
  rw [Block.lines, Block.rest, run_append, hopening, run_append, run_append,
    run_seeking b.body_no_invocation, hinvocation,
    run_after q (phase_atInvocation q table b) b.after_no_marker]
  simp

/-- Over a section that is kept, it does not matter whether others are left out. -/
theorem run_keepingDirectories (h : q.excludesDirectory b.directory = false) :
    run (step q) ⟨table, .between⟩ b.lines =
      run (step q.keepingDirectories) ⟨table, .between⟩ b.lines := by
  rw [run_of_kept q table b h, run_of_kept q.keepingDirectories table b rfl]
  rfl

end Run

/-! ## What is told of sections left out -/

def skips (events : List Event) : List Message := (Trace.messages events).filter Message.isSkip

def others (events : List Event) : List Event := events.filter fun e => !e.isOfSkipping

theorem skips_append (front back : List Event) :
    skips (front ++ back) = skips front ++ skips back := by
  rw [skips, Trace.messages, List.filterMap_append, List.filter_append]
  rfl

theorem others_append (front back : List Event) :
    others (front ++ back) = others front ++ others back :=
  List.filter_append ..

theorem skips_of_unlogged {γ : Type} {f : γ → Event} (h : ∀ x, (f x).logged? = none)
    (xs : List γ) : skips (xs.map f) = [] := by
  rw [skips, Trace.messages, unseen h]
  rfl

theorem skips_take (q : Questions) (s : Scan) (line : String) :
    skips (s.take q.keepingDirectories line).2 = [] := by
  by_cases hcompile : ∃ directory, Closing s line .compile directory
  · obtain ⟨directory, hclosing⟩ := hcompile
    have hasked : ∀ paths : List String, skips (paths.map .askedExists) = [] :=
      skips_of_unlogged fun _ => rfl
    rw [take_of_closing_compile _ hclosing]
    cases hresult :
        (Command.compile q.keepingDirectories.fileExists s.table line directory).result with
    | error failure =>
        rw [takeCompile_of_error hresult, skips_append, hasked]
        rfl
    | ok entry =>
        rw [takeCompile_of_ok hresult, skips_append, hasked]
        cases q.keepingDirectories.excludesFile entry.file with
        | true => rfl
        | false => rfl
  · have hother := not_exists.mp hcompile
    rcases events_elsewhere q.keepingDirectories hother with
      hrow | ⟨_, hrow⟩ | ⟨_, _, hexcluded, -⟩ | ⟨_, hrow⟩
    · rw [hrow]
      rfl
    · rw [hrow]
      rfl
    · cases hexcluded
    · rw [hrow]
      rfl

theorem skips_run (q : Questions) (s : Scan) (lines : List String) :
    skips (run (step q.keepingDirectories) s lines).2 = [] := by
  induction lines generalizing s with
  | nil => rfl
  | cons line lines ih =>
      rw [run_cons, skips_append, ih, List.append_nil]
      by_cases h : s.phase = .stopped
      · rw [step_of_stopped h]
        rfl
      · rw [step_of_running h]
        exact skips_take q s line

/-! ## The run over all sections -/

/-- What a run over whole sections has in common with the run over those that are kept. -/
structure SameButSkips (q : Questions) (blocks : List Block) (all kept : Scan × List Event) :
    Prop where
  state : all.1 = kept.1
  events : others all.2 = others kept.2
  messages : skips all.2 =
    ((Block.begun (Trace.pulled all.2).length blocks).filter fun b =>
      q.excludesDirectory b.directory).map Block.skip

section Cons

variable {q : Questions} {b : Block} {later : List Block} {all kept : Scan × List Event}
  {row : List Event}

theorem SameButSkips.skipping (h : q.excludesDirectory b.directory = true)
    (hpulled : Trace.pulled row = b.lines) (hothers : others row = []) (hskips : skips row = [b.skip])
    (hlater : SameButSkips q later all kept) :
    SameButSkips q (b :: later) (all.1, row ++ all.2) kept where
  state := hlater.state
  events := by rw [others_append, hothers, hlater.events, List.nil_append]
  messages := by
    rw [skips_append, hskips, hlater.messages, pulled_append, hpulled, List.length_append,
      Block.begun_behind, List.filter_cons_of_pos (by simp [h])]
    rfl

theorem SameButSkips.keeping (h : q.excludesDirectory b.directory = false)
    (hpulled : Trace.pulled row = b.lines) (hskips : skips row = [])
    (hlater : SameButSkips q later all kept) :
    SameButSkips q (b :: later) (all.1, row ++ all.2) (kept.1, row ++ kept.2) where
  state := hlater.state
  events := by rw [others_append, others_append, hlater.events]
  messages := by
    rw [skips_append, hskips, hlater.messages, pulled_append, hpulled, List.length_append,
      Block.begun_behind, List.filter_cons_of_neg (by simp [h])]
    rfl

/-- No section begins behind one that stops the scan. -/
theorem SameButSkips.stopping (h : q.excludesDirectory b.directory = false) {s : Scan}
    (hfirst : 0 < (Trace.pulled row).length) (hlast : (Trace.pulled row).length ≤ b.lines.length)
    (hskips : skips row = []) : SameButSkips q (b :: later) (s, row) (s, row) where
  state := rfl
  events := rfl
  messages := by
    rw [hskips, Block.begun_within hfirst hlast, List.filter_cons_of_neg (by simp [h])]
    rfl

end Cons

/-- A run over a section that is kept tells of no section left out. Some lines of the section are
taken, and all of them unless the scan stops. -/
structure KeptRun (b : Block) (r : Scan × List Event) : Prop where
  skips : skips r.2 = []
  first : 0 < (Trace.pulled r.2).length
  last : (Trace.pulled r.2).length ≤ b.lines.length
  phase : r.1.phase = .stopped ∨ r.1.phase = .between ∧ Trace.pulled r.2 = b.lines

theorem keptRun (q : Questions) (table : HeaderTable) (b : Block)
    (h : q.excludesDirectory b.directory = false) :
    KeptRun b (run (step q) ⟨table, .between⟩ b.lines) where
  skips := by
    rw [run_keepingDirectories q table b h]
    exact skips_run q _ _
  first := by
    rw [run_of_kept q table b h]
    exact Nat.succ_pos _
  last := (pulled_initial q b.lines ⟨table, .between⟩).length_le
  phase := by
    have hphase : (run (step q) ⟨table, .between⟩ b.lines).1.phase = .stopped ∨
        (run (step q) ⟨table, .between⟩ b.lines).1.phase = .between := by
      rw [run_of_kept q table b h]
      exact phase_atInvocation q table b
    exact hphase.imp_right fun hbetween =>
      ⟨hbetween, pulled_of_running q (by rw [hbetween]; simp)⟩

theorem run_blocks (q : Questions) (table : HeaderTable) (blocks : List Block) :
    SameButSkips q blocks (run (step q) ⟨table, .between⟩ (blocks.flatMap Block.lines))
      (run (step q.keepingDirectories) ⟨table, .between⟩
        ((blocks.filter fun b => !q.excludesDirectory b.directory).flatMap Block.lines)) := by
  induction blocks generalizing table with
  | nil => exact ⟨rfl, rfl, rfl⟩
  | cons b later ih =>
      by_cases h : q.excludesDirectory b.directory = true
      · have hrow := run_of_excluded q table b h
        have hpulled : Trace.pulled (run (step q) ⟨table, .between⟩ b.lines).2 = b.lines :=
          pulled_of_running q (by rw [hrow]; simp)
        rw [List.filter_cons_of_neg (by simp [h]), List.flatMap_cons, run_append]
        rw [hrow] at hpulled ⊢
        refine SameButSkips.skipping h hpulled ?_ ?_ (ih table)
        · simp [others, Event.isOfSkipping, Block.skip, Message.isSkip]
        · rw [skips_append, skips_of_unlogged fun _ => rfl]
          rfl
      · have hkept : q.excludesDirectory b.directory = false := by simpa using h
        have hrun := keptRun q table b hkept
        rw [List.filter_cons_of_pos (by simp [hkept]), List.flatMap_cons, List.flatMap_cons,
          run_append, run_append, ← run_keepingDirectories q table b hkept]
        -- both scans stop in this section, or both go on behind it with the same table
        generalize run (step q) ⟨table, .between⟩ b.lines = r at hrun ⊢
        obtain ⟨⟨next, phase⟩, row⟩ := r
        rcases hrun.phase with hstopped | ⟨hbetween, hpulled⟩
        · obtain rfl : phase = .stopped := hstopped
          rw [run_stopped q rfl, run_stopped q.keepingDirectories rfl, List.append_nil]
          exact SameButSkips.stopping hkept hrun.first hrun.last hrun.skips
        · obtain rfl : phase = .between := hbetween
          exact SameButSkips.keeping hkept hpulled hrun.skips (ih next)

/-! ## The whole scan -/

theorem others_filterMap {β : Type} {view : Event → Option β}
    (h : ∀ e : Event, e.isOfSkipping = true → view e = none) (events : List Event) :
    (others events).filterMap view = events.filterMap view :=
  filterMap_filter_of_unseen (fun e he => h e (by simpa using he)) events

theorem messages_others (events : List Event) :
    Trace.messages (others events) =
      (Trace.messages events).filter fun message => !message.isSkip := by
  rw [Trace.messages, Trace.messages, others, List.filterMap_filter, List.filter_filterMap]
  refine List.filterMap_congr fun e _ => ?_
  cases e with
  | logged message =>
      cases hskip : message.isSkip <;>
        simp [Event.isOfSkipping, Event.logged?, Option.filter, hskip]
  | _ => rfl

theorem failure?_others (events : List Event) :
    Trace.failure? (others events) = Trace.failure? events :=
  failure?_filter (fun _ => rfl) events

/-- Without sections left out, all messages are among the other events. -/
theorem messages_of_no_skips {events : List Event} (h : skips events = []) :
    Trace.messages (others events) = Trace.messages events := by
  rw [messages_others, List.filter_eq_self]
  intro message hmem
  simpa using List.filter_eq_nil_iff.mp h message hmem

theorem getLast?_others (q : Questions) (known : HeaderTable) (log : Log) :
    (others (trace q known log)).getLast? = (trace q known log).getLast? := by
  apply getLast?_filter_trace
  intro e he
  cases e with
  | ended => rfl
  | failed failure => rfl
  | _ => cases he

theorem skips_finish (s : Scan) (failure : Option Failure) : skips (s.finish failure) = [] := by
  obtain ⟨table, phase⟩ := s
  cases phase <;> cases failure <;> rfl

/-- The scan takes what stands before the sections, and goes on with these. -/
theorem trace_blockLog (q : Questions) (known : HeaderTable) (log : BlockLog)
    (failure : Option Failure) :
    trace q known ⟨log.lines, failure⟩ =
      log.preamble.map .pulled ++
        ((run (step q) ⟨known, .between⟩ (log.blocks.flatMap Block.lines)).2 ++
          (run (step q) ⟨known, .between⟩ (log.blocks.flatMap Block.lines)).1.finish failure) := by
  rw [trace_eq, BlockLog.lines, run_append, start, run_between log.preamble_no_marker,
    List.append_assoc]

theorem others_trace (q : Questions) (known : HeaderTable) (log : BlockLog)
    (failure : Option Failure) :
    others (trace q known ⟨log.lines, failure⟩) =
      others (trace q.keepingDirectories known
        ⟨(log.without q.excludesDirectory).lines, failure⟩) := by
  have hrun := run_blocks q known log.blocks
  rw [trace_blockLog, trace_blockLog, others_append, others_append, others_append, others_append,
    hrun.state, hrun.events]
  rfl

theorem skips_trace (q : Questions) (known : HeaderTable) (log : BlockLog)
    (failure : Option Failure) :
    skips (trace q known ⟨log.lines, failure⟩) =
      ((log.begun (Trace.pulled (trace q known ⟨log.lines, failure⟩)).length).filter fun b =>
        q.excludesDirectory b.directory).map Block.skip := by
  have hrun := run_blocks q known log.blocks
  have hpreamble : (Trace.pulled (log.preamble.map .pulled)).length = log.preamble.length := by
    simp [Trace.pulled, Event.pulled?]
  have htaken : log.begun (Trace.pulled (trace q known ⟨log.lines, failure⟩)).length =
      Block.begun (Trace.pulled
        (run (step q) ⟨known, .between⟩ (log.blocks.flatMap Block.lines)).2).length log.blocks := by
    rw [trace_blockLog, pulled_append, pulled_append, pulled_finish, List.append_nil,
      List.length_append, hpreamble, BlockLog.begun, Nat.add_sub_cancel_left]
  rw [htaken, ← hrun.messages, trace_blockLog, skips_append, skips_append, skips_finish,
    skips_of_unlogged fun _ => rfl, List.append_nil, List.nil_append]

/-- **Leaving out a directory deletes its sections.** In a log of whole sections, the scan that
leaves out directories does what the scan of the log without their sections does: it gives the same
entries and the same end or failure, and leaves the same table. It tells the same, and besides of
each section left out, once and in order, of those that begin among the lines that it takes. -/
theorem directory_exclusion_deletes (q : Questions) (known : HeaderTable) (log : BlockLog)
    (failure : Option Failure) :
    let trace := Scan.trace q known ⟨log.lines, failure⟩
    let kept := Scan.trace q.keepingDirectories known
      ⟨(log.without q.excludesDirectory).lines, failure⟩
    others trace = others kept ∧
      Trace.entries trace = Trace.entries kept ∧
      trace.getLast? = kept.getLast? ∧ Trace.failure? trace = Trace.failure? kept ∧
      Trace.tableAfter known trace = Trace.tableAfter known kept ∧
      (Trace.messages trace).filter (fun message => !message.isSkip) = Trace.messages kept ∧
      (Trace.messages trace).filter Message.isSkip =
        ((log.begun (Trace.pulled trace).length).filter fun b =>
          q.excludesDirectory b.directory).map Block.skip := by
  intro trace kept
  have hothers : others trace = others kept := others_trace q known log failure
  have hview : ∀ {β : Type} {view : Event → Option β},
      (∀ e : Event, e.isOfSkipping = true → view e = none) →
        trace.filterMap view = kept.filterMap view := by
    intro β view h
    rw [← others_filterMap h trace, hothers, others_filterMap h]
  have hskips : skips kept = [] := by
    show skips (Scan.trace _ _ _) = []
    rw [trace_eq, skips_append, skips_run, skips_finish]
    rfl
  refine ⟨hothers, hview ?_, ?_, ?_, congrArg known.insertAll (hview ?_), ?_,
    skips_trace q known log failure⟩
  · intro e he
    cases e with
    | entry entry => cases he
    | _ => rfl
  · rw [← getLast?_others, ← getLast?_others, ← hothers]
  · rw [← failure?_others, hothers, failure?_others]
  · intro e he
    cases e with
    | mapped mapping => cases he
    | _ => rfl
  · rw [← messages_others, hothers, messages_of_no_skips hskips]

/-- A log with a section of an excluded directory before one that is kept. -/
theorem deleted_before_kept :
    let vendor : Block :=
      { kind := .compile
        marker := "CompileC v.o"
        directoryLine := "cd /vendor"
        body := ["setenv LANG C"]
        invocation := "cc -c v.c -o v.o"
        after := ["2 warnings generated."]
        marker_opens := by decide +kernel
        body_no_marker := by decide +kernel
        body_no_invocation := by decide +kernel
        invocation_invokes := by decide +kernel
        invocation_no_marker := by decide +kernel
        after_no_marker := by decide +kernel }
    let own : Block :=
      { kind := .compile
        marker := "CompileC b.o"
        directoryLine := "cd /p"
        body := ["mkdir -p /p"]
        invocation := "cc -c b.c -o b.o"
        after := ["touch b.o"]
        marker_opens := by decide +kernel
        body_no_marker := by decide +kernel
        body_no_invocation := by decide +kernel
        invocation_invokes := by decide +kernel
        invocation_no_marker := by decide +kernel
        after_no_marker := by decide +kernel }
    let log : BlockLog := ⟨["Build"], [vendor, own], by decide +kernel⟩
    let q : Questions := ⟨fun directory => directory = "/vendor", fun _ => false, fun _ => false⟩
    let trace := Scan.trace q .empty ⟨log.lines, none⟩
    (log.without q.excludesDirectory).lines =
        ["Build", "CompileC b.o", "cd /p", "mkdir -p /p", "cc -c b.c -o b.o", "touch b.o"] ∧
      Trace.entries trace = [⟨"/p", "cc -c b.c -o b.o", "b.c"⟩] ∧
      (Trace.messages trace).filter Message.isSkip = [.excludedSection .compile "/vendor"] := by
  intro vendor own log q trace
  obtain ⟨-, hentries, -, -, -, -, hskips⟩ := directory_exclusion_deletes q .empty log none
  refine ⟨by decide +kernel, hentries.trans ?_, hskips.trans ?_⟩
  · decide +kernel
  · decide +kernel

end Scan

end CompileCommands
