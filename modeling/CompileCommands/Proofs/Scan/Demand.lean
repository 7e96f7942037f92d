import CompileCommands.Proofs.Scan.Segments

/-!
# Scanning on demand

A scan is asked for one entry after the other, and asks a source for one line after the other: at a
demand it pulls lines until one of them gives an entry or a failure, or the source has none left
(`Demand`). The source may be a log, or go on for ever, or fail; the scan cannot know. So what it
has done with the lines of its first demands it does with these lines from any source
(`Demands.congr`), and a source that fails where a log ends takes nothing from the entries before.

The demands on a log are the row of events of its scan, cut behind each entry (`Demands.demands`).
-/

namespace CompileCommands

inductive Supply where
  | line (text : String)
  | exhausted
  | broken (failure : Failure)

/-- A source of lines: what it gives behind so many lines. -/
abbrev Source := Nat → Supply

def Log.source (log : Log) : Source := fun n =>
  match log.lines[n]? with
  | some line => .line line
  | none => log.failure.elim .exhausted .broken

theorem Log.source_eq_line_iff {log : Log} {n : Nat} {line : String} :
    log.source n = .line line ↔ log.lines[n]? = some line := by
  unfold Log.source
  cases log.lines[n]? with
  | some first => simp
  | none => cases log.failure <;> simp

theorem Log.source_of_end {log : Log} {n : Nat} (h : log.lines[n]? = none) :
    log.source n = log.failure.elim .exhausted .broken := by
  rw [Log.source, h]

namespace Scan

open Transducer

inductive Reply where
  | entry (e : Entry)
  | commandFailed (failure : Failure)
  | sourceFailed (failure : Failure)
  | done

namespace Reply

def given? : Reply → Option Entry
  | entry e => some e
  | _ => none

def failure? : Reply → Option Failure
  | commandFailed failure | sourceFailed failure => some failure
  | _ => none

/-- The reply comes with a line, and not with the end of the source. -/
def isAtLine : Reply → Bool
  | entry _ | commandFailed _ => true
  | _ => false

def last : Reply → Event
  | entry e => .entry e
  | commandFailed failure | sourceFailed failure => .failed failure
  | done => .ended

end Reply

/-- A scan under way, and the number of lines that it has taken. -/
structure Cursor where
  scan : Scan
  taken : Nat

namespace Cursor

def start (known : HeaderTable) : Cursor := ⟨Scan.start known, 0⟩

def stop (c : Cursor) : Cursor := ⟨⟨c.scan.table, .stopped⟩, c.taken⟩

end Cursor

def reply? (events : List Event) : Option Reply :=
  match Trace.entries events, Trace.failure? events with
  | e :: _, _ => some (.entry e)
  | [], some failure => some (.commandFailed failure)
  | [], none => none

def pull (q : Questions) (source : Source) (c : Cursor) : Cursor × List Event × Option Reply :=
  match source c.taken with
  | .line line =>
      (⟨(step q c.scan line).1, c.taken + 1⟩, (step q c.scan line).2,
        reply? (step q c.scan line).2)
  | .exhausted => (c.stop, c.scan.finish none, some .done)
  | .broken failure => (c.stop, c.scan.finish (some failure), some (.sourceFailed failure))

/-- A demand for the next entry: it asks the source until there is a reply. A scan that has stopped
asks nothing. -/
inductive Demand (q : Questions) (source : Source) :
    Cursor → List Event → Reply → Cursor → Prop
  | stopped {c : Cursor} (hstopped : c.scan.phase = .stopped) : Demand q source c [] .done c
  | answered {c c' : Cursor} {events : List Event} {reply : Reply}
      (hrunning : c.scan.phase ≠ .stopped)
      (hpull : pull q source c = (c', events, some reply)) : Demand q source c events reply c'
  | onward {c next c' : Cursor} {events later : List Event} {reply : Reply}
      (hrunning : c.scan.phase ≠ .stopped) (hpull : pull q source c = (next, events, none))
      (hlater : Demand q source next later reply c') :
      Demand q source c (events ++ later) reply c'

inductive Demands (q : Questions) (source : Source) :
    Cursor → List (List Event × Reply) → Cursor → Prop
  | nil (c : Cursor) : Demands q source c [] c
  | cons {c next c' : Cursor} {events : List Event} {reply : Reply}
      {calls : List (List Event × Reply)} (hfirst : Demand q source c events reply next)
      (hlater : Demands q source next calls c') :
      Demands q source c ((events, reply) :: calls) c'

variable {q : Questions} {source source' : Source} {c next c' : Cursor} {events later : List Event}
  {reply : Reply} {calls calls' : List (List Event × Reply)}

theorem pull_line {line : String} (h : source c.taken = .line line) :
    pull q source c =
      (⟨(step q c.scan line).1, c.taken + 1⟩, (step q c.scan line).2,
        reply? (step q c.scan line).2) := by
  rw [pull, h]

theorem pull_exhausted (h : source c.taken = .exhausted) :
    pull q source c = (c.stop, c.scan.finish none, some .done) := by
  rw [pull, h]

theorem pull_broken {failure : Failure} (h : source c.taken = .broken failure) :
    pull q source c =
      (c.stop, c.scan.finish (some failure), some (.sourceFailed failure)) := by
  rw [pull, h]

inductive Pulled (q : Questions) (source : Source) (c : Cursor) :
    Cursor → List Event → Option Reply → Prop
  | line {line : String} (hsource : source c.taken = .line line) :
      Pulled q source c ⟨(step q c.scan line).1, c.taken + 1⟩ (step q c.scan line).2
        (reply? (step q c.scan line).2)
  | exhausted (hsource : source c.taken = .exhausted) :
      Pulled q source c c.stop (c.scan.finish none) (some .done)
  | broken {failure : Failure} (hsource : source c.taken = .broken failure) :
      Pulled q source c c.stop (c.scan.finish (some failure)) (some (.sourceFailed failure))

theorem pull_cases {reply : Option Reply} (hpull : pull q source c = (c', events, reply)) :
    Pulled q source c c' events reply := by
  cases hsource : source c.taken with
  | line line =>
      rw [pull_line hsource] at hpull
      cases hpull
      exact .line hsource
  | exhausted =>
      rw [pull_exhausted hsource] at hpull
      cases hpull
      exact .exhausted hsource
  | broken failure =>
      rw [pull_broken hsource] at hpull
      cases hpull
      exact .broken hsource

/-! ## What a demand does -/

/-- The row of events holds no entry and is not at its end. -/
def Quiet (events : List Event) : Prop := Trace.entries events = [] ∧ Ongoing events

theorem Quiet.append {front back : List Event} (hfront : Quiet front) (hback : Quiet back) :
    Quiet (front ++ back) := by
  refine ⟨?_, hfront.2.append hback.2⟩
  rw [entries_append, hfront.1, hback.1, List.append_nil]

theorem quiet_pulled {asides : List Event} (h : Asides asides) (line : String) :
    Quiet (.pulled line :: asides) := by
  have hline : Quiet [.pulled line] := ⟨rfl, by simp [Ongoing, Event.isLast]⟩
  exact hline.append ⟨h.entries, h.ongoing⟩

/-- The row of events ends with the reply, and the scan goes on behind an entry only. Without a
reply the row is quiet and the scan goes on. -/
def Gives (next : Scan) (events : List Event) : Option Reply → Prop
  | none => Quiet events ∧ next.phase ≠ .stopped
  | some reply =>
      ∃ front, events = front ++ [reply.last] ∧ Quiet front ∧
        (next.phase = .stopped ↔ reply.given? = none)

theorem reply?_quiet (h : Quiet events) : reply? events = none := by
  rw [reply?, h.1, h.2.failure?]

theorem reply?_entry (h : Quiet events) (e : Entry) :
    reply? (events ++ [.entry e]) = some (.entry e) := by
  rw [reply?, entries_append, h.1]
  rfl

theorem reply?_failed (h : Quiet events) (failure : Failure) :
    reply? (events ++ [.failed failure]) = some (.commandFailed failure) := by
  rw [reply?, entries_append, h.1, failure?_append, h.2.failure?]
  rfl

theorem isAtLine_of_reply? (h : reply? events = some reply) : reply.isAtLine = true := by
  unfold reply? at h
  split at h <;> cases h <;> rfl

theorem step_gives (q : Questions) {s : Scan} (h : s.phase ≠ .stopped) (line : String) :
    Gives (step q s line).1 (step q s line).2 (reply? (step q s line).2) := by
  rw [step_of_running h]
  have hanswer := take_answer q s line
  generalize s.take q line = r at hanswer
  cases hanswer with
  | @quiet phase asides houtline hasides =>
      have hquiet := quiet_pulled hasides line
      rw [reply?_quiet hquiet]
      have hnext : (outlineStep q.excludesDirectory s.phase line).1 ≠ .stopped :=
        outlineStep_running h line
      rw [houtline] at hnext
      exact ⟨hquiet, hnext⟩
  | unmapped =>
      have hquiet := quiet_pulled .nil line
      rw [reply?_quiet hquiet]
      exact ⟨hquiet, by simp⟩
  | @mapped _ m =>
      have hquiet : Quiet [.pulled line, .mapped m, .logged (.builtHeader m)] :=
        ⟨rfl, by simp [Ongoing, Event.isLast]⟩
      rw [reply?_quiet hquiet]
      exact ⟨hquiet, by simp⟩
  | excluded _ _ _ hasides =>
      have hquiet := quiet_pulled hasides line
      rw [reply?_quiet hquiet]
      exact ⟨hquiet, by simp⟩
  | @kept _ entry asides _ _ _ hasides =>
      have hquiet := quiet_pulled hasides line
      rw [← List.cons_append, reply?_entry hquiet]
      exact ⟨_, rfl, hquiet, by simp [Reply.given?]⟩
  | @failed _ failure asides _ _ hasides =>
      have hquiet := quiet_pulled hasides line
      rw [← List.cons_append, reply?_failed hquiet]
      exact ⟨_, rfl, hquiet, by simp [Reply.given?]⟩

/-- The end of the source is told, and perhaps that a section is open. -/
theorem finish_none {s : Scan} (h : s.phase ≠ .stopped) :
    ∃ told, s.finish none = told ++ [.ended] ∧ Quiet told ∧
      (told = [] ∨ ∃ kind directory, told = [.logged (.openSection kind directory)]) := by
  obtain ⟨table, phase⟩ := s
  cases phase with
  | stopped => exact absurd rfl h
  | between => exact ⟨[], rfl, ⟨rfl, Asides.nil.ongoing⟩, Or.inl rfl⟩
  | marked kind => exact ⟨[], rfl, ⟨rfl, Asides.nil.ongoing⟩, Or.inl rfl⟩
  | seeking kind directory =>
      exact ⟨_, rfl, ⟨rfl, by simp [Ongoing, Event.isLast]⟩, Or.inr ⟨kind, directory, rfl⟩⟩

theorem finish_some {s : Scan} (h : s.phase ≠ .stopped) (failure : Failure) :
    s.finish (some failure) = [.failed failure] := by
  obtain ⟨table, phase⟩ := s
  cases phase with
  | stopped => exact absurd rfl h
  | _ => rfl

theorem pull_gives {reply : Option Reply} (hrunning : c.scan.phase ≠ .stopped)
    (hpull : pull q source c = (c', events, reply)) : Gives c'.scan events reply := by
  cases pull_cases hpull with
  | line => exact step_gives q hrunning _
  | exhausted =>
      obtain ⟨told, hfinish, hquiet, -⟩ := finish_none hrunning
      exact ⟨told, hfinish, hquiet, by simp [Cursor.stop, Reply.given?]⟩
  | broken =>
      exact ⟨[], finish_some hrunning _, ⟨rfl, Asides.nil.ongoing⟩,
        by simp [Cursor.stop, Reply.given?]⟩

theorem Demand.gives (h : Demand q source c events reply c') (hrunning : c.scan.phase ≠ .stopped) :
    Gives c'.scan events (some reply) := by
  induction h with
  | stopped hstopped => exact absurd hstopped hrunning
  | answered hrunning hpull => exact pull_gives hrunning hpull
  | onward hrunning hpull _ ih =>
      obtain ⟨hquiet, hnext⟩ := pull_gives hrunning hpull
      obtain ⟨front, rfl, hfront, hstops⟩ := ih hnext
      exact ⟨_, (List.append_assoc ..).symm, hquiet.append hfront, hstops⟩

/-- The entry and the failure of a demand are those that its events show. -/
theorem Demand.shows (h : Demand q source c events reply c') :
    Trace.entries events = reply.given?.toList ∧ Trace.failure? events = reply.failure? := by
  by_cases hstopped : c.scan.phase = .stopped
  · cases h with
    | stopped => exact ⟨rfl, rfl⟩
    | answered hrunning => exact absurd hstopped hrunning
    | onward hrunning => exact absurd hstopped hrunning
  · obtain ⟨front, rfl, hquiet, -⟩ := h.gives hstopped
    rw [entries_append, hquiet.1, failure?_append, hquiet.2.failure?]
    cases reply <;> exact ⟨rfl, rfl⟩

theorem Demands.shows (h : Demands q source c calls c') :
    ∀ call ∈ calls, Trace.entries call.1 = call.2.given?.toList ∧
      Trace.failure? call.1 = call.2.failure? := by
  induction h with
  | nil c => simp
  | cons hfirst _ ih => exact List.forall_mem_cons.mpr ⟨hfirst.shows, ih⟩

/-- A scan that has stopped answers each demand alike. -/
theorem demand_stopped_iff (hstopped : c.scan.phase = .stopped) :
    Demand q source c events reply c' ↔ events = [] ∧ reply = .done ∧ c' = c := by
  constructor
  · intro h
    cases h with
    | stopped => exact ⟨rfl, rfl, rfl⟩
    | answered hrunning => exact absurd hstopped hrunning
    | onward hrunning => exact absurd hstopped hrunning
  · rintro ⟨rfl, rfl, rfl⟩
    exact .stopped hstopped

/-- A reply other than an entry is the last. -/
theorem Demand.stops (h : Demand q source c events reply c') (hreply : reply.given? = none) :
    c'.scan.phase = .stopped := by
  by_cases hstopped : c.scan.phase = .stopped
  · obtain ⟨-, -, rfl⟩ := (demand_stopped_iff hstopped).mp h
    exact hstopped
  · obtain ⟨front, -, -, hstops⟩ := h.gives hstopped
    exact hstops.mpr hreply

/-! ## Lines taken -/

/-- The lines pulled are those that the source gives between two numbers. -/
def Draws (source : Source) (first bound : Nat) (events : List Event) : Prop :=
  bound = first + (Trace.pulled events).length ∧
    (Trace.pulled events).map .line =
      (List.range' first (Trace.pulled events).length).map source

theorem Draws.nil (source : Source) (n : Nat) : Draws source n n [] := ⟨rfl, rfl⟩

theorem Draws.append {first middle bound : Nat} (hfront : Draws source first middle events)
    (hback : Draws source middle bound later) : Draws source first bound (events ++ later) := by
  obtain ⟨rfl, hfront⟩ := hfront
  obtain ⟨rfl, hback⟩ := hback
  rw [Draws, pulled_append, List.length_append, List.map_append, hfront, hback, ← List.map_append,
    List.range'_append_1, Nat.add_assoc]
  exact ⟨rfl, rfl⟩

theorem Draws.line {first bound m : Nat} (h : Draws source first bound events) (hfirst : first ≤ m)
    (hbound : m < bound) : ∃ line, source m = .line line := by
  obtain ⟨rfl, hdrawn⟩ := h
  have hmem : source m ∈ (List.range' first (Trace.pulled events).length).map source :=
    List.mem_map_of_mem (List.mem_range'_1.mpr ⟨hfirst, hbound⟩)
  rw [← hdrawn] at hmem
  obtain ⟨line, -, hline⟩ := List.mem_map.mp hmem
  exact ⟨line, hline.symm⟩

theorem pull_draws {reply : Option Reply} (hrunning : c.scan.phase ≠ .stopped)
    (hpull : pull q source c = (c', events, reply)) : Draws source c.taken c'.taken events := by
  cases pull_cases hpull with
  | @line line hsource =>
      have hpulled : Trace.pulled (step q c.scan line).2 = [line] := by
        rw [pulled_step, if_neg hrunning]
      simp [Draws, hpulled, hsource]
  | exhausted =>
      rw [Draws, pulled_finish]
      exact ⟨rfl, rfl⟩
  | broken =>
      rw [Draws, pulled_finish]
      exact ⟨rfl, rfl⟩

theorem Demand.draws (h : Demand q source c events reply c') :
    Draws source c.taken c'.taken events := by
  induction h with
  | stopped => exact .nil source _
  | answered hrunning hpull => exact pull_draws hrunning hpull
  | onward hrunning hpull _ ih => exact (pull_draws hrunning hpull).append ih

theorem Demands.draws (h : Demands q source c calls c') :
    Draws source c.taken c'.taken (calls.flatMap Prod.fst) := by
  induction h with
  | nil c => exact .nil source _
  | cons hfirst _ ih => exact hfirst.draws.append ih

theorem pull_tableAfter {reply : Option Reply} (hpull : pull q source c = (c', events, reply)) :
    c'.scan.table = Trace.tableAfter c.scan.table events := by
  cases pull_cases hpull with
  | line => exact step_tableAfter q c.scan _
  | exhausted =>
      rw [Trace.tableAfter, mappings_finish]
      rfl
  | broken =>
      rw [Trace.tableAfter, mappings_finish]
      rfl

theorem Demand.tableAfter (h : Demand q source c events reply c') :
    c'.scan.table = Trace.tableAfter c.scan.table events := by
  induction h with
  | stopped => rfl
  | answered _ hpull => exact pull_tableAfter hpull
  | onward _ hpull _ ih => rw [ih, pull_tableAfter hpull, tableAfter_append]

theorem Demands.tableAfter (h : Demands q source c calls c') :
    c'.scan.table = Trace.tableAfter c.scan.table (calls.flatMap Prod.fst) := by
  induction h with
  | nil c => rfl
  | cons hfirst _ ih => rw [ih, hfirst.tableAfter, List.flatMap_cons, tableAfter_append]

/-! ## Two sources -/

theorem Demand.unique {events' : List Event} {reply' : Reply} {c'' : Cursor}
    (h : Demand q source c events reply c') (h' : Demand q source c events' reply' c'') :
    events' = events ∧ reply' = reply ∧ c'' = c' := by
  induction h generalizing events' reply' c'' with
  | stopped hstopped => exact (demand_stopped_iff hstopped).mp h'
  | answered hrunning hpull =>
      cases h' with
      | stopped hstopped => exact absurd hstopped hrunning
      | answered _ hpull' =>
          rw [hpull] at hpull'
          cases hpull'
          exact ⟨rfl, rfl, rfl⟩
      | onward _ hpull' =>
          rw [hpull] at hpull'
          cases hpull'
  | onward hrunning hpull _ ih =>
      cases h' with
      | stopped hstopped => exact absurd hstopped hrunning
      | answered _ hpull' =>
          rw [hpull] at hpull'
          cases hpull'
      | onward _ hpull' hlater' =>
          rw [hpull] at hpull'
          cases hpull'
          obtain ⟨rfl, rfl, rfl⟩ := ih hlater'
          exact ⟨rfl, rfl, rfl⟩

theorem Demands.unique {c'' : Cursor} (h : Demands q source c calls c')
    (h' : Demands q source c calls' c'') (hlength : calls'.length = calls.length) :
    calls' = calls ∧ c'' = c' := by
  induction h generalizing calls' with
  | nil c =>
      cases h' with
      | nil => exact ⟨rfl, rfl⟩
      | cons => cases hlength
  | cons hfirst _ ih =>
      cases h' with
      | nil => cases hlength
      | cons hfirst' hlater' =>
          obtain ⟨rfl, rfl, rfl⟩ := hfirst.unique hfirst'
          obtain ⟨rfl, rfl⟩ := ih hlater' (by simpa using hlength)
          exact ⟨rfl, rfl⟩

/-- A reply that comes with a line has pulled it, and so has a pull without a reply. -/
theorem line_of_pull {reply : Option Reply} (hpull : pull q source c = (c', events, reply))
    (hreply : reply.all Reply.isAtLine = true) :
    ∃ line, source c.taken = .line line ∧ c'.taken = c.taken + 1 := by
  cases pull_cases hpull with
  | line hsource => exact ⟨_, hsource, rfl⟩
  | exhausted => cases hreply
  | broken => cases hreply

theorem pull_congr {reply : Option Reply} (hpull : pull q source c = (c', events, reply))
    (hreply : reply.all Reply.isAtLine = true)
    (hsame : ∀ line, source c.taken = .line line → source' c.taken = .line line) :
    pull q source' c = (c', events, reply) := by
  obtain ⟨line, hline, -⟩ := line_of_pull hpull hreply
  rw [← hpull, pull_line hline, pull_line (hsame line hline)]

/-- A source that gives the lines taken is answered alike. -/
theorem Demand.congr (h : Demand q source c events reply c') (hreply : reply.isAtLine = true)
    (hsame : ∀ m < c'.taken, ∀ line, source m = .line line → source' m = .line line) :
    Demand q source' c events reply c' := by
  induction h with
  | stopped => cases hreply
  | answered hrunning hpull =>
      obtain ⟨-, -, htaken⟩ := line_of_pull hpull hreply
      exact .answered hrunning (pull_congr hpull hreply (hsame _ (by omega)))
  | onward hrunning hpull hlater ih =>
      obtain ⟨-, -, htaken⟩ := line_of_pull hpull rfl
      have hbound := hlater.draws.1
      exact .onward hrunning (pull_congr hpull rfl (hsame _ (by omega))) (ih hreply hsame)

theorem Demands.congr (h : Demands q source c calls c')
    (hreplies : ∀ call ∈ calls, call.2.isAtLine = true)
    (hsame : ∀ m < c'.taken, ∀ line, source m = .line line → source' m = .line line) :
    Demands q source' c calls c' := by
  induction h with
  | nil c => exact .nil c
  | cons hfirst hlater ih =>
      have hbound := hlater.draws.1
      refine .cons (hfirst.congr (hreplies _ List.mem_cons_self) fun m hm => hsame m (by omega))
        (ih (fun call hcall => hreplies call (List.mem_cons_of_mem _ hcall)) hsame)

/-- Before a reply that comes with a line, all replies do. -/
theorem Demands.isAtLine (h : Demands q source c calls c')
    (hlast : ∀ call ∈ calls.getLast?, call.2.isAtLine = true) :
    ∀ call ∈ calls, call.2.isAtLine = true := by
  induction h with
  | nil c => simp
  | @cons c next c' events reply calls hfirst hlater ih =>
      cases hlater with
      | nil => simpa using hlast
      | @cons _ _ _ events' reply' later hsecond hrest =>
          have hlater := ih (by simpa using hlast)
          refine List.forall_mem_cons.mpr ⟨?_, hlater⟩
          cases hreply : reply.given? with
          | some e =>
              cases reply with
              | entry e => rfl
              | _ => cases hreply
          | none =>
              -- the scan has stopped, and the next reply would not come with a line
              obtain ⟨-, rfl, -⟩ := (demand_stopped_iff (hfirst.stops hreply)).mp hsecond
              exact absurd (hlater _ List.mem_cons_self) (by simp [Reply.isAtLine])

/-! ## Logs -/

theorem demands_behind {front events demand : List Event}
    {later : List (List Event)} (hfront : Trace.entries front = [])
    (hevents : Trace.demands events = demand :: later) :
    Trace.demands (front ++ events) = (front ++ demand) :: later := by
  induction front with
  | nil => exact hevents
  | cons event front ih =>
      cases event with
      | entry e => cases hfront
      | _ =>
          have hrest := ih hfront
          simp only [List.cons_append, Trace.demands, hrest]

/-- A row of events is cut behind what a demand has done. -/
theorem Gives.demands {next : Scan} {reply : Reply} {rest : List Event}
    (h : Gives next events (some reply)) (hrest : next.phase = .stopped → rest = []) :
    Trace.demands (events ++ rest) = events :: Trace.demands rest := by
  obtain ⟨front, rfl, hquiet, hstops⟩ := h
  rw [List.append_assoc]
  apply demands_behind hquiet.1
  cases reply with
  | entry e => rfl
  | _ =>
      obtain rfl := hrest (hstops.mpr rfl)
      rfl

def remaining (q : Questions) (log : Log) (c : Cursor) : List Event :=
  eventsFrom q log.failure c.scan (log.lines.drop c.taken)

theorem remaining_of_stopped {log : Log} (h : c.scan.phase = .stopped) :
    remaining q log c = [] :=
  eventsFrom_stopped h _

theorem remaining_pull {log : Log} {reply : Option Reply} (hrunning : c.scan.phase ≠ .stopped)
    (hpull : pull q log.source c = (c', events, reply)) :
    remaining q log c = events ++ remaining q log c' := by
  cases hline : log.lines[c.taken]? with
  | some line =>
      rw [pull_line (Log.source_eq_line_iff.mpr hline), step_of_running hrunning] at hpull
      cases hpull
      rw [remaining, List.drop_eq_getElem?_toList_append, hline]
      exact eventsFrom_cons hrunning line _
  | none =>
      have hend : log.lines.drop c.taken = [] := by
        rw [List.drop_eq_nil_iff]
        exact List.getElem?_eq_none_iff.mp hline
      have hfinish : remaining q log c = c.scan.finish log.failure := by
        rw [remaining, hend]
        rfl
      have hstop : remaining q log c.stop = [] := remaining_of_stopped rfl
      have hsource := Log.source_of_end hline
      cases hfailure : log.failure with
      | none =>
          rw [hfailure] at hsource
          rw [pull_exhausted hsource] at hpull
          cases hpull
          rw [hstop, List.append_nil, hfinish, hfailure]
      | some failure =>
          rw [hfailure] at hsource
          rw [pull_broken hsource] at hpull
          cases hpull
          rw [hstop, List.append_nil, hfinish, hfailure]

theorem Demand.remaining {log : Log} (h : Demand q log.source c events reply c') :
    remaining q log c = events ++ remaining q log c' := by
  induction h with
  | stopped => rfl
  | answered hrunning hpull => exact remaining_pull hrunning hpull
  | onward hrunning hpull _ ih => rw [remaining_pull hrunning hpull, ih, List.append_assoc]

/-- The demands on a log are the cut row of what its scan does; behind its end nothing is done. -/
theorem Demands.demands {log : Log} (h : Demands q log.source c calls c') :
    calls.map Prod.fst = (Trace.demands (Scan.remaining q log c)).takeD calls.length [] := by
  induction h with
  | nil c => rfl
  | @cons c next c' events reply calls hfirst hlater ih =>
      rw [List.map_cons, List.length_cons, List.takeD_succ, ih]
      by_cases hstopped : c.scan.phase = .stopped
      · obtain ⟨rfl, -, rfl⟩ := (demand_stopped_iff hstopped).mp hfirst
        rw [remaining_of_stopped hstopped]
        rfl
      · rw [hfirst.remaining, (hfirst.gives hstopped).demands remaining_of_stopped]
        rfl

/-- A demand on a log comes to a reply. -/
theorem exists_demand (q : Questions) (log : Log) (c : Cursor) :
    ∃ events reply c', Demand q log.source c events reply c' := by
  by_cases hstopped : c.scan.phase = .stopped
  · exact ⟨[], .done, c, .stopped hstopped⟩
  · rcases hpull : pull q log.source c with ⟨next, events, _ | reply⟩
    · obtain ⟨line, hline, htaken⟩ := line_of_pull hpull rfl
      obtain ⟨hbound, -⟩ := List.getElem?_eq_some_iff.mp (Log.source_eq_line_iff.mp hline)
      obtain ⟨later, reply, c', hlater⟩ := exists_demand q log next
      exact ⟨events ++ later, reply, c', .onward hstopped hpull hlater⟩
    · exact ⟨events, reply, next, .answered hstopped hpull⟩
termination_by log.lines.length - c.taken

theorem Demands.concat (h : Demands q source c calls next)
    (hlast : Demand q source next events reply c') :
    Demands q source c (calls ++ [(events, reply)]) c' := by
  induction h with
  | nil c => exact .cons hlast (.nil c')
  | cons hfirst _ ih => exact .cons hfirst (ih hlast)

/-- Unless a failure comes before, the demands on a log give entries and then its end. -/
theorem exists_end {log : Log} {c : Cursor} (hrunning : c.scan.phase ≠ .stopped)
    (h : Trace.failure? (remaining q log c) = none) :
    ∃ calls last events c', (∀ call ∈ calls, call.2.given?.isSome = true) ∧
      Demands q log.source c calls last ∧ last.scan.phase ≠ .stopped ∧
      Demand q log.source last events .done c' := by
  obtain ⟨events, reply, next, hfirst⟩ := exists_demand q log c
  have hremaining := hfirst.remaining
  obtain ⟨front, hfront, -, hstops⟩ := hfirst.gives hrunning
  rw [hremaining, failure?_append, Option.or_eq_none_iff, hfirst.shows.2] at h
  obtain ⟨hreply, hlater⟩ := h
  cases reply with
  | entry e =>
      have hnext : next.scan.phase ≠ .stopped := by simp [hstops, Reply.given?]
      -- the entry is one event less to come
      have hless : (remaining q log next).length < (remaining q log c).length := by
        rw [hremaining, hfront, List.length_append, List.length_append, List.length_singleton]
        omega
      obtain ⟨calls, last, final, c', hentries, hcalls, hlast, hend⟩ := exists_end hnext hlater
      exact ⟨(events, .entry e) :: calls, last, final, c',
        List.forall_mem_cons.mpr ⟨rfl, hentries⟩, .cons hfirst hcalls, hlast, hend⟩
  | commandFailed failure => cases hreply
  | sourceFailed failure => cases hreply
  | done => exact ⟨[], c, events, next, by simp, .nil c, hrunning, hfirst⟩
termination_by (remaining q log c).length

theorem exists_demands (q : Questions) (log : Log) (c : Cursor) (k : Nat) :
    ∃ calls c', Demands q log.source c calls c' ∧ calls.length = k := by
  induction k generalizing c with
  | zero => exact ⟨[], c, .nil c, rfl⟩
  | succ k ih =>
      obtain ⟨events, reply, next, hfirst⟩ := exists_demand q log c
      obtain ⟨calls, c', hlater, rfl⟩ := ih next
      exact ⟨(events, reply) :: calls, c', .cons hfirst hlater, rfl⟩

/-! ## A source that breaks -/

/-- Only where its log ends a scan tells of an open section. -/
theorem take_not_open (q : Questions) (s : Scan) (line : String) (kind : SectionKind)
    (directory : String) : .logged (.openSection kind directory) ∉ (s.take q line).2 := by
  by_cases h : ∃ d, Closing s line .compile d
  · obtain ⟨d, hclosing⟩ := h
    rw [take_of_closing_compile q hclosing]
    cases hresult : (Command.compile q.fileExists s.table line d).result with
    | error failure => simp [takeCompile_of_error hresult]
    | ok entry =>
        rw [takeCompile_of_ok hresult]
        cases hexcluded : q.excludesFile entry.file <;> simp
  · rcases events_elsewhere q (not_exists.mp h) with
      hnone | ⟨d, hasked⟩ | ⟨k, d, -, hskipped⟩ | ⟨m, hmapped⟩
    · simp [hnone]
    · simp [hasked]
    · simp [hskipped]
    · simp [hmapped]

theorem pull_not_open {reply : Option Reply} (hpull : pull q source c = (c', events, reply))
    (hdone : reply ≠ some .done) (kind : SectionKind) (directory : String) :
    .logged (.openSection kind directory) ∉ events := by
  by_cases hstopped : c.scan.phase = .stopped
  · cases pull_cases hpull with
    | line => simp [step_of_stopped hstopped]
    | exhausted => exact absurd rfl hdone
    | broken => simp [finish_of_stopped hstopped]
  · cases pull_cases hpull with
    | @line line =>
        simpa [step_of_running hstopped] using take_not_open q c.scan line kind directory
    | exhausted => exact absurd rfl hdone
    | broken => simp [finish_some hstopped]

theorem Demand.not_open (h : Demand q source c events reply c') (hdone : reply ≠ .done)
    (kind : SectionKind) (directory : String) :
    .logged (.openSection kind directory) ∉ events := by
  induction h with
  | stopped => exact absurd rfl hdone
  | answered _ hpull => exact pull_not_open hpull (by simpa using hdone) kind directory
  | onward _ hpull _ ih =>
      rw [List.mem_append]
      rintro (hfirst | hlater)
      · exact pull_not_open hpull (by simp) kind directory hfirst
      · exact ih hdone hlater

theorem Demands.not_open (h : Demands q source c calls c')
    (hentries : ∀ call ∈ calls, call.2.given?.isSome = true) (kind : SectionKind)
    (directory : String) : .logged (.openSection kind directory) ∉ calls.flatMap Prod.fst := by
  induction h with
  | nil c => simp
  | @cons c next c' events reply calls hfirst _ ih =>
      obtain ⟨hentry, hlater⟩ := List.forall_mem_cons.mp hentries
      have hdone : reply ≠ .done := by
        rintro rfl
        cases hentry
      rw [List.flatMap_cons, List.mem_append]
      rintro (hmem | hmem)
      · exact hfirst.not_open hdone kind directory hmem
      · exact ih hlater hmem

/-- The end is told where the source has none left. -/
theorem pull_done {reply : Option Reply} (hpull : pull q source c = (c', events, reply))
    (hdone : reply = some .done) :
    source c.taken = .exhausted ∧ c' = c.stop ∧ events = c.scan.finish none := by
  cases pull_cases hpull with
  | line =>
      have hline : Reply.done.isAtLine = true := isAtLine_of_reply? hdone
      cases hline
  | exhausted hsource => exact ⟨hsource, rfl, rfl⟩
  | broken => cases hdone

theorem Demand.exhausted (h : Demand q source c events .done c')
    (hrunning : c.scan.phase ≠ .stopped) : source c'.taken = .exhausted := by
  generalize hreply : Reply.done = reply at h
  induction h with
  | stopped hstopped => exact absurd hstopped hrunning
  | answered _ hpull =>
      subst hreply
      obtain ⟨hsource, rfl, -⟩ := pull_done hpull rfl
      exact hsource
  | onward _ hpull _ ih => exact ih (pull_gives hrunning hpull).2 hreply

/-- Where a source breaks in place of its end, the failure comes in place of what is told of the
end. -/
theorem Demand.broken {failure : Failure} (h : Demand q source c events .done c')
    (hrunning : c.scan.phase ≠ .stopped)
    (hlines : ∀ m line, source m = .line line → source' m = .line line)
    (hbreaks : source' c'.taken = .broken failure) :
    ∃ front told, events = front ++ told ++ [.ended] ∧
      Demand q source' c (front ++ [.failed failure]) (.sourceFailed failure) c' ∧
      (told = [] ∨ ∃ kind directory, told = [.logged (.openSection kind directory)]) := by
  generalize hreply : Reply.done = reply at h
  induction h with
  | stopped hstopped => exact absurd hstopped hrunning
  | @answered c c' events reply _ hpull =>
      subst hreply
      obtain ⟨hsource, rfl, rfl⟩ := pull_done hpull rfl
      obtain ⟨told, hfinish, -, htold⟩ := finish_none hrunning
      have hbroken : source' c.taken = .broken failure := hbreaks
      refine ⟨[], told, hfinish, .answered hrunning ?_, htold⟩
      rw [pull_broken hbroken, finish_some hrunning]
      rfl
  | @onward c next c' events later reply _ hpull hlater ih =>
      obtain ⟨-, hnext⟩ := pull_gives hrunning hpull
      obtain ⟨front, told, rfl, hbroken, htold⟩ := ih hnext hbreaks hreply
      refine ⟨events ++ front, told, by simp, ?_, htold⟩
      rw [List.append_assoc]
      exact .onward hrunning (pull_congr hpull rfl (hlines _)) hbroken

theorem isAtLine_of_given (h : reply.given?.isSome = true) : reply.isAtLine = true := by
  cases reply with
  | entry e => rfl
  | _ => cases h

/-- A source that breaks where a log ends gives the entries of the log, and then its failure. -/
theorem demands_broken {known : HeaderTable} {lines : List String} {failure : Failure}
    (hlines : ∀ m < lines.length, source m = Log.source ⟨lines, none⟩ m)
    (hbreaks : source lines.length = .broken failure)
    (h : Trace.failure? (remaining q ⟨lines, none⟩ (.start known)) = none) :
    ∃ calls front told c, (∀ call ∈ calls, call.2.given?.isSome = true) ∧
      Demands q (Log.source ⟨lines, none⟩) (.start known)
        (calls ++ [(front ++ told ++ [.ended], .done)]) c ∧
      Demands q source (.start known)
        (calls ++ [(front ++ [.failed failure], .sourceFailed failure)]) c ∧
      (told = [] ∨ ∃ kind directory, told = [.logged (.openSection kind directory)]) ∧
      ∀ kind directory,
        .logged (.openSection kind directory) ∉ calls.flatMap Prod.fst ++ front := by
  have hrunning : (Cursor.start known).scan.phase ≠ .stopped := by simp [Cursor.start, start]
  obtain ⟨calls, last, events, c, hentries, hcalls, hlast, hend⟩ := exists_end hrunning h
  have hsame : ∀ m line, Log.source ⟨lines, none⟩ m = .line line → source m = .line line := by
    intro m line hline
    obtain ⟨hm, -⟩ := List.getElem?_eq_some_iff.mp (Log.source_eq_line_iff.mp hline)
    rw [hlines m hm, hline]
  -- the end is told behind all lines, and the other source breaks there
  have htaken : c.taken = lines.length := by
    apply le_antisymm
    · by_contra hmore
      obtain ⟨line, hline⟩ := (hcalls.concat hend).draws.line (Nat.zero_le lines.length) (by omega)
      have hnone := Log.source_eq_line_iff.mp hline
      simp at hnone
    · by_contra hless
      have hline : Log.source ⟨lines, none⟩ c.taken = .line lines[c.taken] :=
        Log.source_eq_line_iff.mpr (List.getElem?_eq_getElem (not_le.mp hless))
      rw [hend.exhausted hlast] at hline
      cases hline
  rw [← htaken] at hbreaks
  obtain ⟨front, told, rfl, hbroken, htold⟩ := hend.broken hlast hsame hbreaks
  have hcalls' : Demands q source (.start known) calls last :=
    hcalls.congr (fun call hcall => isAtLine_of_given (hentries call hcall)) fun m _ => hsame m
  refine ⟨calls, front, told, c, hentries, hcalls.concat hend, hcalls'.concat hbroken, htold, ?_⟩
  intro kind directory hmem
  rcases List.mem_append.mp hmem with hmem | hmem
  · exact hcalls.not_open hentries kind directory hmem
  · exact hbroken.not_open (by simp) kind directory (List.mem_append_left _ hmem)

/-- **A scan is driven by its demands.** What it does up to the reply to a demand it does on every
source with the lines that it has taken by then, and that is all it does there. Its calls show which
lines it has taken, and its table. On a log they are the row of events of its scan, cut behind each
entry. A source that breaks where a log ends gives the entries of the log, and then its failure in
place of what is told of the end. Behind the end and behind every failure nothing is done. -/
theorem scans_on_demand (q : Questions) (known : HeaderTable) :
    (∀ source source' calls events reply c,
        Demands q source (.start known) (calls ++ [(events, reply)]) c → reply.isAtLine = true →
        (∀ m < c.taken, source' m = source m) →
        ∀ calls' c', calls'.length = calls.length + 1 →
          (Demands q source' (.start known) calls' c' ↔
            calls' = calls ++ [(events, reply)] ∧ c' = c)) ∧
      (∀ source calls c, Demands q source (.start known) calls c →
        (Trace.pulled (calls.flatMap Prod.fst)).map .line = (List.range c.taken).map source ∧
          c.scan.table = Trace.tableAfter known (calls.flatMap Prod.fst) ∧
          ∀ call ∈ calls, Trace.entries call.1 = call.2.given?.toList ∧
            Trace.failure? call.1 = call.2.failure?) ∧
      (∀ log k, ∃ calls c, Demands q (Log.source log) (.start known) calls c ∧
        calls.length = k ∧
        calls.map Prod.fst = (Trace.demands (trace q known log)).takeD k []) ∧
      (∀ lines source failure, (∀ m < lines.length, source m = Log.source ⟨lines, none⟩ m) →
        source lines.length = .broken failure →
        Trace.failure? (trace q known ⟨lines, none⟩) = none →
        ∃ calls front told c, (∀ call ∈ calls, call.2.given?.isSome = true) ∧
          Demands q (Log.source ⟨lines, none⟩) (.start known)
            (calls ++ [(front ++ told ++ [.ended], .done)]) c ∧
          Demands q source (.start known)
            (calls ++ [(front ++ [.failed failure], .sourceFailed failure)]) c ∧
          (told = [] ∨ ∃ kind directory, told = [.logged (.openSection kind directory)]) ∧
          ∀ kind directory,
            .logged (.openSection kind directory) ∉ calls.flatMap Prod.fst ++ front) ∧
      ∀ source c events reply c', Demand q source c events reply c' → reply.given? = none →
        ∀ later reply' c'', Demand q source c' later reply' c'' ↔
          later = [] ∧ reply' = .done ∧ c'' = c' := by
  have htrace : ∀ log, remaining q log (.start known) = trace q known log := by
    intro log
    rw [trace_eq]
    rfl
  refine ⟨?_, ?_, ?_, ?_, ?_⟩
  · intro source source' calls events reply c h hreply hsame calls' c' hlength
    have hlines : ∀ m < c.taken, ∀ line, source m = .line line → source' m = .line line := by
      intro m hm line hline
      rw [hsame m hm, hline]
    have hcalls := h.congr (h.isAtLine (by simpa using hreply)) hlines
    constructor
    · intro h'
      exact hcalls.unique h' (by simpa using hlength)
    · rintro ⟨rfl, rfl⟩
      exact hcalls
  · intro source calls c h
    obtain ⟨htaken, hdrawn⟩ := h.draws
    refine ⟨?_, h.tableAfter, h.shows⟩
    rw [hdrawn, htaken, List.range_eq_range']
    simp [Cursor.start]
  · intro log k
    obtain ⟨calls, c, h, rfl⟩ := exists_demands q log (.start known) k
    refine ⟨calls, c, h, rfl, ?_⟩
    rw [h.demands, htrace]
  · intro lines source failure hlines hbreaks hends
    rw [← htrace] at hends
    exact demands_broken hlines hbreaks hends
  · intro source c events reply c' h hreply later reply' c''
    exact demand_stopped_iff (h.stops hreply)

/-- The second record is no JSON. The entry of the first is given nevertheless, and only the demand
behind it fails. -/
theorem entry_before_broken_record :
    let q : Questions := ⟨fun _ => false, fun _ => false, fun _ => false⟩
    let record := "\x7b\"command\":\"CompileC a\\ncd /w\\ncc -c a.c -o a\\nCompileC b\\ncd /w\"\x7d"
    let log := Log.ofText (record ++ "\n\x7b\n") .records
    ∃ calls c, Demands q log.source (.start .empty) calls c ∧ calls.length = 3 ∧
      calls.map (fun call => (Trace.entries call.1, call.1.getLast?)) =
        [([⟨"/w", "cc -c a.c -o a", "a.c"⟩], some (.entry ⟨"/w", "cc -c a.c -o a", "a.c"⟩)),
          ([], some (.failed (.invalidRecord 2 Log.RecordScan.reason))), ([], none)] := by
  intro q record log
  obtain ⟨-, -, hlog, -⟩ := scans_on_demand q .empty
  obtain ⟨calls, c, h, hlength, hcut⟩ := hlog log 3
  refine ⟨calls, c, h, hlength, ?_⟩
  have hviews : calls.map (fun call => (Trace.entries call.1, call.1.getLast?)) =
      (calls.map Prod.fst).map fun events => (Trace.entries events, events.getLast?) := by
    rw [List.map_map]
    rfl
  rw [hviews, hcut]
  decide +kernel

end Scan

end CompileCommands
