import CompileCommands.Conversion
import CompileCommands.Proofs.Document
import CompileCommands.Proofs.HeaderTable
import CompileCommands.Proofs.Scan.Steps

/-!
# What a conversion writes

A conversion is a scan with a write behind each entry and at both ends. With a sink that refuses
nothing it writes the whole database, or breaks off where the scan fails. A sink that refuses
writes changes nothing before the first write that it refuses, and lets nothing happen after it:
the conversion is the one that it would have been, cut before that write (`run_refusing`).
-/

namespace CompileCommands

open Transducer

def storedChunks (actions : List Action) : List String := actions.filterMap Action.stored?

def scannedEvents (actions : List Action) : List Event := actions.filterMap Action.scanned?

theorem storedChunks_append (front back : List Action) :
    storedChunks (front ++ back) = storedChunks front ++ storedChunks back :=
  List.filterMap_append

theorem scannedEvents_append (front back : List Action) :
    scannedEvents (front ++ back) = scannedEvents front ++ scannedEvents back :=
  List.filterMap_append

namespace Converter

/-! ## A sink that refuses writes -/

/-- Nothing is written whatever the sink does, or one write is tried and the rest hangs on it. -/
def TriesOnce (w : Document.Writer) (act : (Nat → Bool) → Converter × List Action) : Prop :=
  (∃ failure, ∀ refuses, act refuses = (⟨w, failure⟩, [])) ∨
    ∃ tried stored chunk, stored.writes = w.writes + 1 ∧
      ∀ refuses, act refuses =
        if refuses w.writes then (⟨tried, some .sinkFailed⟩, [])
        else (⟨stored, none⟩, [.stored chunk])

theorem triesOnce_of_error {w : Document.Writer} {r : Document.Request} {failure : Failure}
    (h : ∀ refuses, w.serve refuses r = (w, .error failure)) :
    TriesOnce w fun refuses => request refuses w r := by
  refine Or.inl ⟨some failure, fun refuses => ?_⟩
  simp only [request, h refuses]

theorem triesOnce_of_put {w : Document.Writer} {r : Document.Request}
    (tried stored : Document.Writer) (chunk : String) (hwrites : stored.writes = w.writes + 1)
    (h : ∀ refuses, w.serve refuses r =
      if refuses w.writes then (tried, .error .sinkFailed) else (stored, .ok chunk)) :
    TriesOnce w fun refuses => request refuses w r := by
  refine Or.inr ⟨tried, stored, chunk, hwrites, fun refuses => ?_⟩
  simp only [request, h refuses]
  cases refuses w.writes <;> rfl

theorem request_triesOnce (w : Document.Writer) (r : Document.Request) :
    TriesOnce w fun refuses => request refuses w r := by
  cases r with
  | openDocument =>
      by_cases h : w.phase = .fresh
      · let next : Document.Writer := ⟨.opened, w.entries, w.writes + 1⟩
        refine triesOnce_of_put next next "[" rfl fun refuses => ?_
        rw [Document.Writer.serve, if_pos h]
        cases hw : refuses w.writes <;> simp [Document.Writer.put, hw, next]
      · exact triesOnce_of_error fun refuses => by rw [Document.Writer.serve, if_neg h]
  | add entry =>
      by_cases h : w.phase = .opened
      · refine triesOnce_of_put ⟨w.phase, w.entries, w.writes + 1⟩
          ⟨w.phase, w.entries + 1, w.writes + 1⟩ (Document.separator w.entries ++ entry.render) rfl
          fun refuses => ?_
        rw [Document.Writer.serve, if_pos h]
        cases hw : refuses w.writes <;> simp [Document.Writer.put, hw]
      · exact triesOnce_of_error fun refuses => by rw [Document.Writer.serve, if_neg h]
  | closeDocument =>
      by_cases h : w.phase = .opened
      · let next : Document.Writer := ⟨.closed, w.entries, w.writes + 1⟩
        refine triesOnce_of_put next next "\n]\n" rfl fun refuses => ?_
        rw [Document.Writer.serve, if_pos h]
        cases hw : refuses w.writes <;> simp [Document.Writer.put, hw, next]
      · exact triesOnce_of_error fun refuses => by rw [Document.Writer.serve, if_neg h]

/-- An event is answered whatever the sink does, or with one write. -/
theorem answer_triesOnce (w : Document.Writer) (e : Event) :
    TriesOnce w fun refuses => answer refuses w e := by
  cases e with
  | entry entry => exact request_triesOnce w (.add entry)
  | ended => exact request_triesOnce w .closeDocument
  | failed failure => exact Or.inl ⟨some failure, fun _ => rfl⟩
  | _ => exact Or.inl ⟨none, fun _ => rfl⟩

variable {refuses : Nat → Bool} {c : Converter}

theorem step_of_failed (h : c.failure.isSome = true) (e : Event) : step refuses c e = (c, []) := by
  rw [step, if_pos h]

theorem step_of_running (h : c.failure.isSome = false) (e : Event) :
    step refuses c e =
      ((answer refuses c.writer e).1, .scanned e :: (answer refuses c.writer e).2) := by
  rw [step, if_neg (by simp [h])]

theorem run_of_failed (h : c.failure.isSome = true) (events : List Event) :
    run (step refuses) c events = (c, []) := by
  rw [run_of_still fun _ => []]
  · simp
  · exact fun e _ => step_of_failed h e

/-- So many writes, from the first of them on, the sink does not refuse. -/
def Accepts (refuses : Nat → Bool) (first count : Nat) : Prop :=
  ∀ n, first ≤ n → n < first + count → refuses n = false

theorem Accepts.none (refuses : Nat → Bool) (first : Nat) : Accepts refuses first 0 := by
  intro n hle hlt
  omega

theorem Accepts.succ {first count : Nat} (hfirst : refuses first = false)
    (h : Accepts refuses (first + 1) count) : Accepts refuses first (count + 1) := by
  intro n hle hlt
  rcases Nat.eq_or_lt_of_le hle with rfl | hlt'
  · exact hfirst
  · exact h n hlt' (by omega)

/-- A sink has one first write that it refuses. -/
theorem Accepts.eq_of_first {n w : Nat} (h : Accepts refuses 0 n) (hn : refuses n = true)
    (hw : refuses w = true) (hbefore : ∀ m < w, refuses m = false) : n = w := by
  rcases Nat.lt_trichotomy n w with hlt | heq | hgt
  · rw [hbefore n hlt] at hn
    exact Bool.noConfusion hn
  · exact heq
  · rw [h w (Nat.zero_le w) (by omega)] at hw
    exact Bool.noConfusion hw

/-- Up to the first write that the sink refuses the run is the same, and there it ends. -/
theorem run_refusing (refuses : Nat → Bool) (events : List Event) (c : Converter) :
    let free := run (step fun _ => false) c events
    let got := run (step refuses) c events
    (got = free ∧ Accepts refuses c.writer.writes (storedChunks free.2).length) ∨
      ∃ chunk later, free.2 = got.2 ++ .stored chunk :: later ∧
        got.1.failure = some .sinkFailed ∧
        Accepts refuses c.writer.writes (storedChunks got.2).length ∧
        refuses (c.writer.writes + (storedChunks got.2).length) = true := by
  induction events generalizing c with
  | nil => exact Or.inl ⟨rfl, Accepts.none refuses c.writer.writes⟩
  | cons e events ih =>
      intro free got
      cases hfailed : c.failure.isSome with
      | true =>
          left
          simp only [free, got, run_of_failed hfailed]
          exact ⟨trivial, Accepts.none refuses c.writer.writes⟩
      | false =>
          simp only [free, got, run_cons, step_of_running hfailed]
          rcases answer_triesOnce c.writer e with
            ⟨failure, hanswer⟩ | ⟨tried, stored, chunk, hwrites, hanswer⟩
          · simp only at hanswer
            rw [hanswer, hanswer]
            rcases ih ⟨c.writer, failure⟩ with ⟨hsame, haccepts⟩ | ⟨chunk, later, hcut, hrest⟩
            · exact Or.inl ⟨by rw [hsame], haccepts⟩
            · refine Or.inr ⟨chunk, later, ?_, hrest⟩
              show Action.scanned e :: _ = _
              rw [hcut]
              rfl
          · -- here the two runs part, if the sink refuses this write
            simp only at hanswer
            have hfree : answer (fun _ => false) c.writer e =
                (⟨stored, none⟩, [.stored chunk]) := by
              rw [hanswer]
              rfl
            rw [hfree]
            cases hrefuses : refuses c.writer.writes with
            | true =>
                have hgot : answer refuses c.writer e = (⟨tried, some .sinkFailed⟩, []) := by
                  rw [hanswer, if_pos hrefuses]
                rw [hgot, run_of_failed rfl]
                exact Or.inr ⟨chunk, _, rfl, rfl, Accepts.none refuses c.writer.writes, hrefuses⟩
            | false =>
                have hgot : answer refuses c.writer e = (⟨stored, none⟩, [.stored chunk]) := by
                  rw [hanswer, hrefuses]
                  rfl
                rw [hgot]
                -- the writes of the rest are numbered from the next one on
                rcases ih ⟨stored, none⟩ with
                  ⟨hsame, haccepts⟩ | ⟨next, later, hcut, hfail, haccepts, hrefused⟩
                · rw [hwrites] at haccepts
                  exact Or.inl ⟨by rw [hsame], haccepts.succ hrefuses⟩
                · rw [hwrites] at haccepts hrefused
                  refine Or.inr ⟨next, later, ?_, hfail, haccepts.succ hrefuses, ?_⟩
                  · show Action.scanned e :: .stored chunk :: _ = _
                    rw [hcut]
                    rfl
                  · rw [Nat.add_assoc, Nat.add_comm 1] at hrefused
                    exact hrefused

/-! ## A sink that refuses nothing -/

def opened (entries : Nat) : Converter := ⟨⟨.opened, entries, entries + 1⟩, none⟩

theorem request_open : request (fun _ => false) .start .openDocument = (opened 0, [.stored "["]) := rfl

theorem step_entry (n : Nat) (e : Entry) :
    step (fun _ => false) (opened n) (.entry e) =
      (opened (n + 1), [.scanned (.entry e), .stored (Document.separator n ++ e.render)]) := rfl

/-- An event that is neither an entry nor the last leaves the writer alone. -/
theorem step_silent (n : Nat) {e : Event} (hentry : e.entry? = none) (hlast : e.isLast = false) :
    step (fun _ => false) (opened n) e = (opened n, [.scanned e]) := by
  cases e with
  | entry entry => exact absurd hentry (by simp [Event.entry?])
  | ended => exact absurd hlast (by simp [Event.isLast])
  | failed failure => exact absurd hlast (by simp [Event.isLast])
  | _ => rfl

/-- Before the last event each entry is written behind its separator, and nothing else is. -/
theorem run_ongoing {events : List Event} (h : Scan.Ongoing events) :
    let r := run (step fun _ => false) (opened 0) events
    r.1 = opened (Trace.entries events).length ∧
      storedChunks r.2 = Document.separated (Trace.entries events) ∧
      scannedEvents r.2 = events := by
  induction events using List.reverseRecOn with
  | nil => exact ⟨rfl, rfl, rfl⟩
  | append_singleton events e ih =>
      obtain ⟨hstate, hchunks, hevents⟩ := ih fun e he => h e (List.mem_append_left _ he)
      have he : e.isLast = false := h e (List.mem_append_right _ (List.mem_singleton_self e))
      intro r
      simp only [r, run_concat, hstate, storedChunks_append, scannedEvents_append, hchunks, hevents,
        Scan.entries_append]
      cases hentry : e.entry? with
      | some entry =>
          obtain rfl : e = .entry entry := by
            cases e <;> simp_all [Event.entry?]
          rw [step_entry]
          refine ⟨?_, (Document.separated_concat _ entry).symm, rfl⟩
          rw [List.length_append]
          rfl
      | none =>
          have hnone : Trace.entries [e] = [] := by simp [Trace.entries, hentry]
          rw [step_silent _ hentry he, hnone, List.append_nil]
          exact ⟨rfl, List.append_nil _, rfl⟩

end Converter

/-! ## Whole conversions -/

theorem convert_eq {refuses : Nat → Bool} {opened : Converter} {first : List Action}
    (h : Converter.request refuses .start .openDocument = (opened, first)) (q : Questions)
    (log : Log) :
    let r := run (Converter.step refuses) opened (Scan.trace q .empty log)
    convert refuses q log =
      { actions := first ++ r.2
        result :=
          match r.1.failure with
          | some failure => .error failure
          | none => .ok ⟨r.1.writer.entries,
              (Trace.tableAfter .empty (scannedEvents (first ++ r.2))).size⟩ } := by
  rw [convert, h]
  rfl

/-- The conversion with a sink that refuses writes is the one without, cut before the first write
that is refused. -/
theorem convert_refusing (refuses : Nat → Bool) (q : Questions) (log : Log) :
    let free := convert (fun _ => false) q log
    let got := convert refuses q log
    (got = free ∧ Converter.Accepts refuses 0 free.chunks.length) ∨
      ∃ chunk later, free.actions = got.actions ++ .stored chunk :: later ∧
        got.result = .error .sinkFailed ∧ Converter.Accepts refuses 0 got.chunks.length ∧
        refuses got.chunks.length = true := by
  intro free got
  have hfree := convert_eq Converter.request_open q log
  cases hrefuses : refuses 0 with
  | true =>
      have hopen : Converter.request refuses .start .openDocument =
          (⟨⟨.opened, 0, 1⟩, some .sinkFailed⟩, []) := by
        simp [Converter.request, Document.Writer.start, Document.Writer.serve, Document.Writer.put,
          hrefuses]
      have hgot := convert_eq hopen q log
      simp only [Converter.run_of_failed (c := ⟨⟨.opened, 0, 1⟩, some .sinkFailed⟩) rfl] at hgot
      rw [show free = _ from hfree, show got = _ from hgot]
      exact Or.inr ⟨"[", _, rfl, rfl, Converter.Accepts.none refuses 0, hrefuses⟩
  | false =>
      have hopen : Converter.request refuses .start .openDocument =
          (Converter.opened 0, [.stored "["]) := by
        simp [Converter.request, Document.Writer.start, Document.Writer.serve, Document.Writer.put,
          hrefuses, Converter.opened]
      have hgot := convert_eq hopen q log
      rcases Converter.run_refusing refuses (Scan.trace q .empty log) (Converter.opened 0) with
        ⟨hsame, haccepts⟩ | ⟨chunk, later, hcut, hfail, haccepts, hrefused⟩
      · rw [hsame] at hgot
        have hchunks : free.chunks = "[" :: storedChunks
            (run (Converter.step fun _ => false) (Converter.opened 0)
              (Scan.trace q .empty log)).2 := by
          simp only [free, hfree]
          rfl
        refine Or.inl ⟨hgot.trans hfree.symm, ?_⟩
        rw [hchunks]
        exact haccepts.succ hrefuses
      · have hchunks : got.chunks = "[" :: storedChunks
            (run (Converter.step refuses) (Converter.opened 0) (Scan.trace q .empty log)).2 := by
          simp only [got, hgot]
          rfl
        refine Or.inr ⟨chunk, later, ?_, ?_, ?_, ?_⟩
        · simp only [free, got, hfree, hgot, hcut, List.append_assoc]
        · simp only [got, hgot, hfail]
        · rw [hchunks]
          exact haccepts.succ hrefuses
        · rw [hchunks, List.length_cons, Nat.add_comm]
          exact hrefused

theorem convert_open (q : Questions) (log : Log) :
    let r := run (Converter.step fun _ => false) (Converter.opened 0) (Scan.trace q .empty log)
    let free := convert (fun _ => false) q log
    free.chunks = "[" :: storedChunks r.2 ∧ free.events = scannedEvents r.2 ∧
      free.result =
        match r.1.failure with
        | some failure => .error failure
        | none => .ok ⟨r.1.writer.entries, (Trace.tableAfter .empty free.events).size⟩ := by
  intro r free
  rw [show free = _ from convert_eq Converter.request_open q log]
  exact ⟨rfl, rfl, rfl⟩

/-- With a sink that refuses nothing, the database is whole where the scan ends, and breaks off
behind its last entry where the scan fails. -/
theorem convert_free (q : Questions) (log : Log) :
    let trace := Scan.trace q .empty log
    let free := convert (fun _ => false) q log
    free.events = trace ∧
      match Trace.failure? trace with
      | none => free.chunks = Document.finished (Trace.entries trace) ∧
          free.result = .ok ⟨(Trace.entries trace).length,
            (HeaderTable.artifacts (Trace.mappings trace)).card⟩
      | some failure => free.chunks = "[" :: Document.separated (Trace.entries trace) ∧
          free.result = .error failure := by
  intro trace free
  obtain ⟨hchunks, hevents, hresult⟩ := convert_open q log
  obtain ⟨front, last, htrace, hfront, hlast⟩ := Scan.trace_ending q .empty log
  obtain ⟨hstate, hstored, hscanned⟩ := Converter.run_ongoing hfront
  have hentries : Trace.entries trace = Trace.entries front ++ Trace.entries [last] := by
    rw [show trace = _ from htrace, Scan.entries_append]
  have hfailure : Trace.failure? trace = Trace.failure? [last] := by
    rw [show trace = _ from htrace, Scan.failure?_append, hfront.failure?, Option.none_or]
  rw [htrace, run_concat, hstate] at hchunks hevents hresult
  rw [storedChunks_append, hstored] at hchunks
  rw [scannedEvents_append, hscanned] at hevents
  rw [hfailure, hentries]
  rcases hlast with ⟨rfl, -⟩ | ⟨failure, rfl, -⟩
  · have hall : free.events = trace := hevents.trans htrace.symm
    have hnone : Trace.entries [.ended] = [] := rfl
    rw [hnone, List.append_nil]
    refine ⟨hall, hchunks, hresult.trans ?_⟩
    have hsize : (Trace.tableAfter .empty trace).size =
        (HeaderTable.artifacts (Trace.mappings trace)).card :=
      HeaderTable.size_insertAll .empty (Trace.mappings trace)
    show Except.ok (Summary.mk _ (Trace.tableAfter .empty free.events).size) = _
    rw [hall, hsize]
    rfl
  · have hnone : Trace.entries [.failed failure] = [] := rfl
    rw [hnone, List.append_nil]
    refine ⟨hevents.trans htrace.symm, ?_, hresult⟩
    exact hchunks.trans (congrArg ("[" :: ·) (List.append_nil _))

/-- **What a conversion writes.** With a sink that refuses nothing, a scan that ends gives JSON text
of its entries, and a scan that fails leaves the same text broken off behind the last entry, and the
failure. A sink that refuses a write leaves the chunks before that write and nothing after it: what
has been done is what would have been done before the write. -/
theorem chunks_of_conversion (refuses : Nat → Bool) (q : Questions) (log : Log) :
    let trace := Scan.trace q .empty log
    let entries := Trace.entries trace
    let free := convert (fun _ => false) q log
    let got := convert refuses q log
    free.events = trace ∧
      (Trace.failure? trace = none →
        free.chunks = "[" :: Document.separated entries ++ ["\n]\n"] ∧
          Json.parse (String.join free.chunks) = some (.array (entries.map Entry.toJson)) ∧
          free.result = .ok ⟨entries.length, (HeaderTable.artifacts (Trace.mappings trace)).card⟩) ∧
      (∀ failure, Trace.failure? trace = some failure →
        free.chunks = "[" :: Document.separated entries ∧ free.result = .error failure) ∧
      ((∀ n < free.chunks.length, refuses n = false) → got = free) ∧
      ∀ w < free.chunks.length, refuses w = true → (∀ n < w, refuses n = false) →
        got.chunks = free.chunks.take w ∧ got.result = .error .sinkFailed ∧
          ∃ chunk later, free.actions = got.actions ++ .stored chunk :: later := by
  intro trace entries free got
  obtain ⟨hevents, hfree⟩ := convert_free q log
  have hchunks_of_actions : ∀ {chunk later}, free.actions = got.actions ++ .stored chunk :: later →
      free.chunks = got.chunks ++ chunk :: storedChunks later := by
    intro chunk later h
    show storedChunks free.actions = _
    rw [h, storedChunks_append]
    rfl
  refine ⟨hevents, ?_, ?_, ?_, ?_⟩
  · intro hfailure
    rw [hfailure] at hfree
    refine ⟨hfree.1, ?_, hfree.2⟩
    rw [show free.chunks = _ from hfree.1]
    exact Document.parse_finished entries
  · intro failure hfailure
    rw [hfailure] at hfree
    exact hfree
  · intro haccepts
    rcases convert_refusing refuses q log with ⟨hsame, -⟩ | ⟨chunk, later, hcut, -, -, hrefused⟩
    · exact hsame
    · have hlength := congrArg List.length (hchunks_of_actions hcut)
      rw [List.length_append, List.length_cons] at hlength
      have haccepted : refuses got.chunks.length = false :=
        haccepts got.chunks.length (by omega)
      exact Bool.noConfusion (haccepted.symm.trans hrefused)
  · intro w hw hrefuses hbefore
    rcases convert_refusing refuses q log with
      ⟨-, haccepts⟩ | ⟨chunk, later, hcut, hresult, haccepts, hrefused⟩
    · have haccepted : refuses w = false := haccepts w (Nat.zero_le w) (by simpa using hw)
      exact Bool.noConfusion (haccepted.symm.trans hrefuses)
    · -- the write at which the conversion is cut is the first that is refused
      have hlength : got.chunks.length = w := haccepts.eq_of_first hrefused hrefuses hbefore
      refine ⟨?_, hresult, chunk, later, hcut⟩
      rw [hchunks_of_actions hcut, ← hlength, List.take_left]

end CompileCommands
