import CompileCommands.Proofs.Scan.Steps
import Mathlib.Order.Bounds.Basic
import Mathlib.Order.Interval.Set.Basic

/-!
# A log cut by indices

A log can be cut into sections without reading it line by line. A section begins at the least index
from a bound on whose line is a marker. It ends at its directory line if that directory is excluded,
and else at the least index behind the directory line whose line is an invocation; the next section
is sought behind that end. A section that lacks one of the two lines is the last (`segmentsFrom`).

A scan has one pass over the lines and cannot go back. It still comes to just these sections, one
after the other, and does with each what can be told from the section and the table that the earlier
ones have left (`visits`): its entries are theirs, each given when the line of its invocation and
none behind it has been taken, and its failure is that of the first section that fails
(`entries_of_segments`).
-/

namespace CompileCommands.Scan

open Transducer

/-! ## Sections by index -/

def HoldsAt (p : String → Bool) (lines : List String) (i : Nat) : Prop :=
  ∃ line, lines[i]? = some line ∧ p line = true

/-- The least index from a bound on whose line is of a kind. -/
def firstFrom (p : String → Bool) (lines : List String) (bound : Nat) : Option Nat :=
  ((lines.drop bound).findIdx? p).map (bound + ·)

theorem firstFrom_eq_some_iff {p : String → Bool} {lines : List String} {bound i : Nat} :
    firstFrom p lines bound = some i ↔ IsLeast {k | bound ≤ k ∧ HoldsAt p lines k} i := by
  rw [firstFrom, Option.map_eq_some_iff]
  constructor
  · rintro ⟨n, hn, rfl⟩
    obtain ⟨hlt, hp, hbefore⟩ := List.findIdx?_eq_some_iff_getElem.mp hn
    refine ⟨⟨Nat.le_add_right bound n, (lines.drop bound)[n], ?_, hp⟩, ?_⟩
    · rw [← List.getElem?_drop, List.getElem?_eq_getElem hlt]
    · rintro k ⟨hle, line, hline, hpline⟩
      by_contra hlater
      obtain ⟨m, rfl⟩ := Nat.exists_eq_add_of_le hle
      rw [← List.getElem?_drop] at hline
      obtain ⟨hm, rfl⟩ := List.getElem?_eq_some_iff.mp hline
      exact hbefore m (by omega) hpline
  · rintro ⟨⟨hle, line, hline, hp⟩, hleast⟩
    obtain ⟨n, rfl⟩ := Nat.exists_eq_add_of_le hle
    rw [← List.getElem?_drop] at hline
    obtain ⟨hlt, rfl⟩ := List.getElem?_eq_some_iff.mp hline
    refine ⟨n, List.findIdx?_eq_some_iff_getElem.mpr ⟨hlt, hp, fun j hj hpj => ?_⟩, rfl⟩
    have hmem : bound + j ∈ {k | bound ≤ k ∧ HoldsAt p lines k} := by
      refine ⟨Nat.le_add_right bound j, (lines.drop bound)[j], ?_, hpj⟩
      rw [← List.getElem?_drop, List.getElem?_eq_getElem]
    have hnj : bound + n ≤ bound + j := hleast hmem
    omega

theorem le_of_firstFrom {p : String → Bool} {lines : List String} {bound i : Nat}
    (h : firstFrom p lines bound = some i) : bound ≤ i ∧ i < lines.length := by
  obtain ⟨⟨hle, line, hline, -⟩, -⟩ := firstFrom_eq_some_iff.mp h
  exact ⟨hle, (List.getElem?_eq_some_iff.mp hline).1⟩

def isMarker (line : String) : Bool := (SectionKind.ofLine? line).isSome

/-- A section by the indices of its marker and of its last line. -/
inductive Segment where
  /-- The directory is excluded, so the section ends at its directory line. -/
  | excluded (start : Nat)
  /-- The section ends at its invocation. -/
  | finished (start stop : Nat)
  /-- The log ends before the section does. -/
  | cut (start : Nat)
  deriving DecidableEq, Repr

def segmentsFrom (excludes : String → Bool) (lines : List String) (bound : Nat) : List Segment :=
  match _h : firstFrom isMarker lines bound with
  | none => []
  | some i =>
      match lines[i + 1]? with
      | none => [.cut i]
      | some directoryLine =>
          if excludes (Command.directory directoryLine) then
            .excluded i :: segmentsFrom excludes lines (i + 2)
          else
            match _h' : firstFrom Command.isInvocation lines (i + 2) with
            | none => [.cut i]
            | some j => .finished i j :: segmentsFrom excludes lines (j + 1)
termination_by lines.length - bound
decreasing_by
  · have hi := le_of_firstFrom _h
    omega
  · have hi := le_of_firstFrom _h
    have hj := le_of_firstFrom _h'
    omega

section Equations

variable {excludes : String → Bool} {lines : List String} {bound i j : Nat}
  {directoryLine : String}

theorem segmentsFrom_of_none (h : firstFrom isMarker lines bound = none) :
    segmentsFrom excludes lines bound = [] := by
  rw [segmentsFrom]
  split <;> simp_all

theorem segmentsFrom_of_cut (h : firstFrom isMarker lines bound = some i)
    (hnone : lines[i + 1]? = none) : segmentsFrom excludes lines bound = [.cut i] := by
  rw [segmentsFrom]
  split <;> simp_all

theorem segmentsFrom_of_excluded (h : firstFrom isMarker lines bound = some i)
    (hdirectory : lines[i + 1]? = some directoryLine)
    (hexcluded : excludes (Command.directory directoryLine) = true) :
    segmentsFrom excludes lines bound = .excluded i :: segmentsFrom excludes lines (i + 2) := by
  conv_lhs => rw [segmentsFrom]
  split <;> simp_all

theorem segmentsFrom_of_open (h : firstFrom isMarker lines bound = some i)
    (hdirectory : lines[i + 1]? = some directoryLine)
    (hkept : excludes (Command.directory directoryLine) = false)
    (hopen : firstFrom Command.isInvocation lines (i + 2) = none) :
    segmentsFrom excludes lines bound = [.cut i] := by
  rw [segmentsFrom]
  split
  · simp_all
  · rename_i i' h'
    obtain rfl : i = i' := by simpa [h] using h'
    simp only [hdirectory, hkept, Bool.false_eq_true, if_false]
    split <;> simp_all

theorem segmentsFrom_of_found (h : firstFrom isMarker lines bound = some i)
    (hdirectory : lines[i + 1]? = some directoryLine)
    (hkept : excludes (Command.directory directoryLine) = false)
    (hfound : firstFrom Command.isInvocation lines (i + 2) = some j) :
    segmentsFrom excludes lines bound =
      .finished i j :: segmentsFrom excludes lines (j + 1) := by
  conv_lhs => rw [segmentsFrom]
  split
  · simp_all
  · rename_i i' h'
    obtain rfl : i = i' := by simpa [h] using h'
    simp only [hdirectory, hkept, Bool.false_eq_true, if_false]
    split <;> simp_all

end Equations

def Segment.span : Segment → Set Nat
  | excluded start => Set.Icc start (start + 1)
  | finished start stop => Set.Icc start stop
  | cut start => Set.Ici start

def Segment.Apart (s t : Segment) : Prop := ∀ n ∈ s.span, n ∉ t.span

def sectionAt? (lines : List String) (start stop : Nat) : Option Section := do
  let kind ← lines[start]?.bind SectionKind.ofLine?
  let directoryLine ← lines[start + 1]?
  let invocation ← lines[stop]?
  some ⟨kind, Command.directory directoryLine, invocation⟩

def Segment.section? (lines : List String) : Segment → Option (Nat × Section)
  | finished start stop => (sectionAt? lines start stop).map (stop, ·)
  | excluded _ | cut _ => none

/-! ## What the sections give -/

/-- What a section comes to with a table: a failure, or perhaps an entry. -/
def Section.process (q : Questions) (table : HeaderTable) (s : Section) :
    Except Failure (Option Entry) :=
  match s.kind with
  | .compile =>
      (Command.compile q.fileExists table s.invocation s.directory).result.map fun entry =>
        if q.excludesFile entry.file then none else some entry
  | .precompile =>
      match Command.mapping? s.invocation with
      | .ok _ => .ok none
      | .error cause => .error (.malformedCommand cause)

/-- A section, the index of its invocation, and the table that it finds. -/
structure Visit where
  index : Nat
  visited : Section
  table : HeaderTable

/-- The sections one after the other; each finds the table with the mappings of those before. -/
def visits (table : HeaderTable) : List (Nat × Section) → List Visit
  | [] => []
  | (index, s) :: later => ⟨index, s, table⟩ :: visits (table.insertAll s.mapping?.toList) later

namespace Visit

def failure? (q : Questions) (v : Visit) : Option Failure :=
  match v.visited.process q v.table with
  | .error failure => some failure
  | .ok _ => none

def entry? (q : Questions) (v : Visit) : Option (Nat × Entry) :=
  match v.visited.process q v.table with
  | .ok (some entry) => some (v.index + 1, entry)
  | _ => none

end Visit

def countStep : Transducer Nat Event (Nat × Entry) := fun n e =>
  match e with
  | .pulled _ => (n + 1, [])
  | .entry entry => (n, [(n, entry)])
  | _ => (n, [])

/-- The entries of a row of events, each behind the number of lines taken before it. -/
def countedEntries (events : List Event) : List (Nat × Entry) := (run countStep 0 events).2

/-! ## Counting -/

theorem count_lines (events : List Event) (n : Nat) :
    (run countStep n events).1 = n + (Trace.pulled events).length := by
  induction events generalizing n with
  | nil => rfl
  | cons e events ih =>
      rw [run_cons, ih]
      cases e with
      | pulled line =>
          show n + 1 + (Trace.pulled events).length = n + ((Trace.pulled events).length + 1)
          omega
      | _ => rfl

theorem counted_entries (events : List Event) (n : Nat) :
    (run countStep n events).2.map Prod.snd = Trace.entries events := by
  induction events generalizing n with
  | nil => rfl
  | cons e events ih =>
      rw [run_cons, List.map_append, ih]
      cases e <;> rfl

theorem counted_of_no_entries {events : List Event} (h : Trace.entries events = []) (n : Nat) :
    (run countStep n events).2 = [] := by
  have hmap := counted_entries events n
  rw [h] at hmap
  exact List.map_eq_nil_iff.mp hmap

/-- Where no line is taken, the number before the entries stays. -/
theorem counted_of_no_lines {events : List Event} (h : Trace.pulled events = []) (n : Nat) :
    (run countStep n events).2 = (Trace.entries events).map (n, ·) := by
  induction events with
  | nil => rfl
  | cons e events ih =>
      cases e with
      | pulled line => cases h
      | entry entry =>
          rw [run_cons]
          exact congrArg ((n, entry) :: ·) (ih h)
      | _ => exact ih h

/-! ## The search among the lines -/

theorem drop_of_firstFrom {p : String → Bool} {lines : List String} {bound i : Nat}
    (h : firstFrom p lines bound = some i) :
    ∃ front line, lines.drop bound = front ++ line :: lines.drop (i + 1) ∧
      bound + front.length = i ∧ (∀ l ∈ front, p l = false) ∧ lines[i]? = some line ∧
        p line = true := by
  obtain ⟨⟨hle, line, hline, hp⟩, hleast⟩ := firstFrom_eq_some_iff.mp h
  obtain ⟨n, rfl⟩ := Nat.exists_eq_add_of_le hle
  have hlt : bound + n < lines.length := (List.getElem?_eq_some_iff.mp hline).1
  refine ⟨(lines.drop bound).take n, line, ?_, ?_, ?_, hline, hp⟩
  · have hrest : line :: lines.drop (bound + n + 1) = (lines.drop bound).drop n := by
      rw [List.drop_drop, List.drop_eq_getElem?_toList_append (i := bound + n), hline]
      rfl
    rw [hrest, List.take_append_drop]
  · rw [List.length_take, List.length_drop]
    omega
  · intro l hl
    obtain ⟨k, hk, hget⟩ := List.mem_iff_getElem.mp hl
    rw [List.length_take, List.length_drop] at hk
    rw [List.getElem_take, List.getElem_drop] at hget
    -- a line of the kind in front would stand at a lesser index
    rw [Bool.eq_false_iff]
    intro hpl
    have hearlier : bound + n ≤ bound + k :=
      hleast ⟨Nat.le_add_right bound k, l, List.getElem?_eq_some_iff.mpr ⟨by omega, hget⟩, hpl⟩
    omega

theorem none_of_firstFrom {p : String → Bool} {lines : List String} {bound : Nat}
    (h : firstFrom p lines bound = none) : ∀ line ∈ lines.drop bound, p line = false := by
  rw [firstFrom, Option.map_eq_none_iff] at h
  exact List.findIdx?_eq_none_iff.mp h

/-! ## Lines that give nothing -/

/-- Over some lines a scan goes from one state to another, and gives nothing. -/
def Silent (q : Questions) (s : Scan) (lines : List String) (t : Scan) : Prop :=
  (run (step q) s lines).1 = t ∧ Trace.entries (run (step q) s lines).2 = [] ∧
    Trace.failure? (run (step q) s lines).2 = none ∧
    (Trace.pulled (run (step q) s lines).2).length = lines.length

section Silent

variable {q : Questions} {s t u : Scan}

theorem Silent.trans {front back : List String} (h : Silent q s front t)
    (h' : Silent q t back u) : Silent q s (front ++ back) u := by
  obtain ⟨rfl, hentries, hfailure, hpulled⟩ := h
  obtain ⟨rfl, hentries', hfailure', hpulled'⟩ := h'
  refine ⟨?_, ?_, ?_, ?_⟩
  · rw [run_append]
  · rw [run_append, entries_append, hentries, hentries']
    rfl
  · rw [run_append, failure?_append, hfailure, hfailure']
    rfl
  · rw [run_append, pulled_append, List.length_append, List.length_append, hpulled, hpulled']

theorem silent_nil (s : Scan) : Silent q s [] s := ⟨rfl, rfl, rfl, rfl⟩

/-- A line at which the outline ends no section is answered with asides. -/
theorem silent_of_quiet {line : String} {phase : Phase} (hrunning : s.phase ≠ .stopped)
    (h : outlineStep q.excludesDirectory s.phase line = (phase, [])) :
    Silent q s [line] ⟨s.table, phase⟩ := by
  -- only a line that ends no section is answered like this
  have hquiet : ∀ {kind directory}, ¬ Closing s line kind directory := by
    intro kind directory hclosing
    rw [hclosing.outline] at h
    cases h
  have hanswer : ∃ asides, Asides asides ∧ s.take q line = (⟨s.table, phase⟩, asides) := by
    have hanswer := take_answer q s line
    generalize s.take q line = r at hanswer
    cases hanswer with
    | @quiet next asides houtline hasides =>
        rw [h] at houtline
        cases houtline
        exact ⟨asides, hasides, rfl⟩
    | unmapped hclosing => exact absurd hclosing hquiet
    | mapped hclosing => exact absurd hclosing hquiet
    | excluded hclosing => exact absurd hclosing hquiet
    | kept hclosing => exact absurd hclosing hquiet
    | failed hclosing => exact absurd hclosing hquiet
  obtain ⟨asides, hasides, htake⟩ := hanswer
  have hrun : run (step q) s [line] = (⟨s.table, phase⟩, .pulled line :: asides) := by
    rw [run_cons, step_of_running hrunning, htake]
    simp
  rw [Silent, hrun]
  refine ⟨rfl, hasides.entries, hasides.ongoing.failure?, ?_⟩
  exact congrArg (· + 1) (congrArg List.length hasides.pulled)

/-- Lines among which the outline ends no section only change the phase. -/
theorem silent_of_outline {lines : List String} {phase : Phase} (hrunning : s.phase ≠ .stopped)
    (h : run (outlineStep q.excludesDirectory) s.phase lines = (phase, [])) :
    Silent q s lines ⟨s.table, phase⟩ := by
  induction lines generalizing s with
  | nil =>
      cases h
      exact silent_nil s
  | cons line lines ih =>
      rw [run_cons, Prod.mk.injEq, List.append_eq_nil_iff] at h
      obtain ⟨hphase, hnone, hlater⟩ := h
      have hfirst : Silent q s [line]
          ⟨s.table, (outlineStep q.excludesDirectory s.phase line).1⟩ :=
        silent_of_quiet hrunning (Prod.ext rfl hnone)
      have hnext : (outlineStep q.excludesDirectory s.phase line).1 ≠ .stopped :=
        outlineStep_running hrunning line
      exact hfirst.trans (ih hnext (Prod.ext hphase hlater))

end Silent

/-! ## A scan against its visits -/

def eventsFrom (q : Questions) (failure : Option Failure) (s : Scan) (lines : List String) :
    List Event :=
  (run (step q) s lines).2 ++ (run (step q) s lines).1.finish failure

/-- From a state on, with so many lines taken before, a scan does what the visits tell: it gives the
entries of those before the first that fails, and it fails as that one does, or where the log does. -/
def Follows (q : Questions) (failure : Option Failure) (s : Scan) (lines : List String)
    (taken : Nat) (vs : List Visit) : Prop :=
  (run countStep taken (eventsFrom q failure s lines)).2 =
      (vs.takeWhile fun v => (v.failure? q).isNone).filterMap (Visit.entry? q) ∧
    Trace.failure? (eventsFrom q failure s lines) =
      (vs.findSome? (Visit.failure? q)).or failure

section Follows

variable {q : Questions} {failure : Option Failure} {s t : Scan}

theorem eventsFrom_append (front back : List String) :
    eventsFrom q failure s (front ++ back) =
      (run (step q) s front).2 ++ eventsFrom q failure (run (step q) s front).1 back := by
  rw [eventsFrom, run_append, List.append_assoc]
  rfl

theorem eventsFrom_cons (hrunning : s.phase ≠ .stopped) (line : String) (rest : List String) :
    eventsFrom q failure s (line :: rest) =
      (.pulled line :: (s.take q line).2) ++ eventsFrom q failure (s.take q line).1 rest := by
  rw [eventsFrom, run_cons, step_of_running hrunning, List.append_assoc]
  rfl

theorem eventsFrom_stopped (h : s.phase = .stopped) (lines : List String) :
    eventsFrom q failure s lines = [] := by
  rw [eventsFrom, run_stopped q h, finish_of_stopped h]
  rfl

theorem Silent.follows {front back : List String} {taken : Nat} {vs : List Visit}
    (h : Silent q s front t) (hback : Follows q failure t back (taken + front.length) vs) :
    Follows q failure s (front ++ back) taken vs := by
  obtain ⟨rfl, hentries, hfailure, hpulled⟩ := h
  obtain ⟨hcounted, hfails⟩ := hback
  have hlines : (run countStep taken (run (step q) s front).2).1 = taken + front.length := by
    rw [count_lines, hpulled]
  rw [Follows, eventsFrom_append]
  constructor
  · rw [run_append, counted_of_no_entries hentries, hlines, List.nil_append, hcounted]
  · rw [failure?_append, hfailure, Option.none_or, hfails]

theorem follows_end (hrunning : s.phase ≠ .stopped) (taken : Nat) :
    Follows q failure s [] taken [] := by
  obtain ⟨front, last, hfinish, hfront, hlast⟩ := finish_ending hrunning failure
  refine ⟨counted_of_no_entries (entries_finish s failure) taken, ?_⟩
  show Trace.failure? (s.finish failure) = failure
  rw [hfinish, failure?_append, hfront.failure?, Option.none_or]
  rcases hlast with ⟨rfl, rfl⟩ | ⟨f, rfl, rfl⟩
  · rfl
  · rfl

theorem Silent.follows_end {lines : List String} (h : Silent q s lines t)
    (hrunning : t.phase ≠ .stopped) (taken : Nat) : Follows q failure s lines taken [] := by
  have hend : Follows q failure s (lines ++ []) taken [] :=
    h.follows (Scan.follows_end hrunning (taken + lines.length))
  rwa [List.append_nil] at hend

def Tells (result : Except Failure (Option Entry)) (s : Scan) (events : List Event) : Prop :=
  match result with
  | .error failure =>
      s.phase = .stopped ∧ Trace.entries events = [] ∧ Trace.failure? events = some failure
  | .ok entry? =>
      s.phase = .between ∧ Trace.entries events = entry?.toList ∧ Trace.failure? events = none

theorem tells_take {line directory : String} {kind : SectionKind}
    (h : Closing s line kind directory) :
    Tells (Section.process q s.table ⟨kind, directory, line⟩) (s.take q line).1
      (s.take q line).2 := by
  have hsame : ∀ {k d}, Closing s line k d → k = kind ∧ d = directory := by
    intro k d hd
    simpa using hd.1.symm.trans h.1
  have hanswer := take_answer q s line
  generalize s.take q line = r at hanswer
  cases hanswer with
  | quiet houtline =>
      rw [h.outline] at houtline
      cases houtline
  | unmapped hclosing hmapping =>
      obtain ⟨rfl, rfl⟩ := hsame hclosing
      simp only [Section.process, hmapping]
      exact ⟨rfl, rfl, rfl⟩
  | mapped hclosing hmapping =>
      obtain ⟨rfl, rfl⟩ := hsame hclosing
      simp only [Section.process, hmapping]
      exact ⟨rfl, rfl, rfl⟩
  | excluded hclosing hresult hexcluded hasides =>
      obtain ⟨rfl, rfl⟩ := hsame hclosing
      simp only [Section.process, hresult, Except.map, if_pos hexcluded]
      exact ⟨rfl, hasides.entries, hasides.ongoing.failure?⟩
  | kept hclosing hresult hkept hasides =>
      obtain ⟨rfl, rfl⟩ := hsame hclosing
      simp only [Section.process, hresult, Except.map, hkept]
      refine ⟨rfl, ?_, ?_⟩
      · rw [entries_append, hasides.entries]
        rfl
      · rw [failure?_append, hasides.ongoing.failure?]
        rfl
  | failed hclosing hresult hasides =>
      obtain ⟨rfl, rfl⟩ := hsame hclosing
      simp only [Section.process, hresult, Except.map]
      refine ⟨rfl, ?_, ?_⟩
      · rw [entries_append, hasides.entries]
        rfl
      · rw [failure?_append, hasides.ongoing.failure?]
        rfl

theorem follows_invocation {line directory : String} {kind : SectionKind} {rest : List String}
    {taken : Nat} {vs : List Visit} (h : Closing s line kind directory)
    (hrest : Follows q failure
      ⟨s.table.insertAll (Section.mapping? ⟨kind, directory, line⟩).toList, .between⟩ rest
      (taken + 1) vs) :
    Follows q failure s (line :: rest) taken (⟨taken, ⟨kind, directory, line⟩, s.table⟩ :: vs) := by
  have hrunning : s.phase ≠ .stopped := by simp [h.1]
  have hpulled := pulled_take q s line
  -- the line counts before what answers it, so its entry comes with the line taken
  have hanswer : run countStep taken (.pulled line :: (s.take q line).2) =
      (taken + 1, (Trace.entries (s.take q line).2).map (taken + 1, ·)) := by
    rw [run_cons]
    refine Prod.ext ?_ (counted_of_no_lines hpulled (taken + 1))
    exact (count_lines _ _).trans (by rw [hpulled]; rfl)
  have hfailure : Trace.failure? (.pulled line :: (s.take q line).2) =
      Trace.failure? (s.take q line).2 := rfl
  have htells := tells_take (q := q) h
  rw [Follows, eventsFrom_cons hrunning, run_append, hanswer, failure?_append, hfailure,
    List.takeWhile_cons, List.findSome?_cons, Visit.failure?]
  cases hprocess : Section.process q s.table ⟨kind, directory, line⟩ with
  | error f =>
      rw [hprocess] at htells
      obtain ⟨hstopped, hentries, hfails⟩ := htells
      -- the scan stops here, and the visits behind this one do not matter either
      rw [eventsFrom_stopped hstopped, hentries, hfails]
      exact ⟨rfl, rfl⟩
  | ok entry? =>
      rw [hprocess] at htells
      obtain ⟨hphase, hentries, hfails⟩ := htells
      -- the scan goes on between sections, with the table that the next visit finds
      have hnext : (s.take q line).1 =
          ⟨s.table.insertAll (Section.mapping? ⟨kind, directory, line⟩).toList, .between⟩ := by
        have htable : (s.take q line).1.table =
            s.table.insertAll (Section.mapping? ⟨kind, directory, line⟩).toList := by
          rw [take_table, h.outline]
          cases hmapping : Section.mapping? ⟨kind, directory, line⟩ <;> simp [hmapping]
        rw [← htable, ← hphase]
      obtain ⟨hcounted, hlater⟩ := hrest
      rw [hnext, hcounted, hlater, hentries, hfails]
      cases entry? with
      | none => simp [Visit.entry?, hprocess]
      | some entry => simp [Visit.entry?, hprocess]

end Follows

/-! ## A scan against the segments -/

def finished (lines : List String) (segments : List Segment) : List (Nat × Section) :=
  segments.filterMap (Segment.section? lines)

theorem isNoise_of_not_marker {line : String} (h : isMarker line = false) :
    isNoise line = true := by
  rw [isMarker, Option.isSome_eq_false_iff] at h
  exact h

/-- Over lines without a marker. -/
theorem silent_unmarked (q : Questions) (table : HeaderTable) {lines : List String}
    (h : ∀ line ∈ lines, isMarker line = false) :
    Silent q ⟨table, .between⟩ lines ⟨table, .between⟩ :=
  silent_of_outline (by simp)
    (outline_between fun line hline => isNoise_of_not_marker (h line hline))

/-- Over the marker of a section, and what stands before it. -/
theorem silent_marker (q : Questions) (table : HeaderTable) {lines : List String}
    {bound i : Nat} (h : firstFrom isMarker lines bound = some i) :
    ∃ front kind, lines.drop bound = front ++ lines.drop (i + 1) ∧
      bound + front.length = i + 1 ∧ lines[i]?.bind SectionKind.ofLine? = some kind ∧
      Silent q ⟨table, .between⟩ front ⟨table, .marked kind⟩ := by
  obtain ⟨noise, marker, hdrop, hlength, hnoise, hmarker, hopens⟩ := drop_of_firstFrom h
  obtain ⟨kind, hkind⟩ : ∃ kind, SectionKind.ofLine? marker = some kind :=
    Option.isSome_iff_exists.mp hopens
  refine ⟨noise ++ [marker], kind, ?_, ?_, ?_, ?_⟩
  · rw [hdrop, List.append_assoc]
    rfl
  · rw [List.length_append, List.length_singleton]
    omega
  · rw [hmarker]
    exact hkind
  · refine (silent_unmarked q table hnoise).trans (silent_of_quiet (by simp) ?_)
    simp [outlineStep, hkind]

/-- Over the marker and the directory line of a section, and what stands before them. -/
theorem silent_opening (q : Questions) (table : HeaderTable) {lines : List String}
    {bound i : Nat} {directoryLine : String} (h : firstFrom isMarker lines bound = some i)
    (hdirectory : lines[i + 1]? = some directoryLine) :
    ∃ front kind, lines.drop bound = front ++ lines.drop (i + 2) ∧
      bound + front.length = i + 2 ∧ lines[i]?.bind SectionKind.ofLine? = some kind ∧
      Silent q ⟨table, .between⟩ front
        ⟨table, if q.excludesDirectory (Command.directory directoryLine) then .between
          else .seeking kind (Command.directory directoryLine)⟩ := by
  obtain ⟨front, kind, hdrop, hlength, hkind, hmarked⟩ := silent_marker q table h
  refine ⟨front ++ [directoryLine], kind, ?_, ?_, hkind, hmarked.trans ?_⟩
  · rw [hdrop, List.drop_eq_getElem?_toList_append (i := i + 1), hdirectory, List.append_assoc]
    rfl
  · rw [List.length_append, List.length_singleton]
    omega
  · refine silent_of_quiet (by simp) ?_
    simp [outlineStep]

theorem follows_segments (q : Questions) (failure : Option Failure) (lines : List String)
    (bound : Nat) (table : HeaderTable) :
    Follows q failure ⟨table, .between⟩ (lines.drop bound) bound
      (visits table (finished lines (segmentsFrom q.excludesDirectory lines bound))) := by
  induction bound using segmentsFrom.induct q.excludesDirectory lines generalizing table with
  | case1 bound h =>
      have hsilent : Silent q ⟨table, .between⟩ (lines.drop bound) ⟨table, .between⟩ :=
        silent_unmarked q table (none_of_firstFrom h)
      rw [segmentsFrom_of_none h]
      exact hsilent.follows_end (by simp) bound
  | case2 bound i h hnone =>
      obtain ⟨front, kind, hdrop, -, -, hsilent⟩ := silent_marker q table h
      have hend : lines.drop (i + 1) = [] := by
        rw [List.drop_eq_nil_iff]
        exact List.getElem?_eq_none_iff.mp hnone
      rw [segmentsFrom_of_cut h hnone, hdrop, hend, List.append_nil]
      exact hsilent.follows_end (by simp) bound
  | case3 bound i h directoryLine hdirectory hexcluded ih =>
      obtain ⟨front, kind, hdrop, hlength, -, hsilent⟩ := silent_opening q table h hdirectory
      rw [if_pos hexcluded] at hsilent
      rw [segmentsFrom_of_excluded h hdirectory hexcluded, hdrop]
      refine hsilent.follows ?_
      rw [hlength]
      exact ih table
  | case4 bound i h directoryLine hdirectory hkept hopen =>
      obtain ⟨front, kind, hdrop, -, -, hsilent⟩ := silent_opening q table h hdirectory
      rw [if_neg hkept] at hsilent
      have hbody : Silent q ⟨table, .seeking kind (Command.directory directoryLine)⟩
          (lines.drop (i + 2)) ⟨table, .seeking kind (Command.directory directoryLine)⟩ :=
        silent_of_outline (by simp) (outline_seeking (none_of_firstFrom hopen))
      rw [segmentsFrom_of_open h hdirectory (by simpa using hkept) hopen, hdrop]
      exact (hsilent.trans hbody).follows_end (by simp) bound
  | case5 bound i h directoryLine hdirectory hkept j hfound ih =>
      obtain ⟨front, kind, hdrop, hlength, hkind, hsilent⟩ :=
        silent_opening q table h hdirectory
      obtain ⟨body, invocation, hrest, hbody, hother, hinvocation, hinvokes⟩ :=
        drop_of_firstFrom hfound
      rw [if_neg hkept] at hsilent
      have hseeking : Silent q ⟨table, .seeking kind (Command.directory directoryLine)⟩ body
          ⟨table, .seeking kind (Command.directory directoryLine)⟩ :=
        silent_of_outline (by simp) (outline_seeking hother)
      have hsection : sectionAt? lines i j =
          some ⟨kind, Command.directory directoryLine, invocation⟩ := by
        simp [sectionAt?, hkind, hdirectory, hinvocation]
      have hclosing : Closing ⟨table, .seeking kind (Command.directory directoryLine)⟩ invocation
          kind (Command.directory directoryLine) := ⟨rfl, hinvokes⟩
      rw [segmentsFrom_of_found h hdirectory (by simpa using hkept) hfound, hdrop, hrest]
      refine hsilent.follows (hseeking.follows ?_)
      -- the lines before the invocation are as many as its index says
      rw [hlength, hbody, finished, List.filterMap_cons, Segment.section?, hsection]
      exact follows_invocation hclosing (ih _)

/-! ## No line in two sections -/

theorem span_subset (excludes : String → Bool) (lines : List String) (bound : Nat) :
    ∀ s ∈ segmentsFrom excludes lines bound, s.span ⊆ Set.Ici bound := by
  induction bound using segmentsFrom.induct excludes lines with
  | case1 bound h => simp [segmentsFrom_of_none h]
  | case2 bound i h hnone =>
      have hi := (le_of_firstFrom h).1
      rw [segmentsFrom_of_cut h hnone]
      simpa [Segment.span] using hi
  | case3 bound i h directoryLine hdirectory hexcluded ih =>
      have hi := (le_of_firstFrom h).1
      rw [segmentsFrom_of_excluded h hdirectory hexcluded]
      intro s hs n hn
      rcases List.mem_cons.mp hs with rfl | hs
      · exact hi.trans hn.1
      · have hlater : i + 2 ≤ n := ih s hs hn
        show bound ≤ n
        omega
  | case4 bound i h directoryLine hdirectory hkept hopen =>
      have hi := (le_of_firstFrom h).1
      rw [segmentsFrom_of_open h hdirectory (by simpa using hkept) hopen]
      simpa [Segment.span] using hi
  | case5 bound i h directoryLine hdirectory hkept j hfound ih =>
      have hi := (le_of_firstFrom h).1
      have hj := (le_of_firstFrom hfound).1
      rw [segmentsFrom_of_found h hdirectory (by simpa using hkept) hfound]
      intro s hs n hn
      rcases List.mem_cons.mp hs with rfl | hs
      · exact hi.trans hn.1
      · have hlater : j + 1 ≤ n := ih s hs hn
        show bound ≤ n
        omega

/-- A section ends before the bound from which the later ones are sought. -/
theorem apart_later {s : Segment} {later : List Segment} {bound : Nat}
    (hs : s.span ⊆ Set.Iio bound) (hlater : ∀ t ∈ later, t.span ⊆ Set.Ici bound) :
    ∀ t ∈ later, s.Apart t := by
  intro t ht n hns hnt
  have hbefore : n < bound := hs hns
  have hbehind : bound ≤ n := hlater t ht hnt
  omega

theorem segments_apart (excludes : String → Bool) (lines : List String) (bound : Nat) :
    (segmentsFrom excludes lines bound).Pairwise Segment.Apart := by
  induction bound using segmentsFrom.induct excludes lines with
  | case1 bound h => simp [segmentsFrom_of_none h]
  | case2 bound i h hnone => simp [segmentsFrom_of_cut h hnone]
  | case3 bound i h directoryLine hdirectory hexcluded ih =>
      rw [segmentsFrom_of_excluded h hdirectory hexcluded, List.pairwise_cons]
      refine ⟨apart_later ?_ (span_subset excludes lines (i + 2)), ih⟩
      intro n hn
      exact Nat.lt_succ_of_le hn.2
  | case4 bound i h directoryLine hdirectory hkept hopen =>
      simp [segmentsFrom_of_open h hdirectory (by simpa using hkept) hopen]
  | case5 bound i h directoryLine hdirectory hkept j hfound ih =>
      rw [segmentsFrom_of_found h hdirectory (by simpa using hkept) hfound, List.pairwise_cons]
      refine ⟨apart_later ?_ (span_subset excludes lines (j + 1)), ih⟩
      intro n hn
      exact Nat.lt_succ_of_le hn.2

/-- **A scan finds the sections that the indices tell.** The sections of a log do not overlap. The
entries of a scan are those of the sections before the first that fails, in order; each comes when
its invocation is the last line taken, and from the table that the sections before have left. The
failure of a scan is that of the first section that fails, or where none does, that of the log. -/
theorem entries_of_segments (q : Questions) (known : HeaderTable) (log : Log) :
    let trace := Scan.trace q known log
    let segments := segmentsFrom q.excludesDirectory log.lines 0
    let vs := visits known (finished log.lines segments)
    segments.Pairwise Segment.Apart ∧
      Trace.pulled trace <+: log.lines ∧
      (countedEntries trace).map Prod.snd = Trace.entries trace ∧
      countedEntries trace =
        (vs.takeWhile fun v => (v.failure? q).isNone).filterMap (Visit.entry? q) ∧
      Trace.failure? trace = (vs.findSome? (Visit.failure? q)).or log.failure := by
  intro trace segments vs
  have hfollows : Follows q log.failure (start known) (log.lines.drop 0) 0 vs :=
    follows_segments q log.failure log.lines 0 known
  obtain ⟨hcounted, hfailure⟩ := hfollows
  refine ⟨segments_apart _ _ 0, ?_, counted_entries trace 0, hcounted, hfailure⟩
  rw [pulled_trace]
  exact pulled_initial q log.lines (start known)

end CompileCommands.Scan
