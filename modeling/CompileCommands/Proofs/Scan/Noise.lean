import CompileCommands.Proofs.Scan.Joined
import Mathlib.Logic.Relation

/-!
# Noise

A line that is neither a marker nor an invocation means nothing to a scan, wherever it stands, but
in one place: right behind a marker any line is read as the directory line. In every other place a
scan that takes such a line is where it was before (`take_filler`), so putting the line into a log
changes nothing that the scan does besides taking lines (`deeds_insert`). Whether a line of the log
is taken as a marker hangs on the lines before it: one in the body of a section is not
(`TakesMarker`).
-/

namespace CompileCommands.Scan

open Transducer

/-- The line neither opens a section nor is an invocation. -/
def IsFiller (line : String) : Prop :=
  SectionKind.ofLine? line = none ∧ Command.isInvocation line = false

/-- The scan takes the line with this index as the marker of a section: it comes to the line with no
section open, and the line is a marker. -/
def TakesMarker (q : Questions) (known : HeaderTable) (log : Log) (i : Nat) : Prop :=
  i < (Trace.pulled (trace q known log)).length ∧ HoldsAt isMarker log.lines i ∧
    NoneOpen q.excludesDirectory (log.lines.take i)

/-- A filler line is put into a log, but not right behind a line that the scan takes as the marker of
a section. -/
inductive Inserts (q : Questions) (known : HeaderTable) (failure : Option Failure) :
    List String → List String → Prop
  | filler (front back : List String) (line : String) (hline : IsFiller line)
      (hplace : ∀ i, i + 1 = front.length → ¬ TakesMarker q known ⟨front ++ back, failure⟩ i) :
      Inserts q known failure (front ++ back) (front ++ line :: back)

/-- What a scan does besides taking lines. -/
def deeds (events : List Event) : List Event := events.filter fun e => e.pulled?.isNone

theorem deeds_append (front back : List Event) :
    deeds (front ++ back) = deeds front ++ deeds back :=
  List.filter_append ..

/-! ## The place of a marker -/

/-- A scan that waits for a directory line has taken the line before as a marker. -/
theorem takesMarker_of_marked (q : Questions) {known : HeaderTable} {front : List String}
    {kind : SectionKind} (h : (run (step q) (start known) front).1.phase = .marked kind)
    (back : List String) (failure : Option Failure) :
    ∃ i, i + 1 = front.length ∧ TakesMarker q known ⟨front ++ back, failure⟩ i := by
  have hrunning : (run (step q) (start known) front).1.phase ≠ .stopped := by
    rw [h]
    simp
  obtain ⟨read, marker, rfl, hbetween, hkind⟩ :=
    exists_marker ((phase_of_running q hrunning).symm.trans h)
  have hmarker : isMarker marker = true := by rw [isMarker, hkind, Option.isSome_some]
  refine ⟨read.length, by simp, ?_, ⟨marker, by simp, hmarker⟩, ?_⟩
  · -- the marker is taken, whatever the scan comes to behind it
    have hpulled := pulled_of_running q hrunning
    rw [pulled_trace, run_append, pulled_append, hpulled, List.length_append, List.length_append,
      List.length_singleton]
    omega
  · apply outline_between_iff.mp
    simpa using hbetween

/-! ## One line -/

variable (q : Questions)

theorem take_filler {s : Scan} {line : String} (hline : IsFiller line)
    (hphase : ∀ kind, s.phase ≠ .marked kind) : s.take q line = (s, []) := by
  obtain ⟨table, phase⟩ := s
  cases phase with
  | between => simp [take, hline.1]
  | marked kind => exact absurd rfl (hphase kind)
  | seeking kind directory => simp [take, hline.2]
  | stopped => rfl

theorem step_filler {s : Scan} {line : String} (hline : IsFiller line)
    (hphase : ∀ kind, s.phase ≠ .marked kind) :
    (step q s line).1 = s ∧ deeds (step q s line).2 = [] := by
  by_cases hstopped : s.phase = .stopped
  · rw [step_of_stopped hstopped]
    exact ⟨rfl, rfl⟩
  · rw [step_of_running hstopped, take_filler q hline hphase]
    exact ⟨rfl, rfl⟩

variable {q} {known : HeaderTable} {failure : Option Failure}

theorem deeds_insert {lines lines' : List String} (h : Inserts q known failure lines lines') :
    deeds (trace q known ⟨lines', failure⟩) = deeds (trace q known ⟨lines, failure⟩) := by
  obtain ⟨front, back, line, hline, hplace⟩ := h
  have hphase : ∀ kind, (run (step q) (start known) front).1.phase ≠ .marked kind := by
    intro kind hmarked
    obtain ⟨i, hi, htakes⟩ := takesMarker_of_marked q hmarked back failure
    exact hplace i hi htakes
  obtain ⟨hstate, hdeeds⟩ := step_filler q hline hphase
  rw [trace_append q known front ⟨line :: back, failure⟩, trace_append q known front ⟨back, failure⟩,
    deeds_append, deeds_append, eventsFrom, eventsFrom, run_cons, hstate, List.append_assoc,
    deeds_append, hdeeds, List.nil_append]

/-! ## Any number of lines -/

theorem deeds_filterMap {β : Type} {view : Event → Option β}
    (h : ∀ line, view (.pulled line) = none) (events : List Event) :
    (deeds events).filterMap view = events.filterMap view := by
  apply filterMap_filter_of_unseen
  intro e he
  cases e with
  | pulled line => exact h line
  | _ => cases he

theorem deeds_of_noise {lines lines' : List String}
    (h : Relation.ReflTransGen (Inserts q known failure) lines lines') :
    deeds (trace q known ⟨lines', failure⟩) = deeds (trace q known ⟨lines, failure⟩) := by
  induction h with
  | refl => rfl
  | tail _ hinserts ih => rw [deeds_insert hinserts, ih]

theorem getLast?_deeds (q : Questions) (known : HeaderTable) (log : Log) :
    (deeds (trace q known log)).getLast? = (trace q known log).getLast? := by
  apply getLast?_filter_trace
  intro e he
  cases e with
  | pulled line => cases he
  | _ => rfl

/-- **Noise is invisible.** However many lines that are neither markers nor invocations are put into
a log, one after the other, none of them right behind a line that the scan takes as the marker of a
section: but for the lines that it takes, the scan does just what it did without them. -/
theorem noise_is_invisible (q : Questions) (known : HeaderTable) (failure : Option Failure)
    (lines lines' : List String)
    (h : Relation.ReflTransGen (Inserts q known failure) lines lines') :
    let trace := Scan.trace q known ⟨lines, failure⟩
    let trace' := Scan.trace q known ⟨lines', failure⟩
    deeds trace' = deeds trace ∧
      Trace.entries trace' = Trace.entries trace ∧ Trace.messages trace' = Trace.messages trace ∧
      trace'.filterMap Event.askedExists? = trace.filterMap Event.askedExists? ∧
      trace'.filterMap Event.askedDirectory? = trace.filterMap Event.askedDirectory? ∧
      trace'.filterMap Event.askedFile? = trace.filterMap Event.askedFile? ∧
      Trace.tableAfter known trace' = Trace.tableAfter known trace ∧
      trace'.getLast? = trace.getLast? ∧ Trace.failure? trace' = Trace.failure? trace := by
  intro trace trace'
  have hdeeds : deeds trace' = deeds trace := deeds_of_noise h
  have hview : ∀ {β : Type} {view : Event → Option β}, (∀ line, view (.pulled line) = none) →
      trace'.filterMap view = trace.filterMap view := by
    intro β view hunseen
    rw [← deeds_filterMap hunseen trace', hdeeds, deeds_filterMap hunseen]
  refine ⟨hdeeds, hview fun _ => rfl, hview fun _ => rfl, hview fun _ => rfl, hview fun _ => rfl,
    hview fun _ => rfl, congrArg known.insertAll (hview fun _ => rfl), ?_, ?_⟩
  · rw [← getLast?_deeds, ← getLast?_deeds, ← hdeeds]
  · rw [failure?_eq_head?, failure?_eq_head?, hview fun _ => rfl]

/-- A line is put in behind a marker that stands in the body of a section, and one at the end. -/
theorem noise_behind_swallowed_marker :
    let q : Questions := ⟨fun _ => false, fun _ => false, fun _ => false⟩
    let lines := ["CompileC a.o", "cd /w", "CompileC b.o", "cc -c a.c -o a.o"]
    let lines' := ["CompileC a.o", "cd /w", "CompileC b.o", "note", "cc -c a.c -o a.o", ""]
    let trace := Scan.trace q .empty ⟨lines, none⟩
    let trace' := Scan.trace q .empty ⟨lines', none⟩
    Relation.ReflTransGen (Inserts q .empty none) lines lines' ∧
      Trace.entries trace = [⟨"/w", "cc -c a.c -o a.o", "a.c"⟩] ∧ deeds trace' = deeds trace := by
  intro q lines lines' trace trace'
  have hopen : ¬ NoneOpen q.excludesDirectory ["CompileC a.o", "cd /w"] := by
    rw [← outline_between_iff]
    decide +kernel
  have hbody : Inserts q .empty none lines
      ["CompileC a.o", "cd /w", "CompileC b.o", "note", "cc -c a.c -o a.o"] := by
    apply Inserts.filler ["CompileC a.o", "cd /w", "CompileC b.o"] ["cc -c a.c -o a.o"] "note"
    · exact ⟨by decide +kernel, by decide +kernel⟩
    · rintro i hi ⟨-, -, hnone⟩
      obtain rfl : i = 2 := by simpa using hi
      exact hopen hnone
  have hend : Inserts q .empty none
      ["CompileC a.o", "cd /w", "CompileC b.o", "note", "cc -c a.c -o a.o"] lines' := by
    apply Inserts.filler ["CompileC a.o", "cd /w", "CompileC b.o", "note", "cc -c a.c -o a.o"] [] ""
    · exact ⟨by decide +kernel, by decide +kernel⟩
    · rintro i hi ⟨-, ⟨line, hline, hmarker⟩, -⟩
      obtain rfl : i = 4 := by simpa using hi
      obtain rfl : "cc -c a.c -o a.o" = line := by simpa using hline
      exact absurd hmarker (by decide +kernel)
  have hnoise := Relation.ReflTransGen.tail (.single hbody) hend
  exact ⟨hnoise, by decide +kernel, (noise_is_invisible q .empty none lines lines' hnoise).1⟩

end CompileCommands.Scan
