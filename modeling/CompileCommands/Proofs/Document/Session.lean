import CompileCommands.Proofs.Document
import Mathlib.Data.List.Induction

/-!
# Sessions with a writer

A writer may be called in any order, and the sink may refuse any of its writes. Whatever has been
called, what is stored is made of an opening bracket, the entries behind their separators, and the
end, and each piece is there exactly if the call that writes it has returned (`Consistent`). A
closed database that has its opening bracket is JSON text of the entries that have been added; one
without it is no JSON text at all (`stored_of_session`).

One call can open, add, close or fail, and no failure stores anything (`Served`); the rest is an
induction on the calls.
-/

namespace CompileCommands.Document

open Transducer

/-! ## Calls -/

/-- A request, and the chunk that it has stored or the failure that it has come to. -/
structure Call where
  request : Request
  outcome : Except Failure String

namespace Call

def added? (c : Call) : Option Entry :=
  match c.request, c.outcome with
  | .add entry, .ok _ => some entry
  | _, _ => none

def hasOpened (c : Call) : Bool :=
  match c.request, c.outcome with
  | .openDocument, .ok _ => true
  | _, _ => false

def hasClosed (c : Call) : Bool :=
  match c.request, c.outcome with
  | .closeDocument, .ok _ => true
  | _, _ => false

end Call

def writerAfter (refuses : Nat → Bool) (requests : List Request) : Writer :=
  (run (Writer.step refuses) .start requests).1

/-- The calls that some requests make of a new writer. -/
def calls (refuses : Nat → Bool) (requests : List Request) : List Call :=
  List.zipWith Call.mk requests (run (Writer.step refuses) .start requests).2

def stored (cs : List Call) : List String := cs.filterMap (·.outcome.toOption)

def added (cs : List Call) : List Entry := cs.filterMap Call.added?

def opened (cs : List Call) : Bool := cs.any Call.hasOpened

def closed (cs : List Call) : Bool := cs.any Call.hasClosed

theorem stored_append (front back : List Call) :
    stored (front ++ back) = stored front ++ stored back :=
  List.filterMap_append

theorem stored_concat (cs : List Call) (c : Call) :
    stored (cs ++ [c]) = stored cs ++ c.outcome.toOption.toList := by
  rw [stored_append]
  cases h : c.outcome.toOption <;> simp [stored, h]

theorem added_concat (cs : List Call) (c : Call) :
    added (cs ++ [c]) = added cs ++ c.added?.toList := by
  rw [added, added, List.filterMap_append]
  cases h : c.added? <;> simp [h]

theorem opened_concat (cs : List Call) (c : Call) :
    opened (cs ++ [c]) = (opened cs || c.hasOpened) := by
  simp [opened]

theorem closed_concat (cs : List Call) (c : Call) :
    closed (cs ++ [c]) = (closed cs || c.hasClosed) := by
  simp [closed]

theorem length_outcomes (refuses : Nat → Bool) (requests : List Request) (w : Writer) :
    (run (Writer.step refuses) w requests).2.length = requests.length := by
  induction requests generalizing w with
  | nil => rfl
  | cons r requests ih =>
      rw [run_cons, List.length_append, ih, List.length_cons]
      exact Nat.add_comm 1 requests.length

theorem writerAfter_concat (refuses : Nat → Bool) (requests : List Request) (r : Request) :
    writerAfter refuses (requests ++ [r]) =
      ((writerAfter refuses requests).serve refuses r).1 := by
  rw [writerAfter, run_concat]
  rfl

theorem calls_concat (refuses : Nat → Bool) (requests : List Request) (r : Request) :
    calls refuses (requests ++ [r]) =
      calls refuses requests ++ [⟨r, ((writerAfter refuses requests).serve refuses r).2⟩] := by
  rw [calls, run_concat, List.zipWith_append (length_outcomes refuses requests .start).symm]
  rfl

/-! ## What one call can do -/

inductive Served (w : Writer) : Request → Writer × Except Failure String → Prop
  | opened (hphase : w.phase = .fresh) :
      Served w .openDocument (⟨.opened, w.entries, w.writes + 1⟩, .ok "[")
  | added (entry : Entry) (hphase : w.phase = .opened) :
      Served w (.add entry) (⟨.opened, w.entries + 1, w.writes + 1⟩,
        .ok (separator w.entries ++ entry.render))
  | closed (hphase : w.phase = .opened) :
      Served w .closeDocument (⟨.closed, w.entries, w.writes + 1⟩, .ok "\n]\n")
  /-- A call that fails may still leave the fresh phase, or close. -/
  | failed {r : Request} {next : Writer} {failure : Failure} (hentries : next.entries = w.entries)
      (hfresh : next.phase = .fresh → w.phase = .fresh)
      (hclosed : w.phase = .closed → next.phase = .closed) : Served w r (next, .error failure)

/-- A request that the phase does not allow changes nothing. -/
theorem Served.refused (w : Writer) (r : Request) (failure : Failure) :
    Served w r (w, .error failure) :=
  .failed rfl id id

theorem serve_served (refuses : Nat → Bool) (w : Writer) (r : Request) :
    Served w r (w.serve refuses r) := by
  cases r with
  | openDocument =>
      by_cases hphase : w.phase = .fresh
      · rw [Writer.serve, if_pos hphase, Writer.put]
        cases refuses w.writes with
        | true => exact .failed rfl (fun _ => hphase) (by simp [hphase])
        | false => exact .opened hphase
      · rw [Writer.serve, if_neg hphase]
        exact .refused w _ _
  | add entry =>
      by_cases hphase : w.phase = .opened
      · rw [Writer.serve, if_pos hphase, Writer.put]
        cases refuses w.writes with
        | true => exact .failed rfl id id
        | false =>
            rw [hphase]
            exact .added entry hphase
      · rw [Writer.serve, if_neg hphase]
        exact .refused w _ _
  | closeDocument =>
      by_cases hphase : w.phase = .opened
      · rw [Writer.serve, if_pos hphase, Writer.put]
        cases refuses w.writes with
        | true => exact .failed rfl (by simp) (by simp)
        | false => exact .closed hphase
      · rw [Writer.serve, if_neg hphase]
        exact .refused w _ _

/-! ## What any session keeps -/

/-- How a writer and what it has stored hang together with the calls made of it. -/
structure Consistent (w : Writer) (cs : List Call) : Prop where
  entries : w.entries = (added cs).length
  stored : stored cs = (if opened cs then ["["] else []) ++ separated (added cs) ++
    (if closed cs then ["\n]\n"] else [])
  fresh : w.phase = .fresh → opened cs = false ∧ added cs = []
  closed : closed cs = true → w.phase = .closed

namespace Consistent

variable {w : Writer} {cs : List Call}

theorem start : Consistent .start [] :=
  ⟨rfl, rfl, fun _ => ⟨rfl, rfl⟩, by simp [Document.closed]⟩

/-- A writer that is not in its closed phase has written no end. -/
theorem unended (h : Consistent w cs) (hphase : w.phase ≠ .closed) :
    Document.closed cs = false := by
  rw [Bool.eq_false_iff]
  exact fun hclosed => hphase (h.closed hclosed)

theorem serve (h : Consistent w cs) {r : Request} {result : Writer × Except Failure String}
    (hserved : Served w r result) : Consistent result.1 (cs ++ [⟨r, result.2⟩]) := by
  cases hserved with
  | opened hphase =>
      obtain ⟨hunopened, hnone⟩ := h.fresh hphase
      have hunended := h.unended (by simp [hphase])
      -- before the first `open` nothing can have been stored, so the bracket comes first
      have hnothing : Document.stored cs = [] := by
        rw [h.stored, hunopened, hnone, hunended]
        rfl
      refine ⟨?_, ?_, ?_, ?_⟩
      · simp [added_concat, Call.added?, h.entries]
      · rw [stored_concat, opened_concat, closed_concat, added_concat, hnothing, hnone,
          hunended]
        simp [Call.hasOpened, Call.hasClosed, Call.added?, Except.toOption, separated]
      · intro hfresh
        cases hfresh
      · intro hclosed
        rw [closed_concat, hunended] at hclosed
        cases hclosed
  | added entry hphase =>
      have hunended := h.unended (by simp [hphase])
      refine ⟨?_, ?_, ?_, ?_⟩
      · simp [added_concat, Call.added?, h.entries]
      · rw [stored_concat, opened_concat, closed_concat, added_concat, h.stored, hunended]
        simp [Call.hasOpened, Call.hasClosed, Call.added?, Except.toOption, separated_concat,
          h.entries]
      · intro hfresh
        cases hfresh
      · intro hclosed
        rw [closed_concat, hunended] at hclosed
        cases hclosed
  | closed hphase =>
      have hunended := h.unended (by simp [hphase])
      refine ⟨?_, ?_, ?_, fun _ => rfl⟩
      · simp [added_concat, Call.added?, h.entries]
      · rw [stored_concat, opened_concat, closed_concat, added_concat, h.stored, hunended]
        simp [Call.hasOpened, Call.hasClosed, Call.added?, Except.toOption]
      · intro hfresh
        cases hfresh
  | @failed r next failure hentries hfresh hclosed =>
      -- a call that fails leaves every view of the calls as it was
      have hstored : Document.stored (cs ++ [⟨r, .error failure⟩]) = Document.stored cs := by
        simp [stored_concat, Except.toOption]
      have hadded : added (cs ++ [⟨r, .error failure⟩]) = added cs := by
        simp [added_concat, Call.added?]
      have hopened : opened (cs ++ [⟨r, .error failure⟩]) = opened cs := by
        simp [opened_concat, Call.hasOpened]
      have hended : Document.closed (cs ++ [⟨r, .error failure⟩]) = Document.closed cs := by
        simp [closed_concat, Call.hasClosed]
      refine ⟨?_, ?_, ?_, ?_⟩
      · rw [hadded, hentries, h.entries]
      · rw [hstored, hadded, hopened, hended, h.stored]
      · rw [hadded, hopened]
        exact fun hphase => h.fresh (hfresh hphase)
      · rw [hended]
        exact fun hphase => hclosed (h.closed hphase)

end Consistent

theorem consistent_session (refuses : Nat → Bool) (requests : List Request) :
    Consistent (writerAfter refuses requests) (calls refuses requests) := by
  induction requests using List.reverseRecOn with
  | nil => exact .start
  | append_singleton requests r ih =>
      rw [writerAfter_concat, calls_concat]
      exact ih.serve (serve_served refuses _ r)

/-! ## Which calls return -/

theorem phase_serve (refuses : Nat → Bool) (w : Writer) (r : Request) :
    (w.serve refuses r).1.phase =
      match r, w.phase with
      | .openDocument, .fresh => .opened
      | .closeDocument, .opened => .closed
      | _, phase => phase := by
  cases r with
  | openDocument => cases hphase : w.phase <;> simp [Writer.serve, Writer.put, hphase]
  | closeDocument => cases hphase : w.phase <;> simp [Writer.serve, Writer.put, hphase]
  | add entry =>
      cases hphase : w.phase <;> cases hrefuses : refuses w.writes <;>
        simp [Writer.serve, Writer.put, hphase, hrefuses]

theorem pair_sublist_concat {α : Type} {a b x : α} {xs : List α} :
    [a, b].Sublist (xs ++ [x]) ↔ [a, b].Sublist xs ∨ x = b ∧ a ∈ xs := by
  constructor
  · intro h
    obtain ⟨front, back, hpair, hfront, hback⟩ := List.sublist_append_iff.mp h
    rcases List.sublist_singleton.mp hback with rfl | rfl
    · rw [List.append_nil] at hpair
      exact Or.inl (hpair ▸ hfront)
    · have hcut : [a] ++ [b] = front ++ [x] := hpair
      obtain ⟨rfl, hlast⟩ := List.append_inj' hcut rfl
      cases hlast
      exact Or.inr ⟨rfl, List.singleton_sublist.mp hfront⟩
  · rintro (h | ⟨rfl, h⟩)
    · exact h.trans (List.sublist_append_left xs [x])
    · exact (List.singleton_sublist.mpr h).append (List.Sublist.refl [x])

/-- The phase hangs on the requests alone, whatever the sink refuses. -/
theorem phase_writerAfter (refuses : Nat → Bool) (requests : List Request) :
    ((writerAfter refuses requests).phase = .fresh ↔ .openDocument ∉ requests) ∧
      ((writerAfter refuses requests).phase = .closed ↔
        [.openDocument, .closeDocument].Sublist requests) := by
  induction requests using List.reverseRecOn with
  | nil => simp [writerAfter, Writer.start]
  | append_singleton requests r ih =>
      obtain ⟨hfresh, hclosed⟩ := ih
      rw [writerAfter_concat, phase_serve, pair_sublist_concat, ← hclosed]
      have hopen : .openDocument ∈ requests ↔ (writerAfter refuses requests).phase ≠ .fresh :=
        (not_iff_comm.mp hfresh.symm).symm
      rw [hopen]
      cases r <;> cases hphase : (writerAfter refuses requests).phase <;>
        simp [← hfresh, hphase]

/-- Opening returns the first time it is asked for, adding and closing while the database is open,
each if its write is not refused. -/
theorem returns_iff (refuses : Nat → Bool) (requests : List Request) (r : Request) :
    let w := writerAfter refuses requests
    (∃ chunk, (w.serve refuses r).2 = .ok chunk) ↔
      refuses w.writes = false ∧
        match r with
        | .openDocument => .openDocument ∉ requests
        | _ => .openDocument ∈ requests ∧ ¬ [.openDocument, .closeDocument].Sublist requests := by
  intro w
  obtain ⟨hfresh, hclosed⟩ := phase_writerAfter refuses requests
  have hopen : .openDocument ∈ requests ↔ w.phase ≠ .fresh := (not_iff_comm.mp hfresh.symm).symm
  rw [hopen, ← hclosed]
  cases r <;> cases hphase : w.phase <;> cases hrefuses : refuses w.writes <;>
    simp [Writer.serve, Writer.put, hphase, hrefuses]

/-! ## Behind the end -/

theorem Served.of_closed {w : Writer} (hphase : w.phase = .closed) {r : Request}
    {result : Writer × Except Failure String} (h : Served w r result) :
    result.1.phase = .closed ∧ result.2.toOption = none := by
  cases h with
  | failed _ _ hclosed => exact ⟨hclosed hphase, rfl⟩
  | opened hother => exact absurd (hphase.symm.trans hother) (by simp)
  | added _ hother => exact absurd (hphase.symm.trans hother) (by simp)
  | closed hother => exact absurd (hphase.symm.trans hother) (by simp)

/-- A closed writer stays closed, and stores nothing more. -/
theorem stored_behind_end {refuses : Nat → Bool} {requests : List Request}
    (h : (writerAfter refuses requests).phase = .closed) (later : List Request) :
    stored (calls refuses (requests ++ later)) = stored (calls refuses requests) ∧
      (writerAfter refuses (requests ++ later)).phase = .closed := by
  induction later using List.reverseRecOn with
  | nil =>
      rw [List.append_nil]
      exact ⟨rfl, h⟩
  | append_singleton later r ih =>
      obtain ⟨hstored, hclosed⟩ := ih
      obtain ⟨hnext, hnone⟩ := (serve_served refuses _ r).of_closed hclosed
      rw [← List.append_assoc, calls_concat, writerAfter_concat, stored_concat, hstored, hnone]
      exact ⟨List.append_nil _, hnext⟩

/-! ## A database without its bracket -/

theorem toList_unopened (e : Entry) (es : List Entry) :
    (String.join (separated (e :: es) ++ ["\n]\n"])).toList =
      '\n' :: (e.render.toList ++ (Json.laterEntries es ++ ['\n', ']', '\n'])) := by
  rw [separated_cons, String.toList_join]
  simp [Json.laterEntries, List.flatMap_map]

/-- Without the opening bracket the first entry is a whole value, and the rest stands behind it. -/
theorem parse_unopened (es : List Entry) :
    Json.parse (String.join (separated es ++ ["\n]\n"])) = none := by
  cases es with
  | nil => rfl
  | cons e es =>
      have htext := toList_unopened e es
      cases es with
      | nil =>
          have hitem : Json.Writes (.item e.toJson) (['\n'] ++ (e.render.toList ++ ['\n'])) :=
            .item (by decide) (by decide) (Json.writes_render e)
          have hbehind : (String.join (separated [e] ++ ["\n]\n"])).toList =
              ['\n'] ++ (e.render.toList ++ ['\n']) ++ [']', '\n'] := by
            simpa [Json.laterEntries] using htext
          exact Json.parse_eq_none_of_behind hbehind hitem (by simp [Json.Ends]) rfl (by simp)
      | cons next es =>
          have hitem : Json.Writes (.item e.toJson) (['\n'] ++ (e.render.toList ++ [])) :=
            .item (by decide) (by decide) (Json.writes_render e)
          have hbehind : (String.join (separated (e :: next :: es) ++ ["\n]\n"])).toList =
              ['\n'] ++ (e.render.toList ++ []) ++ ',' :: '\n' :: (next.render.toList ++
                (Json.laterEntries es ++ ['\n', ']', '\n'])) := by
            simpa [Json.laterEntries] using htext
          exact Json.parse_eq_none_of_behind hbehind hitem (by simp [Json.Ends])
            (Json.skip_cons_of_not rfl _) (by simp)

/-! ## Sessions -/

/-- **Sessions with a writer.** In whatever order a writer is called, and whichever writes its sink
refuses, a call that fails stores nothing, and the writer counts the `add` calls that have returned.
If `open` has stored its bracket, the text is the bracket, the entries of these calls behind their
separators, and the end if a `close` has returned; behind that end nothing is stored. Once closed,
the text is JSON text of the entries exactly if `open` has stored its bracket. -/
theorem stored_of_session (refuses : Nat → Bool) (requests : List Request) :
    let w := writerAfter refuses requests
    let cs := calls refuses requests
    (∀ r failure, (w.serve refuses r).2 = .error failure →
        stored (calls refuses (requests ++ [r])) = stored cs) ∧
      w.entries = (added cs).length ∧
      (opened cs = true →
        stored cs = "[" :: separated (added cs) ++ if closed cs then ["\n]\n"] else []) ∧
      (closed cs = true → ∀ later, stored (calls refuses (requests ++ later)) = stored cs) ∧
      (closed cs = true →
        (Json.parse (String.join (stored cs)) = some (.array ((added cs).map Entry.toJson)) ↔
          opened cs = true)) := by
  intro w cs
  have hconsistent : Consistent w cs := consistent_session refuses requests
  refine ⟨?_, hconsistent.entries, ?_, ?_, ?_⟩
  · intro r failure hfailure
    rw [calls_concat, stored_concat, hfailure]
    exact List.append_nil _
  · intro hopened
    rw [hconsistent.stored, hopened]
    rfl
  · intro hclosed later
    exact (stored_behind_end (hconsistent.closed hclosed) later).1
  · intro hclosed
    rw [hconsistent.stored, hclosed]
    cases hopened : opened cs with
    | true =>
        have htext : (if true = true then ["["] else []) ++ separated (added cs) ++
            (if true = true then ["\n]\n"] else []) = finished (added cs) := rfl
        rw [htext, parse_finished]
        simp
    | false =>
        have htext : (if false = true then ["["] else []) ++ separated (added cs) ++
            (if true = true then ["\n]\n"] else []) = separated (added cs) ++ ["\n]\n"] := rfl
        rw [htext, parse_unopened]
        simp

/-- An entry that is added again after its first write has been refused. -/
theorem session_with_retry :
    let entry : Entry := ⟨"/p", "cc -c a.c -o a.o", "a.c"⟩
    let requests : List Request := [.openDocument, .add entry, .add entry, .closeDocument]
    let refuses : Nat → Bool := fun n => n = 1
    let cs := calls refuses requests
    ((writerAfter refuses (requests.take 1)).serve refuses (.add entry)).2 = .error .sinkFailed ∧
      stored cs = ["[", "\n" ++ entry.render, "\n]\n"] ∧
      Json.parse (String.join (stored cs)) = some (.array [entry.toJson]) := by
  intro entry requests refuses cs
  obtain ⟨-, -, hstored, -, hparse⟩ := stored_of_session refuses requests
  have hadded : added cs = [entry] := by decide +kernel
  have hopened : opened cs = true := by decide +kernel
  have hclosed : closed cs = true := by decide +kernel
  have hall := hstored hopened
  rw [show closed (calls refuses requests) = true from hclosed,
    show added (calls refuses requests) = [entry] from hadded] at hall
  have htext := (hparse hclosed).mpr hopened
  rw [show added (calls refuses requests) = [entry] from hadded] at htext
  exact ⟨by decide +kernel, hall, htext⟩

end CompileCommands.Document
