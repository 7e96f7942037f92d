import CompileCommands.Proofs.Log
import Mathlib.Logic.ExistsUnique

/-!
# Lines and the breaks between them

A text is cut into its lines in one way only (`Division`): no line has a character of a break in it,
and a carriage return with a line feed right behind it is one break with that, never a break of its
own. The lines of a text are the lines of its division, with the unended text at the end if there is
any. So how lines are ended makes no difference to them, and texts put behind each other have their
lines one behind the other, unless a break is cut in two between them (`lines_by_breaks`).
-/

namespace CompileCommands.Log

open Text Transducer

def StartsWith (c : Char) (text : String) : Prop := text.toList.head? = some c

def EndsWith (c : Char) (text : String) : Prop := text.toList.getLast? = some c

/-- Lines with the breaks behind them, and a text behind the last break. -/
def joined (ended : List (String × Break)) (rest : String) : String :=
  match ended with
  | [] => rest
  | (line, b) :: ended => line ++ b.text ++ joined ended rest

/-- Lines and breaks that can be told apart again in the text they make. -/
structure IsDivision (ended : List (String × Break)) (rest : String) : Prop where
  unbroken : ∀ p ∈ ended, IsUnbroken p.1
  unbroken_rest : IsUnbroken rest
  apart : ∀ front line back, ended = front ++ (line, Break.carriageReturn) :: back →
    ¬ StartsWith '\n' (joined back rest)

/-- A text cut at its breaks. -/
@[ext] structure Division where
  ended : List (String × Break)
  rest : String
  isDivision : IsDivision ended rest

def Division.text (d : Division) : String := joined d.ended d.rest

/-- Every break of two characters, and every carriage return, replaced by a line feed. -/
def lineFeedsOnly : List Char → List Char
  | [] => []
  | '\r' :: '\n' :: cs => '\n' :: lineFeedsOnly cs
  | '\r' :: cs => '\n' :: lineFeedsOnly cs
  | c :: cs => c :: lineFeedsOnly cs

def withLineFeeds (text : String) : String := String.ofList (lineFeedsOnly text.toList)

def endedBy (b : Break) (ls : List String) : String := String.join (ls.map (· ++ b.text))

variable {ended : List (String × Break)} {rest line : String} {b : Break}

/-! ## Divisions line by line -/

theorem IsDivision.nil (h : IsUnbroken rest) : IsDivision [] rest := by
  refine ⟨by simp, h, ?_⟩
  intro front line back hsplit
  simp at hsplit

theorem IsDivision.cons (hline : IsUnbroken line)
    (hfirst : b = .carriageReturn → ¬ StartsWith '\n' (joined ended rest))
    (h : IsDivision ended rest) : IsDivision ((line, b) :: ended) rest := by
  refine ⟨?_, h.unbroken_rest, ?_⟩
  · intro p hp
    rcases List.mem_cons.mp hp with rfl | hp
    · exact hline
    · exact h.unbroken p hp
  · intro front later back hsplit
    cases front with
    | nil =>
        obtain ⟨hhead, rfl⟩ := List.cons.inj hsplit
        exact hfirst (Prod.mk.inj hhead).2
    | cons p front => exact h.apart front later back (List.cons.inj hsplit).2

theorem IsDivision.uncons (h : IsDivision ((line, b) :: ended) rest) :
    IsUnbroken line ∧ (b = .carriageReturn → ¬ StartsWith '\n' (joined ended rest)) ∧
      IsDivision ended rest := by
  refine ⟨h.unbroken _ List.mem_cons_self, ?_, ?_, h.unbroken_rest, ?_⟩
  · rintro rfl
    exact h.apart [] line ended rfl
  · exact fun p hp => h.unbroken p (List.mem_cons_of_mem _ hp)
  · intro front later back hsplit
    exact h.apart ((line, b) :: front) later back (by rw [hsplit, List.cons_append])

theorem toList_joined_cons :
    (joined ((line, b) :: ended) rest).toList =
      line.toList ++ (b.text.toList ++ (joined ended rest).toList) := by
  rw [joined, String.toList_append, String.toList_append, List.append_assoc]

def isBreakChar (c : Char) : Bool := c = '\r' || c = '\n'

theorem not_isBreakChar (h : IsUnbroken line) : ∀ c ∈ line.toList, (!isBreakChar c) = true := by
  intro c hc
  have hreturn : c ≠ '\r' := fun e => h.1 (e ▸ hc)
  have hfeed : c ≠ '\n' := fun e => h.2 (e ▸ hc)
  simp [isBreakChar, hreturn, hfeed]

theorem Break.head_isBreakChar (b : Break) (cs : List Char) :
    ∀ c ∈ (b.text.toList ++ cs).head?, (!isBreakChar c) = false := by
  intro c hc
  cases b <;> obtain rfl := Option.some.inj hc <;> rfl

/-- Only an empty line ended by a line feed begins with one. -/
theorem exists_of_startsWith (h : IsDivision ended rest)
    (hfeed : StartsWith '\n' (joined ended rest)) : ∃ later, ended = ("", .lineFeed) :: later := by
  cases ended with
  | nil =>
      exact absurd (List.mem_of_mem_head? hfeed) h.unbroken_rest.2
  | cons p later =>
      obtain ⟨line, b⟩ := p
      obtain ⟨hline, -, -⟩ := h.uncons
      rw [StartsWith, toList_joined_cons] at hfeed
      cases hchars : line.toList with
      | nil =>
          obtain rfl : line = "" := String.toList_eq_nil_iff.mp hchars
          cases b with
          | lineFeed => exact ⟨later, rfl⟩
          | returnFeed => cases hfeed
          | carriageReturn => cases hfeed
      | cons c cs =>
          rw [hchars] at hfeed
          obtain rfl : c = '\n' := Option.some.inj hfeed
          exact absurd (hchars ▸ List.mem_cons_self) hline.2

/-! ## One division for each text -/

/-- The first line of a text ends where the first character of a break stands. -/
theorem line_cancel {line' : String} {cs cs' : List Char} (h : IsUnbroken line)
    (h' : IsUnbroken line') (hcs : ∀ c ∈ cs.head?, (!isBreakChar c) = false)
    (hcs' : ∀ c ∈ cs'.head?, (!isBreakChar c) = false)
    (heq : line.toList ++ cs = line'.toList ++ cs') : line = line' ∧ cs = cs' := by
  have hback : cs = cs' := by
    rw [← dropWhile_append_eq line.toList (not_isBreakChar h) hcs, heq,
      dropWhile_append_eq line'.toList (not_isBreakChar h') hcs']
  subst hback
  exact ⟨String.toList_injective (List.append_cancel_right heq), rfl⟩

/-- Two breaks that stand in one place are the same, unless a carriage return is read on its own
though a line feed stands behind it. -/
theorem break_cancel {b' : Break} {text text' : String}
    (hb : b = .carriageReturn → ¬ StartsWith '\n' text)
    (hb' : b' = .carriageReturn → ¬ StartsWith '\n' text')
    (heq : b.text.toList ++ text.toList = b'.text.toList ++ text'.toList) :
    b = b' ∧ text = text' := by
  cases b <;> cases b'
  case lineFeed.lineFeed => exact ⟨rfl, String.toList_injective (List.cons.inj heq).2⟩
  case returnFeed.returnFeed =>
    exact ⟨rfl, String.toList_injective (List.cons.inj (List.cons.inj heq).2).2⟩
  case carriageReturn.carriageReturn => exact ⟨rfl, String.toList_injective (List.cons.inj heq).2⟩
  case returnFeed.carriageReturn =>
    exact absurd (congrArg List.head? (List.cons.inj heq).2).symm (hb' rfl)
  case carriageReturn.returnFeed =>
    exact absurd (congrArg List.head? (List.cons.inj heq).2) (hb rfl)
  all_goals exact absurd (List.cons.inj heq).1 (by decide)

theorem eq_nil_of_unbroken (h : IsUnbroken (joined ended rest)) : ended = [] := by
  cases ended with
  | nil => rfl
  | cons p ended =>
      obtain ⟨line, b⟩ := p
      rw [IsUnbroken, toList_joined_cons] at h
      cases b <;> simp [Break.text] at h

theorem joined_injective {ended' : List (String × Break)} {rest' : String}
    (h : IsDivision ended rest) (h' : IsDivision ended' rest')
    (heq : joined ended rest = joined ended' rest') : ended = ended' ∧ rest = rest' := by
  induction ended generalizing ended' with
  | nil =>
      have hunbroken : IsUnbroken (joined ended' rest') := heq ▸ h.unbroken_rest
      obtain rfl := eq_nil_of_unbroken hunbroken
      exact ⟨rfl, heq⟩
  | cons p ended ih =>
      cases ended' with
      | nil =>
          have hunbroken : IsUnbroken (joined (p :: ended) rest) := heq ▸ h'.unbroken_rest
          cases eq_nil_of_unbroken hunbroken
      | cons p' ended' =>
          obtain ⟨line, b⟩ := p
          obtain ⟨line', b'⟩ := p'
          obtain ⟨hline, hfirst, hlater⟩ := h.uncons
          obtain ⟨hline', hfirst', hlater'⟩ := h'.uncons
          have hchars := congrArg String.toList heq
          rw [toList_joined_cons, toList_joined_cons] at hchars
          obtain ⟨rfl, hbehind⟩ := line_cancel hline hline' (b.head_isBreakChar _)
            (b'.head_isBreakChar _) hchars
          obtain ⟨rfl, hjoined⟩ := break_cancel hfirst hfirst' hbehind
          obtain ⟨rfl, rfl⟩ := ih hlater hlater' hjoined
          exact ⟨rfl, rfl⟩

/-- A character that is none of a break goes to the first line. -/
theorem exists_push {c : Char} (hreturn : c ≠ '\r') (hfeed : c ≠ '\n') (h : IsDivision ended rest) :
    ∃ ended' rest', IsDivision ended' rest' ∧
      (joined ended' rest').toList = c :: (joined ended rest).toList := by
  have hpush : ∀ text, IsUnbroken text → IsUnbroken (String.ofList (c :: text.toList)) := by
    intro text htext
    simpa [IsUnbroken, hreturn.symm, hfeed.symm] using htext
  cases ended with
  | nil =>
      refine ⟨[], String.ofList (c :: rest.toList), ?_, ?_⟩
      · exact .nil (hpush rest h.unbroken_rest)
      · simp [joined]
  | cons p ended =>
      obtain ⟨line, b⟩ := p
      obtain ⟨hline, hfirst, hlater⟩ := h.uncons
      refine ⟨(String.ofList (c :: line.toList), b) :: ended, rest, ?_, ?_⟩
      · exact .cons (hpush line hline) hfirst hlater
      · rw [toList_joined_cons, toList_joined_cons, String.toList_ofList, List.cons_append]

/-- A break goes behind an empty line, unless it is a carriage return with a line feed behind it. -/
theorem isDivision_break (hb : b = .carriageReturn → ¬ StartsWith '\n' (joined ended rest))
    (h : IsDivision ended rest) :
    IsDivision (("", b) :: ended) rest ∧
      (joined (("", b) :: ended) rest).toList = b.text.toList ++ (joined ended rest).toList :=
  ⟨.cons ⟨by simp, by simp⟩ hb h, toList_joined_cons⟩

theorem exists_division (cs : List Char) :
    ∃ ended rest, IsDivision ended rest ∧ (joined ended rest).toList = cs := by
  induction cs using lineFeedsOnly.induct with
  | case1 => exact ⟨[], "", .nil ⟨by simp, by simp⟩, rfl⟩
  | case2 cs ih =>
      obtain ⟨ended, rest, h, rfl⟩ := ih
      exact ⟨_, _, isDivision_break (b := .returnFeed) (by simp) h⟩
  | case3 cs hfeed ih =>
      obtain ⟨ended, rest, h, rfl⟩ := ih
      have hapart : ¬ StartsWith '\n' (joined ended rest) := by
        intro hstart
        obtain ⟨cs, hcs⟩ := List.head?_eq_some_iff.mp hstart
        exact hfeed cs hcs
      exact ⟨_, _, isDivision_break (b := .carriageReturn) (fun _ => hapart) h⟩
  | case4 c cs _ hreturn ih =>
      obtain ⟨ended, rest, h, rfl⟩ := ih
      by_cases hfeed : c = '\n'
      · subst hfeed
        exact ⟨_, _, isDivision_break (b := .lineFeed) (by simp) h⟩
      · exact exists_push hreturn hfeed h

/-! ## The lines of a division -/

theorem run_joined (h : IsDivision ended rest) (afterReturn : Bool)
    (hapart : afterReturn = true → ¬ StartsWith '\n' (joined ended rest)) :
    ∃ next, run LineScan.step ⟨"", afterReturn⟩ (joined ended rest).toList =
      (⟨rest, next⟩, ended.map Prod.fst) := by
  induction ended generalizing afterReturn with
  | nil => exact ⟨_, run_line h.unbroken_rest afterReturn⟩
  | cons p ended ih =>
      obtain ⟨line, b⟩ := p
      obtain ⟨hline, hfirst, hlater⟩ := h.uncons
      obtain ⟨next, hrun⟩ := ih hlater (b = .carriageReturn) (by simpa using hfirst)
      -- a line feed is read with the carriage return before it only where the text begins with it
      have hseen : ¬ (b = .lineFeed ∧ (afterReturn && line = "") = true) := by
        rintro ⟨rfl, hempty⟩
        rw [Bool.and_eq_true, decide_eq_true_eq] at hempty
        obtain ⟨hafter, rfl⟩ := hempty
        apply hapart hafter
        rw [StartsWith, toList_joined_cons]
        rfl
      refine ⟨next, ?_⟩
      rw [toList_joined_cons, run_append, run_line hline, run_append, run_break, if_neg hseen, hrun]
      rfl

theorem lines_joined (h : IsDivision ended rest) :
    Text.lines (joined ended rest) = ended.map Prod.fst ++ if rest = "" then [] else [rest] := by
  obtain ⟨next, hrun⟩ := run_joined h false (by simp)
  rw [Text.lines, LineScan.start, hrun]
  rfl

/-! ## Other breaks -/

/-- The same lines with one kind of break behind all of them. -/
theorem isDivision_uniform (b : Break) (h : IsDivision ended rest) :
    IsDivision (ended.map fun p => (p.1, b)) rest := by
  induction ended with
  | nil => exact h
  | cons p ended ih =>
      obtain ⟨line, b'⟩ := p
      obtain ⟨hline, -, hlater⟩ := h.uncons
      refine .cons hline ?_ (ih hlater)
      rintro rfl hfeed
      obtain ⟨later, heq⟩ := exists_of_startsWith (ih hlater) hfeed
      cases ended with
      | nil => cases heq
      | cons p' ended => cases (Prod.mk.inj (List.cons.inj heq).1).2

theorem lineFeedsOnly_append {l : List Char} (h : '\r' ∉ l) (cs : List Char) :
    lineFeedsOnly (l ++ cs) = l ++ lineFeedsOnly cs := by
  induction l with
  | nil => rfl
  | cons c l ih =>
      rw [List.mem_cons, not_or] at h
      rw [List.cons_append, lineFeedsOnly, ih h.2, List.cons_append]
      · rintro cs rfl
        exact absurd rfl h.1
      · rintro rfl
        exact absurd rfl h.1

theorem lineFeedsOnly_break {cs : List Char}
    (hb : b = .carriageReturn → ¬ cs.head? = some '\n') :
    lineFeedsOnly (b.text.toList ++ cs) = '\n' :: lineFeedsOnly cs := by
  cases b with
  | lineFeed => exact lineFeedsOnly_append (l := ['\n']) (by decide) cs
  | returnFeed => rfl
  | carriageReturn =>
      show lineFeedsOnly ('\r' :: cs) = _
      rw [lineFeedsOnly]
      rintro later rfl
      exact hb rfl rfl

theorem lineFeedsOnly_joined (h : IsDivision ended rest) :
    lineFeedsOnly (joined ended rest).toList =
      (joined (ended.map fun p => (p.1, .lineFeed)) rest).toList := by
  induction ended with
  | nil =>
      have hrest := lineFeedsOnly_append h.unbroken_rest.1 []
      simpa [lineFeedsOnly, joined] using hrest
  | cons p ended ih =>
      obtain ⟨line, b⟩ := p
      obtain ⟨hline, hfirst, hlater⟩ := h.uncons
      rw [List.map_cons, toList_joined_cons, toList_joined_cons, lineFeedsOnly_append hline.1,
        lineFeedsOnly_break hfirst, ih hlater]
      rfl

theorem lines_withLineFeeds (text : String) :
    Text.lines (withLineFeeds text) = Text.lines text := by
  obtain ⟨ended, rest, h, htext⟩ := exists_division text.toList
  obtain rfl := String.toList_injective htext
  rw [withLineFeeds, lineFeedsOnly_joined h, String.ofList_toList,
    lines_joined (isDivision_uniform .lineFeed h), lines_joined h, List.map_map]
  rfl

theorem endedBy_eq_joined (b : Break) (ls : List String) :
    endedBy b ls = joined (ls.map fun line => (line, b)) "" := by
  induction ls with
  | nil => rfl
  | cons line ls ih =>
      rw [List.map_cons, joined, ← ih, endedBy, List.map_cons, String.join_cons]
      rfl

theorem isDivision_endedBy (b : Break) {ls : List String} (h : ∀ line ∈ ls, IsUnbroken line) :
    IsDivision (ls.map fun line => (line, b)) "" := by
  have hfeeds : IsDivision (ls.map fun line => (line, Break.lineFeed)) "" := by
    induction ls with
    | nil => exact .nil ⟨by simp, by simp⟩
    | cons line ls ih =>
        refine .cons (h line List.mem_cons_self) (by simp) (ih ?_)
        exact fun l hl => h l (List.mem_cons_of_mem _ hl)
  have huniform := isDivision_uniform b hfeeds
  rwa [List.map_map] at huniform

theorem lines_endedBy (b : Break) {ls : List String} (h : ∀ line ∈ ls, IsUnbroken line) :
    Text.lines (endedBy b ls) = ls := by
  rw [endedBy_eq_joined, lines_joined (isDivision_endedBy b h), List.map_map]
  simp [Function.comp_def]

/-! ## Texts put behind each other -/

/-- A text is read from the beginning of a line as it is on its own, unless a carriage return before
it takes its first line feed. -/
theorem lines_behind {afterReturn : Bool} {text : String}
    (hapart : afterReturn = true → ¬ StartsWith '\n' text) :
    (run LineScan.step ⟨"", afterReturn⟩ text.toList).2 ++
      (run LineScan.step ⟨"", afterReturn⟩ text.toList).1.rest = Text.lines text := by
  obtain ⟨ended, rest, h, htext⟩ := exists_division text.toList
  obtain rfl := String.toList_injective htext
  obtain ⟨next, hrun⟩ := run_joined h afterReturn hapart
  rw [hrun, lines_joined h]
  rfl

def EndsInBreak (text : String) : Prop := EndsWith '\r' text ∨ EndsWith '\n' text

/-- Behind a break stands the beginning of a line. -/
theorem run_endsInBreak {text : String} (h : EndsInBreak text) :
    ∃ afterReturn, run LineScan.step .start text.toList =
        (⟨"", afterReturn⟩, Text.lines text) ∧ (afterReturn = true → EndsWith '\r' text) := by
  rcases h with h | h
  · obtain ⟨cs, hcs⟩ := List.getLast?_eq_some_iff.mp h
    refine ⟨true, ?_, fun _ => h⟩
    rw [Text.lines, hcs, run_concat]
    simp [LineScan.step, LineScan.rest]
  · obtain ⟨cs, hcs⟩ := List.getLast?_eq_some_iff.mp h
    refine ⟨false, ?_, by simp⟩
    rw [Text.lines, hcs, run_concat]
    simp [LineScan.step, LineScan.rest, LineScan.start]

/-- Whatever stands behind a break, the lines before it stay. -/
theorem lines_prefix {front : String} (h : EndsInBreak front) (back : String) :
    Text.lines front <+: Text.lines (front ++ back) := by
  obtain ⟨afterReturn, hfront, -⟩ := run_endsInBreak h
  rw [Text.lines, Text.lines, String.toList_append, run_append, hfront]
  simp [LineScan.rest]

theorem lines_append {front back : String} (h : EndsInBreak front)
    (hapart : ¬ (EndsWith '\r' front ∧ StartsWith '\n' back)) :
    Text.lines (front ++ back) = Text.lines front ++ Text.lines back := by
  obtain ⟨afterReturn, hfront, hreturn⟩ := run_endsInBreak h
  have hback : afterReturn = true → ¬ StartsWith '\n' back :=
    fun hafter hstart => hapart ⟨hreturn hafter, hstart⟩
  rw [← lines_behind hback, Text.lines, String.toList_append, run_append, hfront]
  exact List.append_assoc ..

/-- **A text is cut into lines in one way.** Each text has exactly one division into lines and
breaks, and its lines are those of the division, and behind them the unended text if there is any.
So line feeds in the place of the other breaks leave the lines as they are, any lines come back from
a text that ends each of them in the same way, the empty ones at the end included, and a text behind
a break adds its own lines, unless the two cut a break of two characters in two. -/
theorem lines_by_breaks :
    (∀ text, ∃! d : Division, d.text = text) ∧
      (∀ d : Division, Text.lines d.text =
        d.ended.map Prod.fst ++ if d.rest = "" then [] else [d.rest]) ∧
      (∀ text, Text.lines (withLineFeeds text) = Text.lines text) ∧
      (∀ (b : Break) (ls : List String), (∀ line ∈ ls, IsUnbroken line) →
        Text.lines (endedBy b ls) = ls) ∧
      ∀ front back, EndsInBreak front → ¬ (EndsWith '\r' front ∧ StartsWith '\n' back) →
        Text.lines (front ++ back) = Text.lines front ++ Text.lines back := by
  refine ⟨?_, fun d => lines_joined d.isDivision, lines_withLineFeeds,
    fun b ls h => lines_endedBy b h, fun front back h hapart => lines_append h hapart⟩
  intro text
  obtain ⟨ended, rest, h, htext⟩ := exists_division text.toList
  refine ⟨⟨ended, rest, h⟩, String.toList_injective htext, ?_⟩
  rintro d rfl
  obtain ⟨hended, hrest⟩ := joined_injective d.isDivision h (String.toList_injective htext).symm
  exact Division.ext hended hrest

/-- Empty lines ended by carriage returns, and a text that goes on behind one. -/
theorem lines_of_returns :
    Text.lines (endedBy .carriageReturn ["", "a", "", ""]) = ["", "a", "", ""] ∧
      Text.lines ("a\n\r" ++ "\r\nb") = Text.lines "a\n\r" ++ Text.lines "\r\nb" := by
  obtain ⟨-, -, -, hended, happend⟩ := lines_by_breaks
  have hlines : ∀ line ∈ ["", "a", "", ""], IsUnbroken line := by simp [IsUnbroken]
  have hbreak : EndsInBreak "a\n\r" := Or.inl rfl
  have hapart : ¬ (EndsWith '\r' "a\n\r" ∧ StartsWith '\n' "\r\nb") := by
    simp [StartsWith]
  exact ⟨hended .carriageReturn _ hlines, happend _ _ hbreak hapart⟩

/-- A break cut in two makes an empty line more. -/
example :
    Text.lines ("a\r" ++ "\nb") = ["a", "b"] ∧
      Text.lines "a\r" ++ Text.lines "\nb" = ["a", "", "b"] := by
  decide +kernel

end CompileCommands.Log
