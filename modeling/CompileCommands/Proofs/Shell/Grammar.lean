import CompileCommands.Proofs.Shell.Escape
import Mathlib.Data.List.Induction

/-!
# The grammar of commands

A command is `blank* (word (blank+ word)*)? blank*`, a word is one part or more, and a part is an
ordinary character, an escaped one, or a run between quotes. Each has a text and a value. Here the
grammar stands on its own, and the scan of `Shell.words` is compared with it: the scan accepts the
texts that the grammar derives and gives their value, and it refuses the others for the reason that
the grammar shows (`words_by_grammar`).

What the scan holds after some characters is a derivation under way, with a case for each mode
(`Reading`). One step of the scan takes it one character further (`Reading.step`), so a whole scan
is an induction on its characters from the right (`reading_run`).
-/

namespace CompileCommands.Shell

open Transducer

/-! ## The grammar -/

/-- An item between double quotes, as text and value. -/
inductive QuotedItem : List Char → List Char → Prop
  | escaped {c : Char} (h : isEscapable c = true) : QuotedItem [backslash, c] [c]
  | kept {c : Char} (h : isEscapable c = false) : QuotedItem [backslash, c] [backslash, c]
  | plain {c : Char} (hquote : c ≠ doubleQuote) (hbackslash : c ≠ backslash) : QuotedItem [c] [c]

inductive QuotedRun : List Char → List Char → Prop
  | nil : QuotedRun [] []
  | snoc {text value item chars : List Char} (h : QuotedRun text value)
      (hitem : QuotedItem item chars) : QuotedRun (text ++ item) (value ++ chars)

inductive Part : List Char → String → Prop
  | ordinary {c : Char} (h : IsOrdinary c) : Part [c] (String.singleton c)
  | escaped (c : Char) : Part [backslash, c] (String.singleton c)
  | single {text : List Char} (h : singleQuote ∉ text) :
      Part (singleQuote :: text ++ [singleQuote]) (String.ofList text)
  | double {text value : List Char} (h : QuotedRun text value) :
      Part (doubleQuote :: text ++ [doubleQuote]) (String.ofList value)

inductive Word : List Char → String → Prop
  | part {text : List Char} {value : String} (h : Part text value) : Word text value
  | more {text partText : List Char} {value partValue : String} (h : Word text value)
      (hpart : Part partText partValue) : Word (text ++ partText) (value ++ partValue)

def Blanks (text : List Char) : Prop := ∀ c ∈ text, isBlank c = true

/-- Words with blanks between them: `word (blank+ word)*`. -/
inductive WordRow : List Char → List String → Prop
  | word {text : List Char} {value : String} (h : Word text value) : WordRow text [value]
  | more {text blanks wordText : List Char} {values : List String} {value : String}
      (h : WordRow text values) (hne : blanks ≠ []) (hblanks : Blanks blanks)
      (hword : Word wordText value) : WordRow (text ++ blanks ++ wordText) (values ++ [value])

/-- A command and the values of its words. -/
inductive Derives : List Char → List String → Prop
  | blanks {text : List Char} (h : Blanks text) : Derives text []
  | row {before text after : List Char} {values : List String} (hbefore : Blanks before)
      (hrow : WordRow text values) (hafter : Blanks after) :
      Derives (before ++ text ++ after) values

inductive OpenRun : List Char → Prop
  | single {text : List Char} (h : singleQuote ∉ text) : OpenRun (singleQuote :: text)
  | double {text value : List Char} (h : QuotedRun text value) : OpenRun (doubleQuote :: text)
  | doubleEscape {text value : List Char} (h : QuotedRun text value) :
      OpenRun (doubleQuote :: text ++ [backslash])

/-- The text ends in a backslash that stands outside quotes and has nothing to escape. -/
def EndsAtEscape (text : List Char) : Prop :=
  ∃ front args, Derives front args ∧ text = front ++ [backslash]

def EndsInQuotes (text : List Char) : Prop :=
  ∃ front args rest, Derives front args ∧ OpenRun rest ∧ text = front ++ rest

/-! ## What is derived is read -/

theorem run_quotedItem {item chars : List Char} (h : QuotedItem item chars) (word : String) :
    run WordScan.step ⟨.double, some word⟩ item =
      (⟨.double, some (word ++ String.ofList chars)⟩, []) := by
  cases h with
  | @escaped c h =>
      have hescape : WordScan.step ⟨.double, some word⟩ backslash =
          (⟨.doubleEscape, some word⟩, []) := rfl
      rw [run_cons, hescape, run_cons, run_nil, ← push_append]
      simp [WordScan.step, WordScan.push, h]
  | @kept c h =>
      have hescape : WordScan.step ⟨.double, some word⟩ backslash =
          (⟨.doubleEscape, some word⟩, []) := rfl
      rw [run_cons, hescape, run_cons, run_nil, ← push_append, ← push_append]
      simp [WordScan.step, WordScan.push, h]
  | plain hquote hbackslash =>
      rw [run_cons, run_nil, ← push_append]
      simp [WordScan.step, WordScan.push, hquote, hbackslash]

theorem run_quotedRun {text value : List Char} (h : QuotedRun text value) (word : String) :
    run WordScan.step ⟨.double, some word⟩ text =
      (⟨.double, some (word ++ String.ofList value)⟩, []) := by
  induction h with
  | nil => simp
  | snoc _ hitem ih =>
      rw [run_append, ih, run_quotedItem hitem, String.ofList_append, String.append_assoc]
      rfl

theorem run_unquoted {text : List Char} (h : singleQuote ∉ text) (word : String) :
    run WordScan.step ⟨.single, some word⟩ text =
      (⟨.single, some (word ++ String.ofList text)⟩, []) := by
  refine run_push (fun word => (⟨.single, some word⟩ : WordScan)) ?_ word
  intro c hmem word
  have hc : c ≠ singleQuote := fun e => h (e ▸ hmem)
  simp [WordScan.step, WordScan.push, hc]

theorem step_open_single (word : Option String) :
    WordScan.step ⟨.bare, word⟩ singleQuote = (⟨.single, some (word.getD "")⟩, []) := rfl

theorem step_open_double (word : Option String) :
    WordScan.step ⟨.bare, word⟩ doubleQuote = (⟨.double, some (word.getD "")⟩, []) := rfl

theorem step_escape (word : Option String) :
    WordScan.step ⟨.bare, word⟩ backslash = (⟨.escape, some (word.getD "")⟩, []) := rfl

theorem run_part {text : List Char} {value : String} (h : Part text value)
    (word : Option String) :
    run WordScan.step ⟨.bare, word⟩ text = (⟨.bare, some (word.getD "" ++ value)⟩, []) := by
  cases h with
  | ordinary h =>
      rw [run_cons, step_ordinary h, run_nil, String.push_eq_append]
      rfl
  | escaped c =>
      rw [run_cons, step_escape, run_cons, run_nil, ← String.push_eq_append]
      rfl
  | single h =>
      rw [List.cons_append, run_cons, step_open_single, run_append, run_unquoted h, run_cons]
      rfl
  | double h =>
      rw [List.cons_append, run_cons, step_open_double, run_append, run_quotedRun h, run_cons]
      rfl

theorem run_word {text : List Char} {value : String} (h : Word text value)
    (word : Option String) :
    run WordScan.step ⟨.bare, word⟩ text = (⟨.bare, some (word.getD "" ++ value)⟩, []) := by
  induction h with
  | part h => exact run_part h word
  | more _ hpart ih =>
      rw [run_append, ih, run_part hpart, Option.getD_some, String.append_assoc]
      rfl

theorem readWords_word {text : List Char} {value : String} (h : Word text value) :
    readWords text = .ok [value] := by
  rw [readWords, WordScan.start, run_word h]
  simp [WordScan.finish, Except.map]

/-- Blanks at the end of a command change nothing. -/
theorem readWords_trailing_blanks {text blanks : List Char} {args : List String}
    (h : readWords text = .ok args) (hblanks : Blanks blanks) :
    readWords (text ++ blanks) = .ok args := by
  cases blanks with
  | nil => rwa [List.append_nil]
  | cons c rest =>
      -- the first blank settles the words before it, and no other word follows
      have hrest : readWords rest = .ok [] := by
        have hleading := readWords_leading_blanks
          (fun d hd => hblanks d (List.mem_cons_of_mem _ hd)) []
        rwa [List.append_nil] at hleading
      rw [readWords_blank (hblanks c List.mem_cons_self) h, hrest]
      simp [Except.map]

theorem readWords_row {text : List Char} {values : List String} (h : WordRow text values) :
    readWords text = .ok values := by
  induction h with
  | word h => exact readWords_word h
  | @more text blanks wordText values value _ hne hblanks hword ih =>
      obtain ⟨c, rest, rfl⟩ := List.exists_cons_of_ne_nil hne
      have hback : readWords (rest ++ wordText) = .ok [value] := by
        rw [readWords_leading_blanks fun d hd => hblanks d (List.mem_cons_of_mem _ hd)]
        exact readWords_word hword
      rw [List.append_assoc, List.cons_append,
        readWords_blank (hblanks c List.mem_cons_self) ih, hback]
      rfl

theorem readWords_of_derives {text : List Char} {args : List String} (h : Derives text args) :
    readWords text = .ok args := by
  cases h with
  | blanks h =>
      have hnothing : readWords [] = .ok [] := rfl
      exact readWords_trailing_blanks hnothing h
  | row hbefore hrow hafter =>
      refine readWords_trailing_blanks ?_ hafter
      rw [readWords_leading_blanks hbefore]
      exact readWords_row hrow

/-- Behind a whole command the scan is outside quotes. -/
theorem mode_of_derives {text : List Char} {args : List String} (h : Derives text args) :
    (run WordScan.step .start text).1.mode = .bare := by
  have hread := readWords_of_derives h
  rw [readWords] at hread
  cases hfinish : (run WordScan.step .start text).1.finish with
  | error fault =>
      rw [hfinish] at hread
      cases hread
  | ok final => exact (finish_eq_ok hfinish).1

/-! ## What is read is derived -/

/-- What may stand before a word: `blank* (word blank+)*`. -/
inductive Front : List Char → List String → Prop
  | blanks {text : List Char} (h : Blanks text) : Front text []
  | row {before text after : List Char} {values : List String} (hbefore : Blanks before)
      (hrow : WordRow text values) (hne : after ≠ []) (hafter : Blanks after) :
      Front (before ++ text ++ after) values

inductive Pending : List Char → Option String → Prop
  | none : Pending [] none
  | word {text : List Char} {value : String} (h : Word text value) : Pending text (some value)

theorem Pending.part {text partText : List Char} {word : Option String} {value : String}
    (h : Pending text word) (hpart : Part partText value) :
    Word (text ++ partText) (word.getD "" ++ value) := by
  cases h with
  | none =>
      rw [List.nil_append, Option.getD_none, String.empty_append]
      exact .part hpart
  | word h => exact .more h hpart

theorem Front.derives {front text : List Char} {values : List String} {word : Option String}
    (hfront : Front front values) (hword : Pending text word) :
    Derives (front ++ text) (values ++ word.toList) := by
  cases hword with
  | none =>
      -- without a word under way, the last blanks are those at the end of the command
      rw [List.append_nil, Option.toList_none, List.append_nil]
      cases hfront with
      | blanks h => exact .blanks h
      | row hbefore hrow _ hafter => exact .row hbefore hrow hafter
  | word h =>
      have hend : Blanks [] := by simp [Blanks]
      cases hfront with
      | blanks hblanks => simpa using Derives.row hblanks (.word h) hend
      | row hbefore hrow hne hafter =>
          simpa using Derives.row hbefore (.more hrow hne hafter h) hend

/-- A blank behind a command makes room for another word. -/
theorem Derives.blank {text : List Char} {args : List String} (h : Derives text args) {c : Char}
    (hc : isBlank c = true) : Front (text ++ [c]) args := by
  have happend : ∀ {blanks : List Char}, Blanks blanks → Blanks (blanks ++ [c]) := by
    intro blanks hblanks
    exact List.forall_mem_append.mpr ⟨hblanks, by simpa using hc⟩
  cases h with
  | blanks h => exact .blanks (happend h)
  | row hbefore hrow hafter =>
      rw [List.append_assoc]
      exact .row hbefore hrow (by simp) (happend hafter)

/-- What has been read, what the scan holds of it, and the words it has given out. -/
inductive Reading : List Char → WordScan → List String → Prop
  | bare {front text : List Char} {out : List String} {word : Option String}
      (hfront : Front front out) (hword : Pending text word) :
      Reading (front ++ text) ⟨.bare, word⟩ out
  | escape {front text : List Char} {out : List String} {word : Option String}
      (hfront : Front front out) (hword : Pending text word) :
      Reading (front ++ text ++ [backslash]) ⟨.escape, some (word.getD "")⟩ out
  | single {front text quoted : List Char} {out : List String} {word : Option String}
      (hfront : Front front out) (hword : Pending text word) (hquoted : singleQuote ∉ quoted) :
      Reading (front ++ text ++ singleQuote :: quoted)
        ⟨.single, some (word.getD "" ++ String.ofList quoted)⟩ out
  | double {front text quoted value : List Char} {out : List String} {word : Option String}
      (hfront : Front front out) (hword : Pending text word) (hquoted : QuotedRun quoted value) :
      Reading (front ++ text ++ doubleQuote :: quoted)
        ⟨.double, some (word.getD "" ++ String.ofList value)⟩ out
  | doubleEscape {front text quoted value : List Char} {out : List String} {word : Option String}
      (hfront : Front front out) (hword : Pending text word) (hquoted : QuotedRun quoted value) :
      Reading (front ++ text ++ (doubleQuote :: quoted ++ [backslash]))
        ⟨.doubleEscape, some (word.getD "" ++ String.ofList value)⟩ out

/-- A part that is complete goes to the word under way. -/
theorem Reading.ofPart {front text partText : List Char} {out : List String}
    {word : Option String} {value : String} (hfront : Front front out) (hword : Pending text word)
    (hpart : Part partText value) :
    Reading (front ++ text ++ partText) ⟨.bare, some (word.getD "" ++ value)⟩ out := by
  rw [List.append_assoc]
  exact .bare hfront (.word (hword.part hpart))

theorem push_ofList (word : String) (cs : List Char) (c : Char) :
    (word ++ String.ofList cs).push c = word ++ String.ofList (cs ++ [c]) := by
  rw [String.push_eq_append, String.append_assoc, String.ofList_append]
  rfl

theorem isOrdinary_of_not {c : Char} (hblank : ¬ isBlank c = true) (hsingle : c ≠ singleQuote)
    (hdouble : c ≠ doubleQuote) (hbackslash : c ≠ backslash) : IsOrdinary c :=
  ⟨by simpa using hblank, hsingle, hdouble, hbackslash⟩

theorem Reading.step_bare {front text : List Char} {out : List String} {word : Option String}
    (hfront : Front front out) (hword : Pending text word) (c : Char) :
    Reading (front ++ text ++ [c]) (WordScan.step ⟨.bare, word⟩ c).1
      (out ++ (WordScan.step ⟨.bare, word⟩ c).2) := by
  by_cases hblank : isBlank c = true
  · -- the blank gives out the word under way, and the front grows by both
    rw [step_blank rfl hblank]
    have hbetween : Front (front ++ text ++ [c]) (out ++ word.toList) :=
      (hfront.derives hword).blank hblank
    have hreading : Reading (front ++ text ++ [c] ++ []) .start (out ++ word.toList) :=
      .bare hbetween .none
    rw [List.append_nil] at hreading
    exact hreading
  by_cases hsingle : c = singleQuote
  · subst hsingle
    rw [step_open_single, List.append_nil]
    have hnothing : singleQuote ∉ [] := List.not_mem_nil
    simpa using Reading.single hfront hword hnothing
  by_cases hdouble : c = doubleQuote
  · subst hdouble
    rw [step_open_double, List.append_nil]
    simpa using Reading.double hfront hword .nil
  by_cases hbackslash : c = backslash
  · subst hbackslash
    rw [step_escape, List.append_nil]
    exact .escape hfront hword
  · have hordinary : IsOrdinary c := isOrdinary_of_not hblank hsingle hdouble hbackslash
    rw [step_ordinary hordinary, List.append_nil, String.push_eq_append]
    exact .ofPart hfront hword (.ordinary hordinary)

theorem Reading.step_single {front text quoted : List Char} {out : List String}
    {word : Option String} (hfront : Front front out) (hword : Pending text word)
    (hquoted : singleQuote ∉ quoted) (c : Char) :
    let s : WordScan := ⟨.single, some (word.getD "" ++ String.ofList quoted)⟩
    Reading (front ++ text ++ singleQuote :: quoted ++ [c]) (s.step c).1
      (out ++ (s.step c).2) := by
  intro s
  by_cases hsingle : c = singleQuote
  · subst hsingle
    have hclose : s.step singleQuote =
        (⟨.bare, some (word.getD "" ++ String.ofList quoted)⟩, []) := rfl
    rw [hclose, List.append_nil, List.append_assoc]
    exact .ofPart hfront hword (.single hquoted)
  · have hpush : s.step c =
        (⟨.single, some ((word.getD "" ++ String.ofList quoted).push c)⟩, []) := by
      simp [s, WordScan.step, WordScan.push, hsingle]
    have hmore : singleQuote ∉ quoted ++ [c] := by
      simpa [hquoted] using Ne.symm hsingle
    rw [hpush, push_ofList, List.append_nil, List.append_assoc, List.cons_append]
    exact .single hfront hword hmore

theorem Reading.step_double {front text quoted value : List Char} {out : List String}
    {word : Option String} (hfront : Front front out) (hword : Pending text word)
    (hquoted : QuotedRun quoted value) (c : Char) :
    let s : WordScan := ⟨.double, some (word.getD "" ++ String.ofList value)⟩
    Reading (front ++ text ++ doubleQuote :: quoted ++ [c]) (s.step c).1
      (out ++ (s.step c).2) := by
  intro s
  by_cases hdouble : c = doubleQuote
  · subst hdouble
    have hclose : s.step doubleQuote =
        (⟨.bare, some (word.getD "" ++ String.ofList value)⟩, []) := rfl
    rw [hclose, List.append_nil, List.append_assoc]
    exact .ofPart hfront hword (.double hquoted)
  by_cases hbackslash : c = backslash
  · subst hbackslash
    have hescape : s.step backslash =
        (⟨.doubleEscape, some (word.getD "" ++ String.ofList value)⟩, []) := rfl
    rw [hescape, List.append_nil, List.append_assoc]
    exact .doubleEscape hfront hword hquoted
  · have hpush : s.step c =
        (⟨.double, some ((word.getD "" ++ String.ofList value).push c)⟩, []) := by
      simp [s, WordScan.step, WordScan.push, hdouble, hbackslash]
    rw [hpush, push_ofList, List.append_nil, List.append_assoc, List.cons_append]
    exact .double hfront hword (hquoted.snoc (.plain hdouble hbackslash))

theorem Reading.step_doubleEscape {front text quoted value : List Char} {out : List String}
    {word : Option String} (hfront : Front front out) (hword : Pending text word)
    (hquoted : QuotedRun quoted value) (c : Char) :
    let s : WordScan := ⟨.doubleEscape, some (word.getD "" ++ String.ofList value)⟩
    Reading (front ++ text ++ (doubleQuote :: quoted ++ [backslash]) ++ [c]) (s.step c).1
      (out ++ (s.step c).2) := by
  intro s
  -- whatever the character, the two make one item
  have hitem : ∀ {chars : List Char}, QuotedItem [backslash, c] chars →
      Reading (front ++ text ++ (doubleQuote :: quoted ++ [backslash]) ++ [c])
        ⟨.double, some (word.getD "" ++ String.ofList (value ++ chars))⟩ out := by
    intro chars h
    simpa using Reading.double hfront hword (hquoted.snoc h)
  cases hescapable : isEscapable c with
  | true =>
      have hpush : s.step c =
          (⟨.double, some ((word.getD "" ++ String.ofList value).push c)⟩, []) := by
        simp [s, WordScan.step, WordScan.push, hescapable]
      rw [hpush, push_ofList, List.append_nil]
      exact hitem (.escaped hescapable)
  | false =>
      have hpush : s.step c = (⟨.double,
          some (((word.getD "" ++ String.ofList value).push backslash).push c)⟩, []) := by
        simp [s, WordScan.step, WordScan.push, hescapable]
      rw [hpush, push_ofList, push_ofList, List.append_nil, List.append_assoc value]
      exact hitem (.kept hescapable)

/-- One more character is read, in whatever mode. -/
theorem Reading.step {text : List Char} {s : WordScan} {out : List String} (h : Reading text s out)
    (c : Char) : Reading (text ++ [c]) (s.step c).1 (out ++ (s.step c).2) := by
  cases h with
  | bare hfront hword => exact step_bare hfront hword c
  | escape hfront hword =>
      have hpart := Reading.ofPart hfront hword (.escaped c)
      rw [← String.push_eq_append] at hpart
      simpa [WordScan.step, WordScan.push] using hpart
  | single hfront hword hquoted => exact step_single hfront hword hquoted c
  | double hfront hword hquoted => exact step_double hfront hword hquoted c
  | doubleEscape hfront hword hquoted => exact step_doubleEscape hfront hword hquoted c

theorem reading_run (text : List Char) :
    Reading text (run WordScan.step .start text).1 (run WordScan.step .start text).2 := by
  induction text using List.reverseRecOn with
  | nil =>
      have hnothing : Blanks [] := by simp [Blanks]
      exact .bare (.blanks hnothing) .none
  | append_singleton text c ih =>
      rw [run_concat]
      exact ih.step c

/-! ## The scan and the grammar -/

/-- What the grammar says of a text that is read with this result. -/
def Explains (text : List Char) : Except Fault (List String) → Prop
  | .ok args => Derives text args
  | .error .nothingEscaped => EndsAtEscape text
  | .error .openQuote => EndsInQuotes text

/-- The mode in which the scan ends decides the result, and the reading shows why. -/
theorem explains_readWords (text : List Char) : Explains text (readWords text) := by
  have hreading := reading_run text
  rw [readWords]
  generalize (run WordScan.step .start text).1 = s at hreading
  generalize (run WordScan.step .start text).2 = out at hreading
  cases hreading with
  | bare hfront hword => exact hfront.derives hword
  | escape hfront hword => exact ⟨_, _, hfront.derives hword, rfl⟩
  | single hfront hword hquoted => exact ⟨_, _, _, hfront.derives hword, .single hquoted, rfl⟩
  | double hfront hword hquoted => exact ⟨_, _, _, hfront.derives hword, .double hquoted, rfl⟩
  | doubleEscape hfront hword hquoted =>
      exact ⟨_, _, _, hfront.derives hword, .doubleEscape hquoted, rfl⟩

/-- Behind a whole command the scan goes on from outside quotes. -/
theorem run_behind {front : List Char} {args : List String} (h : Derives front args)
    (rest : List Char) :
    ∃ word, (run WordScan.step .start (front ++ rest)).1 =
      (run WordScan.step ⟨.bare, word⟩ rest).1 := by
  have hmode := mode_of_derives h
  refine ⟨(run WordScan.step .start front).1.word, ?_⟩
  rw [run_append, ← hmode]

theorem readWords_eq_error_iff {text : List Char} {fault : Fault} :
    readWords text = .error fault ↔
      (run WordScan.step .start text).1.finish = .error fault := by
  rw [readWords]
  cases (run WordScan.step .start text).1.finish <;> simp [Except.map]

theorem readWords_of_endsAtEscape {text : List Char} (h : EndsAtEscape text) :
    readWords text = .error .nothingEscaped := by
  obtain ⟨front, args, hfront, rfl⟩ := h
  obtain ⟨word, hrun⟩ := run_behind hfront [backslash]
  rw [readWords_eq_error_iff, hrun, run_cons, step_escape]
  rfl

theorem readWords_of_endsInQuotes {text : List Char} (h : EndsInQuotes text) :
    readWords text = .error .openQuote := by
  obtain ⟨front, args, rest, hfront, hopen, rfl⟩ := h
  obtain ⟨word, hrun⟩ := run_behind hfront rest
  rw [readWords_eq_error_iff, hrun]
  cases hopen with
  | single h =>
      rw [run_cons, step_open_single, run_unquoted h]
      rfl
  | double h =>
      rw [run_cons, step_open_double, run_quotedRun h]
      rfl
  | doubleEscape h =>
      rw [List.cons_append, run_cons, step_open_double, run_append, run_quotedRun h, run_cons]
      rfl

theorem readWords_eq_iff {text : List Char} {result : Except Fault (List String)} :
    readWords text = result ↔ Explains text result := by
  constructor
  · rintro rfl
    exact explains_readWords text
  · intro h
    cases result with
    | ok args => exact readWords_of_derives h
    | error fault =>
        cases fault with
        | nothingEscaped => exact readWords_of_endsAtEscape h
        | openQuote => exact readWords_of_endsInQuotes h

theorem words_eq_ok_iff {command : String} {args : List String} :
    words command = .ok args ↔ readWords command.toList = .ok args := by
  rw [words_eq]
  cases readWords command.toList <;> simp [Except.mapError]

theorem words_eq_error_iff {command : String} {e : Malformed} :
    words command = .error e ↔ e.command = command ∧ readWords command.toList = .error e.fault := by
  obtain ⟨fault, text⟩ := e
  rw [words_eq]
  cases readWords command.toList with
  | ok args => simp [Except.mapError]
  | error found => simp [Except.mapError, and_comm, eq_comm]

theorem Fault.message_injective {f g : Fault} (h : f.message = g.message) : f = g := by
  cases f <;> cases g <;> first | rfl | exact absurd h (by decide)

/-- A refused command is refused with the text of its fault and the command itself. -/
theorem words_message_iff {command : String} {fault : Fault} :
    (∃ e, words command = .error e ∧ e.message = fault.message ++ ": " ++ command) ↔
      readWords command.toList = .error fault := by
  constructor
  · rintro ⟨e, he, hmessage⟩
    obtain ⟨hcommand, hread⟩ := words_eq_error_iff.mp he
    -- the command is the same, so the messages differ where the faults do
    have hsame : e.fault.message = fault.message := by
      simpa [Malformed.message, hcommand] using hmessage
    rwa [← Fault.message_injective hsame]
  · intro h
    exact ⟨⟨fault, command⟩, words_eq_error_iff.mpr ⟨rfl, h⟩, rfl⟩

/-- **Commands are read by their grammar.** A command is read as some words exactly if the grammar
derives it with these words as values, and no command has two rows of values. Any other is refused:
for want of an escaped character if it ends in a backslash outside quotes with nothing behind it,
and for want of a closing quote if it ends between quotes. -/
theorem words_by_grammar (command : String) :
    (∀ args, words command = .ok args ↔ Derives command.toList args) ∧
      (∀ args args', Derives command.toList args → Derives command.toList args' → args = args') ∧
      ((∃ e, words command = .error e ∧ e.message = "no escaped character: " ++ command) ↔
        EndsAtEscape command.toList) ∧
      ((∃ e, words command = .error e ∧ e.message = "no closing quotation: " ++ command) ↔
        EndsInQuotes command.toList) ∧
      ((∃ args, Derives command.toList args) ∨ EndsAtEscape command.toList ∨
        EndsInQuotes command.toList) := by
  refine ⟨?_, ?_, ?_, ?_, ?_⟩
  · intro args
    exact words_eq_ok_iff.trans readWords_eq_iff
  · intro args args' h h'
    have hsame := (readWords_of_derives h).symm.trans (readWords_of_derives h')
    exact Except.ok.inj hsame
  · exact (@words_message_iff command .nothingEscaped).trans readWords_eq_iff
  · exact (@words_message_iff command .openQuote).trans readWords_eq_iff
  · have hends := explains_readWords command.toList
    cases hread : readWords command.toList with
    | ok args =>
        rw [hread] at hends
        exact Or.inl ⟨args, hends⟩
    | error fault =>
        rw [hread] at hends
        cases fault with
        | nothingEscaped => exact Or.inr (Or.inl hends)
        | openQuote => exact Or.inr (Or.inr hends)

end CompileCommands.Shell
