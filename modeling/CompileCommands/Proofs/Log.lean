import CompileCommands.Conversion
import CompileCommands.Proofs.Command.Lines
import CompileCommands.Proofs.Document
import CompileCommands.Proofs.Text.Lines

/-!
# Logs carried by records

However the lines of a log are cut into groups, and each group put into the command of a record, the
records carry these lines: a line feed behind each line keeps the empty ones and those at the end of
a group. Blank lines between the records, and records without a command, carry nothing. An empty
line between a carriage return and a line feed even vanishes, since the two are one break, and it
carries nothing either.
-/

namespace CompileCommands

namespace Json

/-! ## Quoted strings -/

theorem hexPair_unbroken : ∀ n < 32, '\r' ∉ hexPair n ∧ '\n' ∉ hexPair n := by
  decide

/-- No break of lines stands in a quoted string. -/
theorem quotedChar_unbroken (c : Char) : '\r' ∉ quotedChar c ∧ '\n' ∉ quotedChar c := by
  unfold quotedChar
  split
  · rename_i h
    rcases (by simpa using h : c = '"' ∨ c = '\\') with rfl | rfl <;> decide
  split
  · decide
  split
  · decide
  split
  · decide
  split
  · decide
  split
  · decide
  split
  · rename_i h
    have hpair := hexPair_unbroken c.toNat h
    simpa using hpair
  · rename_i hfeed _ hreturn _
    simpa using ⟨Ne.symm hreturn, Ne.symm hfeed⟩

theorem quote_unbroken (text : String) : Text.IsUnbroken (quote text) := by
  have hchars : (quote text).toList = '"' :: (text.toList.flatMap quotedChar ++ ['"']) := by
    simp [quote]
  rw [Text.IsUnbroken, hchars]
  simp [quotedChar_unbroken]

end Json

namespace Log

open Transducer

/-! ## Lines of records -/

inductive Break where
  | lineFeed
  | returnFeed
  | carriageReturn
  deriving DecidableEq, Repr

def Break.text : Break → String
  | lineFeed => "\n"
  | returnFeed => "\r\n"
  | carriageReturn => "\r"

def commandOf? (record : Json.Value) : Option String :=
  match record.member? "command" with
  | some (.string command) => some command
  | _ => none

/-- The log lines that a line of a JSON-lines text carries: none if it is blank or a record without
a string for its command, and else those of the command, with a line feed behind each. -/
inductive Carries (text : String) : List String → Prop
  | blank (hblank : Text.isEmptyLine text = true) : Carries text []
  | foreign (hrecord : (Json.parse text).map commandOf? = some none) : Carries text []
  | command {lines : List String}
      (hrecord : (Json.parse text).map commandOf? = some (some (Text.terminated lines))) :
      Carries text lines

/-- A line of a JSON-lines text, with the log lines that it carries. -/
structure Row where
  text : String
  lines : List String
  unbroken : Text.IsUnbroken text
  unbroken_lines : ∀ line ∈ lines, Text.IsUnbroken line
  carries : Carries text lines

/-- The text of rows, each but the last with a break behind. -/
def written : List (Row × Break) → Row → String
  | [], last => last.text
  | (row, b) :: rows, last => row.text ++ b.text ++ written rows last

def carried (rows : List (Row × Break)) (last : Row) : List String :=
  rows.flatMap (·.1.lines) ++ last.lines

def Reads (texts lines : List String) : Prop :=
  ∀ n, ∃ m, run RecordScan.step ⟨n, none⟩ texts = (⟨m, none⟩, lines)

theorem Reads.append {texts texts' lines lines' : List String} (hfront : Reads texts lines)
    (hback : Reads texts' lines') : Reads (texts ++ texts') (lines ++ lines') := by
  intro n
  obtain ⟨m, hfront⟩ := hfront n
  obtain ⟨k, hback⟩ := hback m
  refine ⟨k, ?_⟩
  rw [run_append, hfront, hback]

/-! ## One line -/

theorem linesOfRecord_eq (record : Json.Value) :
    linesOfRecord record = ((commandOf? record).map Text.lines).getD [] := by
  unfold linesOfRecord commandOf?
  cases record.member? "command" with
  | none => rfl
  | some command => cases command <;> rfl

theorem step_of_blank {text : String} (h : Text.isEmptyLine text = true) (n : Nat) :
    RecordScan.step ⟨n, none⟩ text = (⟨n + 1, none⟩, []) := by
  rw [RecordScan.step, if_neg (by simp), if_pos h]

theorem step_of_record {text : String} {record : Json.Value}
    (h : Json.parse text = some record) (n : Nat) :
    RecordScan.step ⟨n, none⟩ text =
      (⟨n + 1, none⟩, ((commandOf? record).map Text.lines).getD []) := by
  have hblank : ¬ Text.isEmptyLine text = true := by
    intro hblank
    rw [Json.parse_of_blank hblank] at h
    cases h
  rw [RecordScan.step, if_neg (by simp), if_neg hblank, h, ← linesOfRecord_eq]

theorem reads_record {text : String} {command : Option String}
    (h : (Json.parse text).map commandOf? = some command) :
    Reads [text] ((command.map Text.lines).getD []) := by
  obtain ⟨record, hparse, rfl⟩ := Option.map_eq_some_iff.mp h
  intro n
  refine ⟨n + 1, ?_⟩
  rw [run_cons, step_of_record hparse]
  simp

theorem Carries.reads {text : String} {lines : List String} (h : Carries text lines)
    (hlines : ∀ line ∈ lines, Text.IsUnbroken line) : Reads [text] lines := by
  cases h with
  | blank hblank =>
      intro n
      refine ⟨n + 1, ?_⟩
      rw [run_cons, step_of_blank hblank]
      rfl
  | foreign hrecord => exact reads_record hrecord
  | command hrecord =>
      have hreads := reads_record hrecord
      rw [Option.map_some, Text.lines_terminated hlines] at hreads
      exact hreads

/-- An empty line carries nothing. -/
theorem Carries.of_empty {lines : List String} (h : Carries "" lines) : lines = [] := by
  cases h with
  | blank => rfl
  | foreign => rfl
  | command hrecord =>
      rw [Json.parse_of_blank rfl] at hrecord
      cases hrecord

theorem Row.reads (row : Row) : Reads [row.text] row.lines :=
  row.carries.reads row.unbroken_lines

theorem Row.reads_empty {row : Row} (h : row.text = "") : Reads [] row.lines := by
  have hcarries := row.carries
  rw [h] at hcarries
  rw [hcarries.of_empty]
  exact fun n => ⟨n, rfl⟩

/-! ## A text of lines -/

theorem run_break (b : Break) (s : Text.LineScan) :
    run Text.LineScan.step s b.text.toList =
      (⟨"", b = .carriageReturn⟩,
        if b = .lineFeed ∧ s.afterReturn = true then [] else [s.current]) := by
  cases b with
  | lineFeed =>
      show run Text.LineScan.step s ['\n'] = _
      rw [run_cons, run_nil, Text.LineScan.step, if_neg (by decide), if_pos rfl]
      simp [Text.LineScan.start]
  | returnFeed => rfl
  | carriageReturn => rfl

/-- A row and its break are read as the row's line, or not seen at all. -/
theorem run_row (row : Row) (b : Break) (afterReturn : Bool) :
    ∃ next texts, run Text.LineScan.step ⟨"", afterReturn⟩ (row.text ++ b.text).toList =
        (⟨"", next⟩, texts) ∧ Reads texts row.lines := by
  rw [String.toList_append, run_append, Text.run_line row.unbroken, run_break]
  refine ⟨_, _, rfl, ?_⟩
  split
  · rename_i h
    have hempty : row.text = "" := by simpa using (Bool.and_eq_true_iff.mp h.2).2
    exact row.reads_empty hempty
  · exact row.reads

theorem run_written (rows : List (Row × Break)) (last : Row) (afterReturn : Bool) :
    ∃ s texts, run Text.LineScan.step ⟨"", afterReturn⟩ (written rows last).toList =
        (s, texts) ∧ Reads (texts ++ s.rest) (carried rows last) := by
  induction rows generalizing afterReturn with
  | nil =>
      refine ⟨_, _, Text.run_line last.unbroken afterReturn, ?_⟩
      show Reads (if last.text = "" then [] else [last.text]) last.lines
      split
      · rename_i hempty
        exact last.reads_empty hempty
      · exact last.reads
  | cons first rows ih =>
      obtain ⟨row, b⟩ := first
      obtain ⟨next, texts, hrow, hreads⟩ := run_row row b afterReturn
      obtain ⟨s, later, hrows, hlater⟩ := ih next
      have hcarried : carried ((row, b) :: rows) last = row.lines ++ carried rows last := by
        simp [carried]
      refine ⟨s, texts ++ later, ?_, ?_⟩
      · rw [written, String.toList_append, run_append, hrow, hrows]
      · rw [hcarried, List.append_assoc]
        exact hreads.append hlater

/-- The records of a text are read as a log of the lines that they carry. -/
theorem ofText_written (rows : List (Row × Break)) (last : Row) :
    ofText (written rows last) .records = ⟨carried rows last, none⟩ := by
  obtain ⟨s, texts, hrun, hreads⟩ := run_written rows last false
  have hlines : Text.lines (written rows last) = texts ++ s.rest := by
    rw [Text.lines, Text.LineScan.start, hrun]
  obtain ⟨m, hrecords⟩ := hreads 1
  rw [ofText, hlines, ofRecords, RecordScan.start, hrecords]

theorem unbroken_carried (rows : List (Row × Break)) (last : Row) :
    ∀ line ∈ carried rows last, Text.IsUnbroken line := by
  intro line hline
  rcases List.mem_append.mp hline with hline | hline
  · obtain ⟨⟨row, b⟩, -, hrow⟩ := List.mem_flatMap.mp hline
    exact row.unbroken_lines line hrow
  · exact last.unbroken_lines line hline

/-! ## A row for any lines -/

def recordText (lines : List String) : String :=
  "\x7b\"command\":" ++ Json.quote (Text.terminated lines) ++ "\x7d"

theorem parse_recordText (lines : List String) :
    Json.parse (recordText lines) =
      some (.object [("command", .string (Text.terminated lines))]) := by
  have hnone : Json.IsBlank [] := by decide
  have hcommand : Json.Writes (.item (.string (Text.terminated lines)))
      ([] ++ ((Json.quote (Text.terminated lines)).toList ++ [])) :=
    .item hnone hnone (.string (Json.isString_quote _))
  have hmember := Json.Writes.member hnone (Json.isString_quote "command") hnone hcommand
  have hrecord := Json.Writes.item hnone hnone (.object (.lastMember hmember))
  rw [Json.parse_eq_some_iff, Json.IsTextOf]
  simpa [recordText, Json.quote, Json.quotedChar] using hrecord

theorem unbroken_recordText (lines : List String) : Text.IsUnbroken (recordText lines) := by
  have hname : '\r' ∉ "\x7b\"command\":".toList ∧ '\n' ∉ "\x7b\"command\":".toList := by decide
  have hquote := Json.quote_unbroken (Text.terminated lines)
  unfold Text.IsUnbroken at hquote ⊢
  rw [recordText, String.toList_append, String.toList_append]
  simpa [hname] using hquote

def Row.ofLines (lines : List String) (h : ∀ line ∈ lines, Text.IsUnbroken line) : Row where
  text := recordText lines
  lines := lines
  unbroken := unbroken_recordText lines
  unbroken_lines := h
  carries := .command (by rw [parse_recordText]; rfl)

/-- **Records carry a log.** However the lines of a log are cut into the commands of records, with
blank lines and other records between them, and whatever ends each line of the text: the records are
read as the log that a plain text of the lines is read as, and they are converted alike. There is a
record for any lines. -/
theorem records_carry_log :
    (∀ rows last,
        let lines := carried rows last
        let records := Log.ofText (written rows last) .records
        let plain := Log.ofText (Text.terminated lines) .plain
        records = ⟨lines, none⟩ ∧ plain = ⟨lines, none⟩ ∧
          ∀ refuses q, convert refuses q records = convert refuses q plain) ∧
      ∀ group, (∀ line ∈ group, Text.IsUnbroken line) →
        ∃ row : Row, row.text = recordText group ∧ row.lines = group := by
  constructor
  · intro rows last lines records plain
    have hrecords : records = ⟨lines, none⟩ := ofText_written rows last
    have hplain : plain = ⟨lines, none⟩ := by
      show (⟨Text.lines (Text.terminated lines), none⟩ : Log) = _
      rw [Text.lines_terminated (unbroken_carried rows last)]
    refine ⟨hrecords, hplain, ?_⟩
    intro refuses q
    rw [hrecords, hplain]
  · intro group hgroup
    exact ⟨Row.ofLines group hgroup, rfl, rfl⟩

/-- A section is cut behind its marker. Between the two records stand an empty line, which the break
of the first swallows, a blank line and a record that is no object. -/
theorem log_of_cut_section :
    let first := "\x7b\"n\":[1e3,null],\"command\":\"CompileC a.o\\u000a\"\x7d"
    let second := recordText ["cd /w", "", "cc -c a.c -o a.o"]
    Log.ofText (first ++ "\r\n\t\n[\"command\"]\r\n" ++ second) .records =
      Log.ofText "CompileC a.o\ncd /w\n\ncc -c a.c -o a.o\n" .plain := by
  intro first second
  have hfirst : (Json.parse first).map commandOf? = some (some "CompileC a.o\n") := by
    decide +kernel
  have hforeign : (Json.parse "[\"command\"]").map commandOf? = some none := by decide +kernel
  have hmarker : ∀ line ∈ ["CompileC a.o"], Text.IsUnbroken line := by
    simp [Text.IsUnbroken]
  have hrest : ∀ line ∈ ["cd /w", "", "cc -c a.c -o a.o"], Text.IsUnbroken line := by
    simp [Text.IsUnbroken]
  let rows : List (Row × Break) :=
    [(⟨first, _, ⟨by decide, by decide⟩, hmarker, .command hfirst⟩, .carriageReturn),
      (⟨"", [], ⟨by decide, by decide⟩, by simp, .blank rfl⟩, .lineFeed),
      (⟨"\t", [], ⟨by decide, by decide⟩, by simp, .blank rfl⟩, .lineFeed),
      (⟨"[\"command\"]", [], ⟨by decide, by decide⟩, by simp, .foreign hforeign⟩, .returnFeed)]
  obtain ⟨hrecords, hplain, -⟩ := records_carry_log.1 rows (.ofLines _ hrest)
  exact hrecords.trans hplain.symm

end Log

end CompileCommands
