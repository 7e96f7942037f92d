import CompileCommands.Proofs.Json.Grammar
import CompileCommands.Proofs.Log.Breaks
import Mathlib.Order.Bounds.Defs

/-!
# The first line that is no record

A JSON-lines text is read line by line as far as each line is blank or JSON. The lines of the log
are those of the commands, in their order. The first other line ends the log: it is named by its own
number, blank lines and lines without a command counted, and nothing behind it is looked at
(`records_until_invalid`). What is JSON, and which text is the command of a record, is told by the
grammar (`HasCommand`, `IsInvalid`), not by the reader.
-/

namespace CompileCommands

/-- The member that counts for a key is the last one with the key. -/
theorem Json.Value.member?_eq_some_iff {key : String} {v w : Json.Value} :
    v.member? key = some w ↔
      ∃ front back, v = .object (front ++ (key, w) :: back) ∧ ∀ m ∈ back, m.1 ≠ key := by
  constructor
  · intro h
    unfold member? at h
    split at h
    · rename_i ms
      obtain ⟨later, earlier, hms, hlater⟩ := List.lookup_eq_some_iff.mp h
      refine ⟨earlier.reverse, later.reverse, ?_, ?_⟩
      · rw [← List.reverse_reverse ms, hms]
        simp
      · intro m hm
        have hne := hlater m (List.mem_reverse.mp hm)
        exact Ne.symm (bne_iff_ne.mp hne)
    · cases h
  · rintro ⟨front, back, rfl, hback⟩
    show (front ++ (key, w) :: back).reverse.lookup key = some w
    refine List.lookup_eq_some_iff.mpr ⟨back.reverse, front.reverse, by simp, ?_⟩
    intro m hm
    exact bne_iff_ne.mpr (hback m (List.mem_reverse.mp hm)).symm

namespace Log

open Transducer

/-- The line is an object of JSON, and this text is the last of its members called `command`. -/
def HasCommand (line command : String) : Prop :=
  ∃ front back, Json.IsTextOf line (.object (front ++ ("command", .string command) :: back)) ∧
    ∀ m ∈ back, m.1 ≠ "command"

/-- Something stands on the line, and it is no JSON. -/
def IsInvalid (line : String) : Prop :=
  Text.trim line.toList ≠ [] ∧ ∀ v, ¬ Json.IsTextOf line v

def command? (line : String) : Option String := (Json.parse line).bind commandOf?

def commandLines (records : List String) : List String :=
  (records.filterMap command?).flatMap Text.lines

/-- The first line that is neither blank nor JSON stands behind this many others. -/
def IsFirstInvalid (records : List String) (n : Nat) : Prop :=
  IsLeast {i | ∃ line, records[i]? = some line ∧ IsInvalid line} n

variable {line : String} {records front back : List String} {n : Nat}

/-! ## What a line is -/

theorem commandOf?_eq_some_iff {record : Json.Value} {command : String} :
    commandOf? record = some command ↔ record.member? "command" = some (.string command) := by
  unfold commandOf?
  split
  · rename_i text hmember
    rw [hmember, Option.some.injEq, Option.some.injEq, Json.Value.string.injEq]
  · rename_i hmember
    constructor
    · intro h
      cases h
    · intro h
      exact absurd h (hmember command)

theorem command?_eq_some_iff {command : String} :
    command? line = some command ↔ HasCommand line command := by
  unfold command?
  rw [Option.bind_eq_some_iff]
  constructor
  · rintro ⟨record, hparse, h⟩
    rw [commandOf?_eq_some_iff] at h
    obtain ⟨front, back, rfl, hback⟩ := Json.Value.member?_eq_some_iff.mp h
    exact ⟨front, back, Json.parse_eq_some_iff.mp hparse, hback⟩
  · rintro ⟨front, back, htext, hback⟩
    refine ⟨_, Json.parse_eq_some_iff.mpr htext, commandOf?_eq_some_iff.mpr ?_⟩
    exact Json.Value.member?_eq_some_iff.mpr ⟨front, back, rfl, hback⟩

theorem isInvalid_iff :
    IsInvalid line ↔ Text.isEmptyLine line = false ∧ Json.parse line = none := by
  have hblank : Text.trim line.toList = [] ↔ Text.isEmptyLine line = true := by
    rw [Text.isEmptyLine, List.all_eq_true]
    exact Text.trim_eq_nil_iff
  have hjson : (∀ v, ¬ Json.IsTextOf line v) ↔ Json.parse line = none := by
    simp only [← Json.parse_eq_some_iff]
    exact Option.eq_none_iff_forall_ne_some.symm
  rw [IsInvalid, hjson, Ne, hblank, Bool.not_eq_true]

instance (line : String) : Decidable (IsInvalid line) :=
  decidable_of_iff (Text.isEmptyLine line = false ∧ (Json.parse line).isNone = true)
    (by rw [isInvalid_iff, Option.isNone_iff_eq_none])

/-! ## One line -/

theorem step_of_invalid (h : IsInvalid line) (n : Nat) :
    RecordScan.step ⟨n, none⟩ line = (⟨n, some (.invalidRecord n RecordScan.reason)⟩, []) := by
  obtain ⟨hblank, hparse⟩ := isInvalid_iff.mp h
  rw [RecordScan.step, if_neg (by simp), if_neg (by simp [hblank]), hparse]

theorem step_of_valid (h : ¬ IsInvalid line) (n : Nat) :
    RecordScan.step ⟨n, none⟩ line = (⟨n + 1, none⟩, ((command? line).map Text.lines).getD []) := by
  unfold command?
  cases hparse : Json.parse line with
  | some record => exact step_of_record hparse n
  | none =>
      have hblank : Text.isEmptyLine line = true := by
        by_contra hblank
        exact h (isInvalid_iff.mpr ⟨by simpa using hblank, hparse⟩)
      exact step_of_blank hblank n

/-! ## Runs of lines -/

theorem commandLines_cons (line : String) (records : List String) :
    commandLines (line :: records) =
      ((command? line).map Text.lines).getD [] ++ commandLines records := by
  unfold commandLines
  cases hcommand : command? line with
  | none =>
      rw [List.filterMap_cons_none hcommand]
      rfl
  | some command =>
      rw [List.filterMap_cons_some hcommand]
      rfl

theorem run_valid (h : ∀ line ∈ records, ¬ IsInvalid line) (n : Nat) :
    run RecordScan.step ⟨n, none⟩ records = (⟨n + records.length, none⟩, commandLines records) := by
  induction records generalizing n with
  | nil => rfl
  | cons line records ih =>
      have hlater := ih (fun l hl => h l (List.mem_cons_of_mem _ hl)) (n + 1)
      rw [run_cons, step_of_valid (h line List.mem_cons_self), hlater, commandLines_cons,
        List.length_cons, Nat.add_assoc, Nat.add_comm 1]

/-- Behind a failure nothing is read. -/
theorem run_failed (n : Nat) (failure : Failure) (records : List String) :
    run RecordScan.step ⟨n, some failure⟩ records = (⟨n, some failure⟩, []) := by
  rw [run_of_still fun _ => []]
  · simp
  · intro line _
    rfl

theorem ofRecords_valid (h : ∀ line ∈ records, ¬ IsInvalid line) :
    ofRecords records = ⟨commandLines records, none⟩ := by
  rw [ofRecords, RecordScan.start, run_valid h]

theorem ofRecords_invalid (hfront : ∀ l ∈ front, ¬ IsInvalid l) (hline : IsInvalid line) :
    ofRecords (front ++ line :: back) =
      ⟨commandLines front, some (.invalidRecord (front.length + 1) RecordScan.reason)⟩ := by
  rw [ofRecords, RecordScan.start, run_append, run_valid hfront, run_cons, step_of_invalid hline,
    run_failed, Nat.add_comm 1]
  simp

/-! ## The place of the first invalid line -/

theorem isFirstInvalid_iff :
    IsFirstInvalid records n ↔
      ∃ front line back, records = front ++ line :: back ∧ front.length = n ∧ IsInvalid line ∧
        ∀ l ∈ front, ¬ IsInvalid l := by
  constructor
  · rintro ⟨⟨line, hline, hinvalid⟩, hleast⟩
    obtain ⟨hn, rfl⟩ := List.getElem?_eq_some_iff.mp hline
    refine ⟨records.take n, records[n], records.drop (n + 1), ?_, ?_, hinvalid, ?_⟩
    · rw [← List.drop_eq_getElem_cons hn, List.take_append_drop]
    · exact List.length_take_of_le hn.le
    · intro l hl hbad
      obtain ⟨i, hi, rfl⟩ := List.mem_take_iff_getElem.mp hl
      have hle : n ≤ i := hleast ⟨_, List.getElem?_eq_getElem _, hbad⟩
      omega
  · rintro ⟨front, line, back, rfl, rfl, hinvalid, hfront⟩
    refine ⟨⟨line, by simp, hinvalid⟩, ?_⟩
    rintro i ⟨l, hl, hbad⟩
    by_contra hlt
    rw [List.getElem?_append_left (by omega)] at hl
    exact hfront l (List.mem_of_getElem? hl) hbad

/-- Lines behind the first invalid one make no difference. -/
theorem ofRecords_of_take (h : IsFirstInvalid records n) {records' : List String}
    (htake : records'.take (n + 1) = records.take (n + 1)) :
    ofRecords records' = ofRecords records := by
  obtain ⟨front, line, back, rfl, rfl, hinvalid, hfront⟩ := isFirstInvalid_iff.mp h
  have hrecords' : records' = front ++ line :: records'.drop (front.length + 1) := by
    calc records' = records'.take (front.length + 1) ++ records'.drop (front.length + 1) :=
          (List.take_append_drop _ _).symm
      _ = front ++ line :: records'.drop (front.length + 1) := by
          rw [htake, List.take_length_add_append]
          simp
  rw [hrecords', ofRecords_invalid hfront hinvalid, ofRecords_invalid hfront hinvalid]

/-- **Records are read up to the first line that is none.** The commands of records are told by the
grammar of JSON, the last member of a name counting. If each line is blank or JSON, the log has the
lines of all commands and no failure. Else it has those before the first other line, and the failure
names that line by its number, with every line before it counted. Nothing behind that line makes a
difference, neither other lines nor another text. -/
theorem records_until_invalid (text : String) :
    let records := Text.lines text
    let log := Log.ofText text .records
    (∀ line command, command? line = some command ↔ HasCommand line command) ∧
      ((∀ line ∈ records, ¬ IsInvalid line) → log = ⟨commandLines records, none⟩) ∧
      ∀ n, IsFirstInvalid records n →
        log = ⟨commandLines (records.take n),
            some (.invalidRecord (n + 1) RecordScan.reason)⟩ ∧
          (∀ text', (Text.lines text').take (n + 1) = records.take (n + 1) →
            Log.ofText text' .records = log) ∧
          ∀ front back, text = front ++ back → EndsInBreak front →
            n < (Text.lines front).length →
              ∀ back', Log.ofText (front ++ back') .records = log := by
  intro records log
  refine ⟨fun line command => command?_eq_some_iff, ofRecords_valid, ?_⟩
  intro n hn
  have hsame : ∀ text', (Text.lines text').take (n + 1) = records.take (n + 1) →
      Log.ofText text' .records = log := fun text' htake => ofRecords_of_take hn htake
  refine ⟨?_, hsame, ?_⟩
  · obtain ⟨front, line, back, hrecords, rfl, hinvalid, hfront⟩ := isFirstInvalid_iff.mp hn
    show ofRecords records = _
    rw [hrecords, ofRecords_invalid hfront hinvalid, List.take_left]
  · intro front back htext hbreak hlength back'
    have htake : ∀ behind, (Text.lines (front ++ behind)).take (n + 1) =
        (Text.lines front).take (n + 1) := by
      intro behind
      obtain ⟨later, hlater⟩ := lines_prefix hbreak behind
      rw [← hlater, List.take_append_of_le_length hlength]
    apply hsame
    show _ = (Text.lines text).take (n + 1)
    rw [htake, htext, htake]

/-- The fifth line is the first that is no JSON. Before it stand a record of two lines, a blank
line, a list, and a record that has its command twice. A text without such a line ends with no
failure. -/
theorem log_of_broken_records :
    let twice := "\x7b\"command\":1,\"command\":\"c\"\x7d"
    let front := "\x7b\"command\":\"a\\nb\"\x7d\r\n\t\r[1]\n" ++ twice ++ "\nx\r"
    let last := "\x7b\"command\":\"d\"\x7d"
    HasCommand twice "c" ∧
      Log.ofText (front ++ last) .records =
        ⟨["a", "b", "c"], some (.invalidRecord 5 RecordScan.reason)⟩ ∧
      Log.ofText (front ++ "\x7b") .records = Log.ofText (front ++ last) .records ∧
      Log.ofText "\u00a0\n\x7b\"command\":null\x7d" .records = ⟨[], none⟩ := by
  intro twice front last
  have hrecords : Text.lines (front ++ last) =
      ["\x7b\"command\":\"a\\nb\"\x7d", "\t", "[1]", twice] ++ "x" :: [last] := by
    decide +kernel
  have hfirst : IsFirstInvalid (Text.lines (front ++ last)) 4 :=
    isFirstInvalid_iff.mpr ⟨_, _, _, hrecords, rfl, by decide +kernel, by decide +kernel⟩
  have hcommands : commandLines ((Text.lines (front ++ last)).take 4) = ["a", "b", "c"] := by
    decide +kernel
  have hbreak : EndsInBreak front := by
    left
    unfold EndsWith
    decide +kernel
  obtain ⟨hcommand, -, hstopped⟩ := records_until_invalid (front ++ last)
  obtain ⟨hlog, -, hbehind⟩ := hstopped 4 hfirst
  rw [hcommands] at hlog
  refine ⟨(hcommand _ _).mp (by decide +kernel), hlog, ?_, ?_⟩
  · exact hbehind front last rfl hbreak (by decide +kernel) "\x7b"
  · obtain ⟨-, hall, -⟩ := records_until_invalid "\u00a0\n\x7b\"command\":null\x7d"
    have hlines : commandLines (Text.lines "\u00a0\n\x7b\"command\":null\x7d") = [] := by
      decide +kernel
    rw [hall (by decide +kernel), hlines]

end Log

end CompileCommands
