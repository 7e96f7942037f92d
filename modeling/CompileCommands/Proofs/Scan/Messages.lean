import CompileCommands.Proofs.Scan.FileExclusion
import CompileCommands.Proofs.Scan.Joined
import CompileCommands.Proofs.Shell.Sequence

/-!
# Messages

A message names paths of the log, and a path may hold anything: quotes, line breaks, the words of
another message. The text of a message is a row of words escaped for the shell, with a line feed
behind it (`Message.text_eq`), so the shell reads the words back with the paths in their places
(`Message.words_text`). No message has the words of another in front of its own
(`Message.row_append_cancel`), and what is told one after the other can be told in no other way
(`Message.output_injective`).

Each message stands in the row of events right behind what it tells of (`messages_of_scan`).
-/

namespace CompileCommands

theorem SectionKind.name_injective {kind kind' : SectionKind} (h : kind.name = kind'.name) :
    kind = kind' := by
  cases kind <;> cases kind' <;> first | rfl | exact absurd h (by decide)

namespace Message

open Shell

/-! ## Words -/

def row : Message → List String
  | excludedSection kind directory =>
      ["Skipping", kind.name, "section", "in", "excluded", directory]
  | excludedFile file => ["Skipping", "excluded", "file", file]
  | builtHeader mapping =>
      ["Precompiled", "header", mapping.artifact, "is", "built", "from", mapping.source]
  | openSection kind directory =>
      ["Log", "ended", "before", "the", "compiler", "invocation", "of", "the", kind.name,
        "section", "in", directory]

def vocabulary : List String :=
  ["Skipping", "compile", "precompile", "section", "in", "excluded", "file", "Precompiled",
    "header", "is", "built", "from", "Log", "ended", "before", "the", "compiler", "invocation",
    "of"]

theorem escape_vocabulary : ∀ word ∈ vocabulary, escape word = word := by decide +kernel

theorem escape_name (kind : SectionKind) : escape kind.name = kind.name := by
  apply escape_vocabulary
  cases kind <;> decide

theorem text_eq (m : Message) : m.text = escapeAll m.row ++ "\n" := by
  have hplain := escape_vocabulary
  simp only [vocabulary, List.forall_mem_cons] at hplain
  apply String.toList_injective
  cases m with
  | excludedSection kind directory =>
      show ("Skipping " ++ kind.name ++ " section in excluded " ++ escape directory ++
        "\n").toList = _
      simp [row, escapeAll_cons, escapeAll_singleton, escape_name, hplain]
  | excludedFile file =>
      show ("Skipping excluded file " ++ escape file ++ "\n").toList = _
      simp [row, escapeAll_cons, escapeAll_singleton, hplain]
  | builtHeader mapping =>
      show ("Precompiled header " ++ escape mapping.artifact ++ " is built from " ++
        escape mapping.source ++ "\n").toList = _
      simp [row, escapeAll_cons, escapeAll_singleton, hplain]
  | openSection kind directory =>
      show ("Log ended before the compiler invocation of the " ++ kind.name ++ " section in " ++
        escape directory ++ "\n").toList = _
      simp [row, escapeAll_cons, escapeAll_singleton, escape_name, hplain]

theorem getLast?_text (m : Message) : m.text.toList.getLast? = some '\n' := by
  rw [text_eq, String.toList_append]
  exact List.getLast?_concat

/-- Messages one after the other are read as their words one after the other. -/
theorem words_output (ms : List Message) :
    words (String.join (ms.map text)) = .ok (ms.flatMap row) := by
  have htexts : (String.join (ms.map text)).toList =
      (ms.flatMap fun m => (escapeAll m.row).toList ++ ['\n']) ++ [] := by
    rw [String.toList_join, List.flatMap_map, List.append_nil]
    exact List.flatMap_congr fun m _ => by rw [text_eq, String.toList_append]; rfl
  have hfeed : isBlank '\n' = true := rfl
  rw [words_eq_ok_iff, htexts, readWords_sequence hfeed [] fun m _ => readWords_escaped m.row]
  exact congrArg Except.ok (List.append_nil _)

theorem words_text (m : Message) : words m.text = .ok m.row := by
  simpa using words_output [m]

/-! ## No message in another -/

theorem row_append_cancel {m m' : Message} {rest rest' : List String}
    (h : m.row ++ rest = m'.row ++ rest') : m = m' ∧ rest = rest' := by
  have hname : ∀ kind : SectionKind, kind.name ≠ "excluded" := by
    intro kind
    cases kind <;> decide
  cases m with
  | excludedSection kind directory =>
      cases m' with
      | excludedSection kind' directory' =>
          obtain ⟨hkind, rfl, rfl⟩ : kind.name = kind'.name ∧ directory = directory' ∧
            rest = rest' := by simpa [row] using h
          obtain rfl := SectionKind.name_injective hkind
          exact ⟨rfl, rfl⟩
      | excludedFile file => simp [row, hname] at h
      | builtHeader mapping => simp [row] at h
      | openSection kind' directory' => simp [row] at h
  | excludedFile file =>
      cases m' with
      | excludedSection kind' directory' => simp [row, (hname _).symm] at h
      | excludedFile file' => simpa [row] using h
      | builtHeader mapping => simp [row] at h
      | openSection kind' directory' => simp [row] at h
  | builtHeader mapping =>
      cases m' with
      | builtHeader mapping' =>
          obtain ⟨artifact, source⟩ := mapping
          obtain ⟨artifact', source'⟩ := mapping'
          simpa [row, and_assoc] using h
      | _ => simp [row] at h
  | openSection kind directory =>
      cases m' with
      | openSection kind' directory' =>
          obtain ⟨hkind, rfl, rfl⟩ : kind.name = kind'.name ∧ directory = directory' ∧
            rest = rest' := by simpa [row] using h
          obtain rfl := SectionKind.name_injective hkind
          exact ⟨rfl, rfl⟩
      | _ => simp [row] at h

theorem row_injective : Function.Injective row := fun _ _ h =>
  (row_append_cancel (congrArg (· ++ []) h)).1

theorem row_ne_nil (m : Message) : m.row ≠ [] := by
  cases m <;> simp [row]

theorem flatMap_row_injective : ∀ {ms ms' : List Message},
    ms.flatMap row = ms'.flatMap row → ms = ms'
  | [], [], _ => rfl
  | [], m' :: ms', h => absurd h.symm (by simp [row_ne_nil])
  | m :: ms, [], h => absurd h (by simp [row_ne_nil])
  | m :: ms, m' :: ms', h => by
      rw [List.flatMap_cons, List.flatMap_cons] at h
      obtain ⟨rfl, hrest⟩ := row_append_cancel h
      rw [flatMap_row_injective hrest]

/-- Whatever the paths, the messages told can be read off all that has been told. -/
theorem output_injective :
    Function.Injective fun ms : List Message => String.join (ms.map text) := by
  intro ms ms' h
  have hwords := congrArg words h
  simp only [words_output] at hwords
  exact flatMap_row_injective (Except.ok.inj hwords)

end Message

namespace Scan

open Transducer

/-! ## What a message tells of -/

/-- The last section that these lines open, with the lines behind its directory line as its body:
no section is open before its marker. -/
def Opens (excludes : String → Bool) (lines : List String) (kind : SectionKind)
    (directory : String) (body : List String) : Prop :=
  ∃ earlier marker directoryLine, lines = earlier ++ marker :: directoryLine :: body ∧
    NoneOpen excludes earlier ∧ SectionKind.ofLine? marker = some kind ∧
    Command.directory directoryLine = directory

/-- What a message tells of, where these events stand before it. -/
inductive Told (q : Questions) (known : HeaderTable) (log : Log) (before : List Event) :
    Message → Prop
  | excludedSection {kind : SectionKind} {directory : String}
      (hsection : Opens q.excludesDirectory (Trace.pulled before) kind directory [])
      (hasked : before.getLast? = some (.askedDirectory directory))
      (hexcluded : q.excludesDirectory directory = true) :
      Told q known log before (.excludedSection kind directory)
  | excludedFile {read : List String} {line file : String}
      (hpulled : Trace.pulled before = read ++ [line]) (hfile : CompiledBy line file)
      (hasked : before.getLast? = some (.askedFile file))
      (hexcluded : q.excludesFile file = true) : Told q known log before (.excludedFile file)
  | builtHeader {read : List String} {line : String} {mapping : HeaderMapping}
      (hpulled : Trace.pulled before = read ++ [line])
      (hline : Command.mapping? line = .ok (some mapping))
      (hmapped : before.getLast? = some (.mapped mapping))
      (hstored : (run (step q) (start known) (Trace.pulled before)).1.table.get? mapping.artifact =
        some mapping.source) : Told q known log before (.builtHeader mapping)
  | openSection {kind : SectionKind} {directory : String} {body : List String}
      (hpulled : Trace.pulled before = log.lines) (hends : log.failure = none)
      (hsection : Opens q.excludesDirectory log.lines kind directory body)
      (hkept : q.excludesDirectory directory = false)
      (hbody : ∀ line ∈ body, Command.isInvocation line = false) :
      Told q known log before (.openSection kind directory)

/-! ## Messages at a line -/

theorem no_message {events answers more : List Event} {m : Message}
    (hnone : Trace.messages events = []) : events ≠ answers ++ .logged m :: more := by
  rintro rfl
  rw [messages_append, List.append_eq_nil_iff] at hnone
  cases hnone.2

theorem last_message {front answers more : List Event} {told m : Message}
    (hnone : Trace.messages front = [])
    (h : front ++ [.logged told] = answers ++ .logged m :: more) : answers = front ∧ m = told := by
  rcases append_eq_append_cons h with ⟨later, hfront, -⟩ | ⟨earlier, rfl, hlast⟩
  · exact absurd hfront (no_message hnone)
  · cases earlier with
    | nil =>
        cases hlast
        exact ⟨List.append_nil _, rfl⟩
    | cons first earlier => simp at hlast

/-- At the invocation of a compile section the file of an entry is told that is left out. -/
theorem logged_at_compile (q : Questions) {table : HeaderTable} {line directory : String}
    {answers more : List Event} {m : Message}
    (h : (takeCompile q table line directory).2 = answers ++ .logged m :: more) :
    ∃ entry asked, (Command.compile q.fileExists table line directory).result = .ok entry ∧
      q.excludesFile entry.file = true ∧ answers = asked ++ [.askedFile entry.file] ∧
      m = .excludedFile entry.file := by
  let paths := (Command.compile q.fileExists table line directory).asked
  have hasked : Trace.messages (paths.map .askedExists) = [] := unseen (fun _ => rfl) paths
  cases hresult : (Command.compile q.fileExists table line directory).result with
  | error failure =>
      rw [takeCompile_of_error hresult] at h
      refine absurd h (no_message ?_)
      rw [messages_append, hasked]
      rfl
  | ok entry =>
      rw [takeCompile_of_ok hresult] at h
      by_cases hexcluded : q.excludesFile entry.file = true
      · have htold : paths.map .askedExists ++ [.askedFile entry.file] ++
            [.logged (.excludedFile entry.file)] = answers ++ .logged m :: more := by
          rw [← h, if_pos hexcluded, List.append_assoc]
          rfl
        have hnone : Trace.messages (paths.map .askedExists ++ [.askedFile entry.file]) = [] := by
          rw [messages_append, hasked]
          rfl
        obtain ⟨hanswers, hm⟩ := last_message hnone htold
        exact ⟨entry, paths.map .askedExists, rfl, hexcluded, hanswers, hm⟩
      · rw [if_neg hexcluded] at h
        refine absurd h (no_message ?_)
        rw [messages_append, hasked]
        rfl

theorem take_of_mapping (q : Questions) {s : Scan} {line directory : String}
    {mapping : HeaderMapping} (hclosing : Closing s line .precompile directory)
    (hmapping : Command.mapping? line = .ok (some mapping)) :
    s.take q line =
      (⟨s.table.insert mapping, .between⟩, [.mapped mapping, .logged (.builtHeader mapping)]) := by
  simp only [take, hclosing.1, if_pos hclosing.2, takePrecompile, hmapping]
  rfl

/-- At the invocation of a precompile section its mapping is told. -/
theorem logged_at_precompile (q : Questions) {s : Scan} {line directory : String}
    (hclosing : Closing s line .precompile directory) {answers more : List Event} {m : Message}
    (h : (s.take q line).2 = answers ++ .logged m :: more) :
    ∃ mapping, Command.mapping? line = .ok (some mapping) ∧
      (s.take q line).1.table = s.table.insert mapping ∧ answers = [.mapped mapping] ∧
      m = .builtHeader mapping := by
  obtain ⟨mapping, hmapping⟩ := mapping?_of_isInvocation hclosing.2
  cases mapping with
  | none => simp [take, hclosing.1, hclosing.2, takePrecompile, hmapping] at h
  | some mapping =>
      have htake := take_of_mapping q hclosing hmapping
      rw [htake] at h ⊢
      have htold : [.mapped mapping] ++ [.logged (.builtHeader mapping)] =
        answers ++ .logged m :: more := h
      obtain ⟨hanswers, hm⟩ := last_message rfl htold
      exact ⟨mapping, hmapping, rfl, hanswers, hm⟩

/-- At a directory line it is told that the section is left out. -/
theorem logged_at_directory (q : Questions) {s : Scan} {line : String} {kind : SectionKind}
    (hphase : s.phase = .marked kind) {answers more : List Event} {m : Message}
    (h : (s.take q line).2 = answers ++ .logged m :: more) :
    q.excludesDirectory (Command.directory line) = true ∧
      answers = [.askedDirectory (Command.directory line)] ∧
      m = .excludedSection kind (Command.directory line) := by
  by_cases hexcluded : q.excludesDirectory (Command.directory line) = true
  · simp only [take, hphase, if_pos hexcluded] at h
    have htold : [.askedDirectory (Command.directory line)] ++
        [.logged (.excludedSection kind (Command.directory line))] =
      answers ++ .logged m :: more := h
    obtain ⟨hanswers, hm⟩ := last_message rfl htold
    exact ⟨hexcluded, hanswers, hm⟩
  · simp only [take, hphase, if_neg hexcluded] at h
    exact absurd h (no_message rfl)

/-- Where the log ends it is told that a section is open. -/
theorem logged_at_end {s : Scan} {failure : Option Failure} {answers more : List Event}
    {m : Message} (h : s.finish failure = answers ++ .logged m :: more) :
    ∃ kind directory, s.phase = .seeking kind directory ∧ failure = none ∧ answers = [] ∧
      m = .openSection kind directory := by
  obtain ⟨table, phase⟩ := s
  cases failure with
  | some f => cases phase <;> exact absurd h (no_message rfl)
  | none =>
      cases phase with
      | seeking kind directory =>
          rcases List.cons_eq_append_iff.mp h with ⟨rfl, hfirst⟩ | ⟨answers, rfl, hlast⟩
          · cases hfirst
            exact ⟨kind, directory, rfl, rfl, rfl, rfl⟩
          · exact absurd hlast (no_message rfl)
      | _ => exact absurd h (no_message rfl)

/-! ## Messages of a scan -/

/-- A message among the answers to a line tells of what stands before it. -/
theorem told_at_line {q : Questions} {known : HeaderTable} {log : Log} {read : List String}
    {line : String} {answers more : List Event} {m : Message}
    (hrunning : (run (step q) (start known) read).1.phase ≠ .stopped)
    (h : ((run (step q) (start known) read).1.take q line).2 = answers ++ .logged m :: more) :
    Told q known log ((run (step q) (start known) read).2 ++ .pulled line :: answers) m := by
  have houtline := phase_of_running q hrunning
  have hpulled : Trace.pulled ((run (step q) (start known) read).2 ++ .pulled line :: answers) =
      read ++ [line] := by
    have hnone := pulled_take q (run (step q) (start known) read).1 line
    rw [h, pulled_append, List.append_eq_nil_iff] at hnone
    rw [pulled_append, pulled_of_running q hrunning]
    exact congrArg (read ++ line :: ·) hnone.1
  have hlast : ∀ (asked : List Event) (e : Event), answers = asked ++ [e] →
      ((run (step q) (start known) read).2 ++ .pulled line :: answers).getLast? = some e := by
    rintro asked e rfl
    rw [← List.cons_append, ← List.append_assoc, List.getLast?_concat]
  cases hphase : (run (step q) (start known) read).1.phase with
  | stopped => exact absurd hphase hrunning
  | between => simp [take, hphase] at h
  | marked kind =>
      obtain ⟨hexcluded, hanswers, rfl⟩ := logged_at_directory q hphase h
      obtain ⟨earlier, marker, rfl, hbetween, hkind⟩ := exists_marker (houtline.symm.trans hphase)
      refine .excludedSection ?_ (hlast [] _ hanswers) hexcluded
      rw [hpulled]
      exact ⟨earlier, marker, line, by simp, outline_between_iff.mp hbetween, hkind, rfl⟩
  | seeking kind directory =>
      by_cases hline : Command.isInvocation line = true
      · cases kind with
        | compile =>
            rw [take_of_closing_compile q ⟨hphase, hline⟩] at h
            obtain ⟨entry, asked, hresult, hexcluded, hanswers, rfl⟩ := logged_at_compile q h
            exact .excludedFile hpulled (compiledBy_of_result hline hresult)
              (hlast asked _ hanswers) hexcluded
        | precompile =>
            obtain ⟨mapping, hmapping, htable, hanswers, rfl⟩ :=
              logged_at_precompile q ⟨hphase, hline⟩ h
            refine .builtHeader hpulled hmapping (hlast [] _ hanswers) ?_
            rw [hpulled, run_concat, step_of_running hrunning, htable, HeaderTable.get?_insert,
              if_pos rfl]
      · simp [take, hphase, hline] at h

/-- A message where the log ends tells of the section that is open there. -/
theorem told_at_end {q : Questions} {known : HeaderTable} {log : Log} {answers more : List Event}
    {m : Message}
    (h : (run (step q) (start known) log.lines).1.finish log.failure =
      answers ++ .logged m :: more) :
    Told q known log ((run (step q) (start known) log.lines).2 ++ answers) m := by
  obtain ⟨kind, directory, hphase, hends, rfl, rfl⟩ := logged_at_end h
  have hrunning : (run (step q) (start known) log.lines).1.phase ≠ .stopped := by simp [hphase]
  obtain ⟨earlier, marker, directoryLine, body, hlines, hbetween, hkind, hdirectory, hkept,
    hbody⟩ := exists_opening ((phase_of_running q hrunning).symm.trans hphase)
  refine .openSection ?_ hends ⟨earlier, marker, directoryLine, hlines,
    outline_between_iff.mp hbetween, hkind, hdirectory⟩ hkept hbody
  rw [List.append_nil]
  exact pulled_of_running q hrunning

/-- **Messages cannot be forged.** Each message of a scan ends with a line feed, and the shell reads
it as the words of the message, with the paths as they are, whatever characters they hold; no other
message is read so. It stands right behind what it tells of: the question about the directory or the
file that is left out, or the mapping that is then in the table; or else the log is at its end, and
the section is open there. -/
theorem messages_of_scan (q : Questions) (known : HeaderTable) (log : Log)
    (before after : List Event) (m : Message)
    (h : trace q known log = before ++ .logged m :: after) :
    m.text.toList.getLast? = some '\n' ∧ Shell.words m.text = .ok m.row ∧
      (∀ m' : Message, m'.row = m.row → m' = m) ∧ Told q known log before m := by
  refine ⟨m.getLast?_text, m.words_text, fun m' hrow => Message.row_injective hrow, ?_⟩
  rw [trace_eq] at h
  rcases append_eq_append_cons h with ⟨later, hrun, -⟩ | ⟨answers, rfl, hfinish⟩
  · obtain ⟨read, line, -, -, hrunning, ⟨hline, -⟩ | ⟨answers, more, rfl, hanswers⟩⟩ :=
      exists_line_at q hrun
    · cases hline
    · exact told_at_line hrunning hanswers
  · exact told_at_end hfinish

/-- The directory has a single quote in it, and a line that reads like a message of its own. -/
theorem message_of_forging_directory :
    let q : Questions := ⟨fun _ => true, fun _ => false, fun _ => false⟩
    let directory := "it's\nSkipping excluded file b.c"
    let lines := ["CompileC a.o", "cd \"it's\nSkipping excluded file b.c\""]
    let before := lines.map Event.pulled ++ [.askedDirectory directory]
    let m : Message := .excludedSection .compile directory
    trace q .empty ⟨lines, none⟩ = before ++ .logged m :: [.ended] ∧
      m.text = "Skipping compile section in excluded 'it'\"'\"'s\nSkipping excluded file b.c'\n" ∧
      m.text.toList.getLast? = some '\n' ∧
      Shell.words m.text = .ok ["Skipping", "compile", "section", "in", "excluded", directory] ∧
      (∀ m' : Message, m'.row = m.row → m' = m) ∧ Told q .empty ⟨lines, none⟩ before m := by
  intro q directory lines before m
  have htrace : trace q .empty ⟨lines, none⟩ = before ++ .logged m :: [.ended] := by
    decide +kernel
  have htext : m.text =
      "Skipping compile section in excluded 'it'\"'\"'s\nSkipping excluded file b.c'\n" := by
    decide +kernel
  exact ⟨htrace, htext, messages_of_scan q .empty ⟨lines, none⟩ before [.ended] m htrace⟩

end Scan

end CompileCommands
