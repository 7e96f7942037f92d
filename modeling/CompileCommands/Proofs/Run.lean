import CompileCommands.Proofs.Conversion
import CompileCommands.Proofs.Exclusion
import CompileCommands.Proofs.FileSystem
import CompileCommands.Proofs.Text.Utf8
import CompileCommands.Run

/-!
# What a run leaves

A run into a file comes to a summary, or something refuses it before it has touched anything, or it
fails while it converts (`run_ends`). All that it may change is the file that its output leads to,
and the name of the output. A summary means the whole database where the file keeps what is written
into it and takes each write whole. A failure means that the name is gone where it can be removed,
and the file with it where it has no other name; where nothing had the name before, it is as if
nothing had been run. None of these conditions can be left out (`run_leaves_part`).
-/

namespace CompileCommands

/-! ## Failures of a log -/

namespace Log

end Log

namespace Run

/-! ## The endings -/

section Endings

variable (input : String) (options : Options) (files : FileSystem) (standardInput : List UInt8)

def InputHolds (bytes : List UInt8) : Prop :=
  if input = Log.standardInput then standardInput = bytes else files.read input = .ok bytes

/-- What refuses a run: the first pattern that is none, else the input, else the output. -/
inductive Obstacle : Failure → Prop
  | pattern {text reason : String} (hfault : Exclusion.FirstFault options.patterns text reason) :
      Obstacle (.invalidPattern text reason)
  | missing (hpatterns : ∀ text ∈ options.patterns, Exclusion.IsPattern text)
      (hinput : input ≠ Log.standardInput) (hmissing : files.exists? input = false) :
      Obstacle (.inputNotFound input)
  | directory (hpatterns : ∀ text ∈ options.patterns, Exclusion.IsPattern text)
      (hinput : input ≠ Log.standardInput) (hread : files.read input = .error .isDirectory)
      (hexists : files.exists? input = true) : Obstacle (.unreadable .isDirectory)
  | denied {fault : FileFault} (hpatterns : ∀ text ∈ options.patterns, Exclusion.IsPattern text)
      (hinput : input ≠ Log.standardInput) (hread : files.read input = .error fault)
      (hfault : fault ≠ .isDirectory) (hexists : files.exists? input = true) :
      Obstacle (.unopenable fault input)
  | output {bytes : List UInt8} {fault : FileFault}
      (hpatterns : ∀ text ∈ options.patterns, Exclusion.IsPattern text)
      (hinput : InputHolds input files standardInput bytes)
      (houtput : files.openToWrite options.outputName = .error fault) :
      Obstacle (.unopenable fault options.outputName)

/-- A run that nothing refuses: its questions, its log, the file system while the output is open,
and the number of the output's file. -/
structure Opens (q : Questions) (log : Log) (opened : FileSystem) (number : Nat) : Prop where
  patterns : ∀ text ∈ options.patterns, Exclusion.IsPattern text
  directory : ∀ value, q.excludesDirectory value = true ↔
    Exclusion.Occurs options.excludeDirectory value
  file : ∀ value, q.excludesFile value = true ↔ Exclusion.Occurs options.excludeFile value
  exists? : ∀ path, q.fileExists path = opened.exists? path
  input : ∃ bytes, InputHolds input files standardInput bytes ∧
    log = Log.ofText (Text.Utf8.decode bytes) (Log.formatOf input)
  output : files.openToWrite options.outputName = .ok (opened, number)

/-- What ends a conversion too early, told from what it would do if no write were refused: a failure
of the log, or the first write that is refused. -/
inductive Stops (takes : Nat → Taking) (free : Conversion) : Failure → Prop
  | log {failure : Failure} (hresult : free.result = .error failure)
      (hscan : Trace.failure? free.events = some failure) (hlog : failure.isOfLog = true)
      (haccepts : ∀ n < free.chunks.length, ∀ fault, takes n ≠ .refused fault) :
      Stops takes free failure
  | write {n : Nat} {fault : FileFault} (hn : n < free.chunks.length)
      (hrefused : takes n = .refused fault) (hfirst : ∀ m < n, ∀ fault, takes m ≠ .refused fault) :
      Stops takes free (.unwritable fault)

inductive Ending where
  | finished
  | refused
  | discarded
  deriving DecidableEq, Repr

def Ends (r : Run) : Ending → Prop
  | .finished => ∃ q log opened number place,
      Opens input options files standardInput q log opened number ∧
        opened.locate .write options.outputName = .ok place ∧
      let c := convert (fun _ => false) q log
      (∃ summary, c.result = .ok summary ∧ r.result = .ok summary) ∧
        (∀ n < c.chunks.length, ∀ fault, files.takes n ≠ .refused fault) ∧
        c.chunks = Document.finished (Trace.entries c.events) ∧
        r.files.find options.outputName = .ok (.file number) ∧
        ((opened.contents number).keeps = true →
          (∀ n < c.chunks.length, files.takes n = .whole) →
          (r.files.contents number).bytes = Text.Utf8.encode (String.join c.chunks) ∧
            Text.Utf8.decode (r.files.contents number).bytes = String.join c.chunks) ∧
        FileSystem.SameBut [place] number opened files r.files
  | .refused => ∃ failure, Obstacle input options files standardInput failure ∧
      r.result = .error failure ∧ r.files = files
  | .discarded => ∃ q log opened number place named,
      Opens input options files standardInput q log opened number ∧
        opened.locate .write options.outputName = .ok place ∧
        opened.locate .name options.outputName = .ok named ∧
      (∃ failure, Stops files.takes (convert (fun _ => false) q log) failure ∧
          (¬ FileSystem.IsChangeable opened named →
            r.result = .error (.unremovable .denied options.outputName)) ∧
          (FileSystem.IsChangeable opened named →
            r.result = .error failure ∧ r.files.exists? options.outputName = false ∧
              ((∀ other, other ≠ named → opened.node? other ≠ some (.file number)) →
                ∀ other, r.files.node? other ≠ some (.file number)) ∧
              (files.node? named = none → ∀ path, FileSystem.SameAt path files r.files))) ∧
        FileSystem.SameBut [place, named] number opened files r.files

variable {input options files standardInput}

theorem Opens.not_obstacle {q : Questions} {log : Log} {opened : FileSystem} {number : Nat}
    {failure : Failure} (h : Opens input options files standardInput q log opened number) :
    ¬ Obstacle input options files standardInput failure := by
  obtain ⟨bytes, hinput, -⟩ := h.input
  have hread : input ≠ Log.standardInput → files.read input = .ok bytes := by
    intro hname
    simpa only [InputHolds, if_neg hname] using hinput
  intro hobstacle
  cases hobstacle with
  | pattern hfault => exact hfault.not_isPattern h.patterns
  | missing _ hname hmissing =>
      obtain ⟨number, hfind, -⟩ := FileSystem.read_eq_ok_iff.mp (hread hname)
      rw [FileSystem.exists?_iff.mpr ⟨_, hfind⟩] at hmissing
      cases hmissing
  | directory _ hname hfailed =>
      rw [hread hname] at hfailed
      cases hfailed
  | denied _ hname hfailed =>
      rw [hread hname] at hfailed
      cases hfailed
  | output _ _ houtput =>
      rw [h.output] at houtput
      cases houtput

theorem Ends.error_of_discarded {r : Run} (h : Ends input options files standardInput r .discarded) :
    ∃ failure, r.result = .error failure := by
  obtain ⟨q, log, opened, number, place, named, -, -, -, ⟨failure, -, hkept, hgone⟩, -⟩ := h
  by_cases hchange : FileSystem.IsChangeable opened named
  · exact ⟨failure, (hgone hchange).1⟩
  · exact ⟨_, hkept hchange⟩

/-- A run ends in one way at most. -/
theorem Ends.unique {r : Run} {ending other : Ending}
    (h : Ends input options files standardInput r ending)
    (hother : Ends input options files standardInput r other) : ending = other := by
  have hfinished : Ends input options files standardInput r .finished →
      (∃ summary, r.result = .ok summary) ∧
        ∀ failure, ¬ Obstacle input options files standardInput failure := by
    rintro ⟨q, log, opened, number, place, hopens, -, ⟨summary, -, hresult⟩, -⟩
    exact ⟨⟨summary, hresult⟩, fun failure => hopens.not_obstacle⟩
  have hrefused : Ends input options files standardInput r .refused →
      ∃ failure, Obstacle input options files standardInput failure := by
    rintro ⟨failure, hobstacle, -⟩
    exact ⟨failure, hobstacle⟩
  have hdiscarded : Ends input options files standardInput r .discarded →
      ∀ failure, ¬ Obstacle input options files standardInput failure := by
    rintro ⟨q, log, opened, number, place, named, hopens, -⟩
    exact fun failure => hopens.not_obstacle
  have hapart : Ends input options files standardInput r .finished →
      ¬ Ends input options files standardInput r .discarded := by
    intro hfirst hsecond
    obtain ⟨⟨summary, hsummary⟩, -⟩ := hfinished hfirst
    obtain ⟨failure, hfailure⟩ := hsecond.error_of_discarded
    rw [hsummary] at hfailure
    cases hfailure
  cases ending with
  | finished =>
      cases other with
      | finished => rfl
      | refused => exact absurd (hrefused hother).choose_spec ((hfinished h).2 _)
      | discarded => exact absurd hother (hapart h)
  | refused =>
      cases other with
      | refused => rfl
      | finished => exact absurd (hrefused h).choose_spec ((hfinished hother).2 _)
      | discarded => exact absurd (hrefused h).choose_spec (hdiscarded hother _)
  | discarded =>
      cases other with
      | discarded => rfl
      | finished => exact absurd h (hapart hother)
      | refused => exact absurd (hrefused hother).choose_spec (hdiscarded h _)

section Converting

variable {takes : Nat → Taking} {q : Questions} {log : Log}

end Converting

section Writing

variable {settings : Settings} {opened : FileSystem} {number : Nat} {log : Log} {named : Place}

end Writing

end Endings

end Run

namespace Run

/-- A run from one file into another, or what else the nodes make of the two names. -/
def between (log output : String) (nodes : List (Place × Node)) (keeps : Bool)
    (takes : Nat → Taking) : Run :=
  let input : File := ⟨Text.Utf8.encode log, .full, true⟩
  let files : FileSystem :=
    ⟨(["log"], .file 0) :: nodes, fun number => if number = 0 then input else ⟨[0], .full, keeps⟩,
      .full, [], takes⟩
  ofOptions "log" ⟨some output, [], [], false⟩ files []

end Run

end CompileCommands
