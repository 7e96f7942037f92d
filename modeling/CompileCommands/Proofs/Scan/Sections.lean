import CompileCommands.Scan
import Mathlib.Data.List.Induction

/-!
# The sections of a log

The sections of a log are told without a scan: the first marker, the directory line behind it, and
the first compiler invocation behind that, unless the directory is excluded; then the same again in
what is left (`sections`). A scan cannot look ahead, so it keeps in its phase what it needs of the
lines before. The phase alone, without table and entries, is a machine of its own, which gives the
sections one by one (`run_outline`).
-/

namespace CompileCommands.Scan

open Transducer

/-! ## Sections -/

/-- A section, up to the compiler invocation that ends it. -/
structure Section where
  kind : SectionKind
  directory : String
  invocation : String
  deriving DecidableEq, Repr

def isNoise (line : String) : Bool := (SectionKind.ofLine? line).isNone

/-- The finished sections of a log. The section of an excluded directory ends at its directory
line and is none of them. -/
def sections (excludes : String → Bool) (lines : List String) : List Section :=
  match _h : lines.dropWhile isNoise with
  | [] | [_] => []
  | marker :: directoryLine :: rest =>
      if excludes (Command.directory directoryLine) then sections excludes rest
      else
        match _h' : rest.dropWhile (!Command.isInvocation ·), SectionKind.ofLine? marker with
        | invocation :: later, some kind =>
            ⟨kind, Command.directory directoryLine, invocation⟩ :: sections excludes later
        | _, _ => []
termination_by lines.length
decreasing_by
  all_goals
    have hlines : (marker :: directoryLine :: rest).length ≤ lines.length :=
      _h ▸ (List.dropWhile_sublist isNoise).length_le
    simp only [List.length_cons] at hlines
  · omega
  · have hrest : (invocation :: later).length ≤ rest.length :=
      _h' ▸ (List.dropWhile_sublist (!Command.isInvocation ·)).length_le
    simp only [List.length_cons] at hrest
    omega

variable {excludes : String → Bool} {lines rest later : List String}
  {marker directoryLine invocation : String} {kind : SectionKind}

theorem sections_of_no_marker (h : lines.dropWhile isNoise = []) : sections excludes lines = [] := by
  rw [sections]
  split <;> simp_all

theorem sections_of_cut (h : lines.dropWhile isNoise = [marker]) : sections excludes lines = [] := by
  rw [sections]
  split <;> simp_all

theorem sections_of_excluded (h : lines.dropWhile isNoise = marker :: directoryLine :: rest)
    (hexcluded : excludes (Command.directory directoryLine) = true) :
    sections excludes lines = sections excludes rest := by
  conv_lhs => rw [sections]
  split <;> simp_all

theorem sections_of_open (h : lines.dropWhile isNoise = marker :: directoryLine :: rest)
    (hkept : excludes (Command.directory directoryLine) = false)
    (hopen : rest.dropWhile (!Command.isInvocation ·) = []) : sections excludes lines = [] := by
  rw [sections]
  split
  · rfl
  · rfl
  · rename_i h'
    obtain ⟨rfl, rfl, rfl⟩ : marker = _ ∧ directoryLine = _ ∧ rest = _ := by simpa [h] using h'
    rw [if_neg (by simp [hkept])]
    split
    · rename_i hfound _
      rw [hopen] at hfound
      cases hfound
    · rfl

theorem sections_of_found (h : lines.dropWhile isNoise = marker :: directoryLine :: rest)
    (hkept : excludes (Command.directory directoryLine) = false)
    (hfound : rest.dropWhile (!Command.isInvocation ·) = invocation :: later)
    (hkind : SectionKind.ofLine? marker = some kind) :
    sections excludes lines =
      ⟨kind, Command.directory directoryLine, invocation⟩ :: sections excludes later := by
  conv_lhs => rw [sections]
  split
  · simp_all
  · simp_all
  · rename_i h'
    obtain ⟨rfl, rfl, rfl⟩ : marker = _ ∧ directoryLine = _ ∧ rest = _ := by simpa [h] using h'
    rw [if_neg (by simp [hkept])]
    split <;> simp_all

/-! ## The outline of a scan -/

/-- The phase of a scan from line to line, and the sections that end. -/
def outlineStep (excludes : String → Bool) : Transducer Phase String Section := fun phase line =>
  match phase with
  | .between => ((SectionKind.ofLine? line).elim .between .marked, [])
  | .marked kind =>
      (if excludes (Command.directory line) then .between
        else .seeking kind (Command.directory line), [])
  | .seeking kind directory =>
      if Command.isInvocation line then (.between, [⟨kind, directory, line⟩])
      else (.seeking kind directory, [])
  | .stopped => (.stopped, [])

/-- An outline never stops. -/
theorem outlineStep_running {phase : Phase} (h : phase ≠ .stopped) (line : String) :
    (outlineStep excludes phase line).1 ≠ .stopped := by
  cases phase with
  | stopped => exact absurd rfl h
  | between => cases hkind : SectionKind.ofLine? line <;> simp [outlineStep, hkind]
  | marked kind =>
      by_cases hexcluded : excludes (Command.directory line) = true <;>
        simp [outlineStep, hexcluded]
  | seeking kind directory =>
      by_cases hline : Command.isInvocation line = true <;> simp [outlineStep, hline]

theorem outline_between {noise : List String} (h : ∀ line ∈ noise, isNoise line = true) :
    run (outlineStep excludes) .between noise = (.between, []) := by
  rw [run_of_still fun _ => []]
  · simp
  · intro line hline
    have : SectionKind.ofLine? line = none := by simpa [isNoise] using h line hline
    simp [outlineStep, this]

theorem outline_seeking {kind : SectionKind} {directory : String} {body : List String}
    (h : ∀ line ∈ body, Command.isInvocation line = false) :
    run (outlineStep excludes) (.seeking kind directory) body =
      (.seeking kind directory, []) := by
  rw [run_of_still fun _ => []]
  · simp
  · intro line hline
    simp [outlineStep, h line hline]

theorem head_of_dropWhile {p : String → Bool} {lines rest : List String} {line : String}
    (h : lines.dropWhile p = line :: rest) : p line = false := by
  have hhead := List.head?_dropWhile_not p lines
  rw [h] at hhead
  exact hhead

theorem exists_kind {lines rest : List String} {marker : String}
    (h : lines.dropWhile isNoise = marker :: rest) :
    ∃ kind, SectionKind.ofLine? marker = some kind := by
  have hmarker : isNoise marker = false := head_of_dropWhile h
  exact Option.ne_none_iff_exists'.mp fun hnone => by simp [isNoise, hnone] at hmarker

theorem outline_skip_noise (lines : List String) :
    run (outlineStep excludes) .between lines =
      run (outlineStep excludes) .between (lines.dropWhile isNoise) := by
  have hnoise : ∀ line ∈ lines.takeWhile isNoise, isNoise line = true :=
    List.all_eq_true.mp List.all_takeWhile
  calc run (outlineStep excludes) .between lines
      = run (outlineStep excludes) .between
          (lines.takeWhile isNoise ++ lines.dropWhile isNoise) := by
        rw [List.takeWhile_append_dropWhile]
    _ = run (outlineStep excludes) .between (lines.dropWhile isNoise) := by
        rw [run_append, outline_between hnoise, List.nil_append]

theorem outline_skip_body (kind : SectionKind) (directory : String) (lines : List String) :
    run (outlineStep excludes) (.seeking kind directory) lines =
      run (outlineStep excludes) (.seeking kind directory)
        (lines.dropWhile (!Command.isInvocation ·)) := by
  have hbody : ∀ line ∈ lines.takeWhile (!Command.isInvocation ·),
      Command.isInvocation line = false := by
    intro line hline
    simpa using List.all_eq_true.mp List.all_takeWhile line hline
  calc run (outlineStep excludes) (.seeking kind directory) lines
      = run (outlineStep excludes) (.seeking kind directory)
          (lines.takeWhile (!Command.isInvocation ·) ++
            lines.dropWhile (!Command.isInvocation ·)) := by
        rw [List.takeWhile_append_dropWhile]
    _ = _ := by rw [run_append, outline_seeking hbody, List.nil_append]

theorem run_outline (excludes : String → Bool) (lines : List String) :
    (run (outlineStep excludes) .between lines).2 = sections excludes lines := by
  induction lines using sections.induct excludes with
  | case1 lines h =>
      rw [outline_skip_noise, h, sections_of_no_marker h, run_nil]
  | case2 lines marker h =>
      rw [outline_skip_noise, h, sections_of_cut h, run_cons]
      rfl
  | case3 lines marker directoryLine rest h hexcluded ih =>
      obtain ⟨kind, hkind⟩ := exists_kind h
      rw [outline_skip_noise, h, sections_of_excluded h hexcluded, ← ih, run_cons, run_cons]
      simp [outlineStep, hkind, hexcluded]
  | case4 lines marker directoryLine rest h hkept invocation later kind hfound hkind ih =>
      have hkept : excludes (Command.directory directoryLine) = false := by simpa using hkept
      have hinvocation : Command.isInvocation invocation = true := by
        simpa using head_of_dropWhile hfound
      rw [outline_skip_noise, h, sections_of_found h hkept hfound hkind, ← ih, run_cons, run_cons]
      simp only [outlineStep, hkind, Option.elim_some, hkept, Bool.false_eq_true, if_false]
      rw [outline_skip_body, hfound, run_cons]
      simp [outlineStep, hinvocation]
  | case5 lines marker directoryLine rest h hkept hnone =>
      obtain ⟨kind, hkind⟩ := exists_kind h
      have hkept : excludes (Command.directory directoryLine) = false := by simpa using hkept
      have hopen : rest.dropWhile (!Command.isInvocation ·) = [] :=
        List.eq_nil_iff_forall_not_mem.mpr fun line hline => by
          obtain ⟨invocation, later, hfound⟩ := List.exists_cons_of_ne_nil (List.ne_nil_of_mem hline)
          exact hnone invocation later kind hfound hkind
      rw [outline_skip_noise, h, sections_of_open h hkept hopen, run_cons, run_cons]
      simp only [outlineStep, hkind, Option.elim_some, hkept, Bool.false_eq_true, if_false]
      rw [outline_skip_body, hopen]
      rfl

theorem sections_concat (excludes : String → Bool) (read : List String) (line : String) :
    sections excludes (read ++ [line]) =
      sections excludes read ++
        (outlineStep excludes (run (outlineStep excludes) .between read).1 line).2 := by
  rw [← run_outline, run_concat, run_outline]

/-! ## Where a section has begun -/

/-- A directory line is awaited behind a marker, and a marker is taken between two sections. -/
theorem marker_of_marked {phase : Phase} {line : String}
    (h : (outlineStep excludes phase line).1 = .marked kind) :
    phase = .between ∧ SectionKind.ofLine? line = some kind := by
  cases phase with
  | between =>
      cases hkind : SectionKind.ofLine? line with
      | none => simp [outlineStep, hkind] at h
      | some k => simpa [outlineStep, hkind] using h
  | marked k =>
      by_cases hexcluded : excludes (Command.directory line) = true <;>
        simp [outlineStep, hexcluded] at h
  | seeking k directory =>
      by_cases hline : Command.isInvocation line = true <;> simp [outlineStep, hline] at h
  | stopped => cases h

/-- An invocation is sought behind a directory line, or behind a line where it was sought before. -/
theorem line_of_seeking {phase : Phase} {line directory : String}
    (h : (outlineStep excludes phase line).1 = .seeking kind directory) :
    phase = .marked kind ∧ Command.directory line = directory ∧ excludes directory = false ∨
      phase = .seeking kind directory ∧ Command.isInvocation line = false := by
  cases phase with
  | between => cases hkind : SectionKind.ofLine? line <;> simp [outlineStep, hkind] at h
  | marked k =>
      by_cases hexcluded : excludes (Command.directory line) = true
      · simp [outlineStep, hexcluded] at h
      · obtain ⟨rfl, rfl⟩ : k = kind ∧ Command.directory line = directory := by
          simpa [outlineStep, hexcluded] using h
        exact Or.inl ⟨rfl, rfl, by simpa using hexcluded⟩
  | seeking k d =>
      by_cases hline : Command.isInvocation line = true
      · simp [outlineStep, hline] at h
      · obtain ⟨rfl, rfl⟩ : k = kind ∧ d = directory := by simpa [outlineStep, hline] using h
        exact Or.inr ⟨rfl, by simpa using hline⟩
  | stopped => cases h

/-- The marker is the last line, and no section is open before it. -/
theorem exists_marker {lines : List String}
    (h : (run (outlineStep excludes) .between lines).1 = .marked kind) :
    ∃ earlier marker, lines = earlier ++ [marker] ∧
      (run (outlineStep excludes) .between earlier).1 = .between ∧
      SectionKind.ofLine? marker = some kind := by
  cases lines using List.reverseRecOn with
  | nil => cases h
  | append_singleton earlier marker =>
      rw [run_concat] at h
      exact ⟨earlier, marker, rfl, marker_of_marked h⟩

/-- The lines behind the marker are the directory line and a body without an invocation. -/
theorem exists_opening {lines : List String} {directory : String}
    (h : (run (outlineStep excludes) .between lines).1 = .seeking kind directory) :
    ∃ earlier marker directoryLine body, lines = earlier ++ marker :: directoryLine :: body ∧
      (run (outlineStep excludes) .between earlier).1 = .between ∧
      SectionKind.ofLine? marker = some kind ∧ Command.directory directoryLine = directory ∧
      excludes directory = false ∧ ∀ line ∈ body, Command.isInvocation line = false := by
  induction lines using List.reverseRecOn with
  | nil => cases h
  | append_singleton lines line ih =>
      rw [run_concat] at h
      rcases line_of_seeking h with ⟨hmarked, hdirectory, hkept⟩ | ⟨hseeking, hline⟩
      · obtain ⟨earlier, marker, rfl, hbetween, hkind⟩ := exists_marker hmarked
        exact ⟨earlier, marker, line, [], by simp, hbetween, hkind, hdirectory, hkept, by simp⟩
      · obtain ⟨earlier, marker, directoryLine, body, rfl, hbetween, hkind, hdirectory, hkept,
          hbody⟩ := ih hseeking
        refine ⟨earlier, marker, directoryLine, body ++ [line], by simp, hbetween, hkind,
          hdirectory, hkept, ?_⟩
        exact List.forall_mem_append.mpr ⟨hbody, by simpa using hline⟩

/-- An invocation is sought only in a directory that is not excluded. -/
theorem kept_of_seeking {lines : List String} {kind : SectionKind} {directory : String}
    (h : (run (outlineStep excludes) .between lines).1 = .seeking kind directory) :
    excludes directory = false := by
  obtain ⟨-, -, -, -, -, -, -, -, hkept, -⟩ := exists_opening h
  exact hkept

/-! ## Mappings -/

def Section.mapping? (s : Section) : Option HeaderMapping :=
  match s.kind, Command.mapping? s.invocation with
  | .precompile, .ok mapping => mapping
  | _, _ => none

def sectionMappings (excludes : String → Bool) (lines : List String) : List HeaderMapping :=
  (sections excludes lines).filterMap Section.mapping?

end CompileCommands.Scan
