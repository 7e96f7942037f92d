import CompileCommands.Failure

/-!
# Kinds of failures

A failure tells by itself where it comes from. The failures of a log are those of its commands and
those of its records. A step that may fail comes to something, or fails, in the ways that its parts
do.
-/

namespace CompileCommands

namespace Failure

def isOfCommand : Failure → Bool
  | unresolvedHeader _ _ | missingSource _ => true
  | _ => false

/-- A failure of a log: at a compile command, or at a line that is no record. -/
def isOfLog : Failure → Bool
  | invalidRecord _ _ => true
  | failure => failure.isOfCommand

end Failure

/-! ## Steps that may fail -/

section Steps

variable {ε α β : Type} {x : Except ε α} {f : α → Except ε β}

theorem bind_eq_ok_iff {b : β} : x >>= f = .ok b ↔ ∃ a, x = .ok a ∧ f a = .ok b := by
  cases x with
  | error e =>
      constructor
      · intro h
        cases h
      · rintro ⟨a, ha, -⟩
        cases ha
  | ok a =>
      constructor
      · exact fun h => ⟨a, rfl, h⟩
      · rintro ⟨a', ha, h⟩
        cases ha
        exact h

end Steps

end CompileCommands
