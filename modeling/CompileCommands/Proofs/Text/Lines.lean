import CompileCommands.Text.Line

/-!
# Lines of a text written line by line

A text in which every line is followed by a line feed has exactly these lines, the empty ones and
those at the end included (`lines_terminated`).
-/

namespace CompileCommands.Text

open Transducer

/-- A line holds neither of the characters that end lines. -/
def IsUnbroken (line : String) : Prop := '\r' ∉ line.toList ∧ '\n' ∉ line.toList

def terminated (lines : List String) : String := String.join (lines.map (· ++ "\n"))

theorem run_unbroken {cs : List Char} (hr : '\r' ∉ cs) (hn : '\n' ∉ cs) (current : String) :
    run LineScan.step ⟨current, false⟩ cs = (⟨current ++ String.ofList cs, false⟩, []) := by
  induction cs generalizing current with
  | nil => simp
  | cons c cs ih =>
      rw [List.mem_cons, not_or] at hr hn
      have hstep : LineScan.step ⟨current, false⟩ c = (⟨current.push c, false⟩, []) := by
        rw [LineScan.step, if_neg (Ne.symm hr.1), if_neg (Ne.symm hn.1)]
      rw [run_cons, hstep, ih hr.2 hn.2, String.push_eq_append, String.append_assoc,
        ← String.ofList_cons]
      rfl

/-- A carriage return right before a line is forgotten, unless the line is empty. -/
theorem run_line {text : String} (h : IsUnbroken text) (afterReturn : Bool) :
    run LineScan.step ⟨"", afterReturn⟩ text.toList =
      (⟨text, afterReturn && text = ""⟩, []) := by
  have hplain : run LineScan.step ⟨"", false⟩ text.toList = (⟨text, false⟩, []) := by
    rw [run_unbroken h.1 h.2]
    simp
  cases hchars : text.toList with
  | nil =>
      obtain rfl : text = "" := String.toList_eq_nil_iff.mp hchars
      simp
  | cons c cs =>
      have hnonempty : text ≠ "" := by
        rintro rfl
        cases hchars
      obtain ⟨hreturn, hfeed⟩ := h
      rw [hchars, List.mem_cons, not_or] at hreturn hfeed
      have hfirst : LineScan.step ⟨"", afterReturn⟩ c = LineScan.step ⟨"", false⟩ c := by
        rw [LineScan.step, LineScan.step, if_neg (Ne.symm hreturn.1),
          if_neg (Ne.symm hreturn.1), if_neg (Ne.symm hfeed.1), if_neg (Ne.symm hfeed.1)]
      rw [hchars, run_cons] at hplain
      rw [run_cons, hfirst, hplain]
      simp [hnonempty]

theorem run_terminated_line {line : String} (h : IsUnbroken line) :
    run LineScan.step .start (line ++ "\n").toList = (.start, [line]) := by
  have hbreak : "\n".toList = ['\n'] := rfl
  rw [String.toList_append, hbreak, run_concat, LineScan.start, run_unbroken h.1 h.2]
  simp [LineScan.step, LineScan.start]

theorem lines_terminated {ls : List String} (h : ∀ line ∈ ls, IsUnbroken line) :
    lines (terminated ls) = ls := by
  have hrun : run LineScan.step .start (terminated ls).toList = (.start, ls) := by
    rw [terminated, String.toList_join]
    induction ls with
    | nil => rfl
    | cons line ls ih =>
        rw [List.map_cons, List.flatMap_cons, run_append,
          run_terminated_line (h line List.mem_cons_self),
          ih fun l hl => h l (List.mem_cons_of_mem _ hl)]
        rfl
  unfold lines
  rw [hrun]
  simp [LineScan.rest, LineScan.start]

end CompileCommands.Text
