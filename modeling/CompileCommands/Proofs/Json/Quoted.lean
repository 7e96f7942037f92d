import CompileCommands.Proofs.Json.Tokens

/-!
# Quoted strings

Quoting writes a string of the grammar that stands for the text (`isString_quote`). A character
inside it gives its own code point, whatever form it is written in (`item_quotedChar`), and a
character is never half of a pair, so the code points of a text make the text again
(`ofCodePoints_toNat`).
-/

namespace CompileCommands.Json

theorem hexFour?_control : ∀ n < 32,
    hexFour? '0' '0' (Nat.digitChar (n / 16)) (Nat.digitChar (n % 16)) = some n := by
  decide

theorem item_quotedChar (c : Char) : Item (quotedChar c) c.toNat := by
  unfold quotedChar
  split
  · rename_i h
    rcases (by simpa using h : c = '"' ∨ c = '\\') with rfl | rfl
    · exact .letter (by decide)
    · exact .letter (by decide)
  -- the controls with a letter of their own
  iterate 5
    split
    · subst_vars
      exact .letter (by decide)
  split
  · rename_i h
    have hcontrol : c.toNat < 32 := h
    exact .number (hexFour?_control c.toNat hcontrol)
  · rename_i hspecial _ _ _ _ _ hplain
    obtain ⟨hquote, hbackslash⟩ : c ≠ '"' ∧ c ≠ '\\' := by simpa using hspecial
    exact .plain (Char.not_lt.mp hplain) hquote hbackslash

theorem items_quoted (cs : List Char) : Items (cs.flatMap quotedChar) (cs.map Char.toNat) := by
  induction cs with
  | nil => exact .nil
  | cons c cs ih => exact .cons (item_quotedChar c) ih

theorem not_half (c : Char) : isHighHalf c.toNat = false ∧ isLowHalf c.toNat = false := by
  have hvalid : c.toNat < 0xd800 ∨ 0xdfff < c.toNat ∧ c.toNat < 0x110000 := c.valid
  simp only [isHighHalf, isLowHalf, Bool.and_eq_false_iff, decide_eq_false_iff_not]
  omega

theorem ofCodePoints_toNat : ∀ cs : List Char, ofCodePoints (cs.map Char.toNat) = cs
  | [] => rfl
  | [c] => by simp [ofCodePoints, not_half c]
  | c :: d :: cs => by
      have ih : ofCodePoints (d.toNat :: cs.map Char.toNat) = d :: cs :=
        ofCodePoints_toNat (d :: cs)
      simp [ofCodePoints, not_half c, ih]

/-- A quoted text is a string, and stands for the text. -/
theorem isString_quote (text : String) : IsString (quote text).toList text := by
  refine ⟨_, _, items_quoted text.toList, ?_, ?_⟩
  · rw [quote, String.toList_ofList]
    rfl
  · rw [ofCodePoints_toNat, String.ofList_toList]

end CompileCommands.Json
