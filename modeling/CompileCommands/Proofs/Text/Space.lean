import CompileCommands.Text.Space
import Mathlib.Data.List.DropRight

/-!
# Trimmed texts and rows of them

Trimming takes away the white space at both ends of a text and nothing else (`exists_around_trim`).
A piece is a nonempty text without a space in it and with nothing to trim (`IsPiece`). A row of
pieces with single spaces between them begins and ends as its outer pieces do, so it has nothing to
trim either (`head?_row`, `getLast?_row`).
-/

namespace CompileCommands.Text

/-! ## Texts cut at a kind of character -/

/-- A text has no character of the kind, or it is two texts with one between them. -/
@[elab_as_elim]
theorem cut_induction (p : Char → Bool) {motive : List Char → Prop}
    (unbroken : ∀ cs, (∀ c ∈ cs, p c = false) → motive cs)
    (cut : ∀ front c back, p c = true → motive front → motive back → motive (front ++ c :: back))
    (cs : List Char) : motive cs := by
  by_cases h : ∃ c ∈ cs, p c = true
  · obtain ⟨c, hmem, hc⟩ := h
    obtain ⟨front, back, hcs⟩ := List.append_of_mem hmem
    have hlength : cs.length = front.length + (back.length + 1) := by simp [hcs]
    rw [hcs]
    exact cut front c back hc (cut_induction p unbroken cut front)
      (cut_induction p unbroken cut back)
  · apply unbroken cs
    intro c hc
    rw [Bool.eq_false_iff]
    exact fun hp => h ⟨c, hc, hp⟩
termination_by cs.length

theorem not_of_mem_splitOnP {p : Char → Bool} {piece cs : List Char} (h : piece ∈ cs.splitOnP p) :
    ∀ c ∈ piece, p c = false := by
  induction cs using cut_induction p with
  | unbroken cs hcs =>
      rw [List.splitOnP_eq_singleton hcs, List.mem_singleton] at h
      rwa [h]
  | cut front c back hc ihfront ihback =>
      rw [List.splitOnP_append_cons front back hc, List.mem_append] at h
      exact h.elim ihfront ihback

/-! ## Trimming -/

theorem dropWhile_append_eq {p : Char → Bool} (front : List Char) {back : List Char}
    (hfront : ∀ c ∈ front, p c = true) (hback : ∀ c ∈ back.head?, p c = false) :
    (front ++ back).dropWhile p = back := by
  rw [List.dropWhile_append_of_pos hfront]
  cases back with
  | nil => rfl
  | cons c cs => simp [hback c (by simp)]

theorem trim_indented (blanks : List Char) {cs : List Char}
    (hblanks : ∀ c ∈ blanks, isSpace c = true)
    (hhead : ∀ c ∈ cs.head?, isSpace c = false)
    (hlast : ∀ c ∈ cs.getLast?, isSpace c = false) : trim (blanks ++ cs) = cs := by
  have hend : cs.reverse.dropWhile isSpace = cs.reverse :=
    dropWhile_append_eq [] (by simp) (by simpa using hlast)
  rw [trim, dropWhile_append_eq blanks hblanks hhead, hend, List.reverse_reverse]

theorem trim_of_no_space {cs : List Char} (h : ∀ c ∈ cs, isSpace c = false) : trim cs = cs :=
  trim_indented [] (by simp) (fun c hc => h c (List.mem_of_mem_head? hc))
    (fun c hc => h c (List.mem_of_getLast? hc))

/-! ## Trimmed texts -/

theorem not_of_mem_head?_dropWhile (p : Char → Bool) (cs : List Char) :
    ∀ c ∈ (cs.dropWhile p).head?, p c = false := by
  intro c hc
  have hfirst := List.head?_dropWhile_not p cs
  rwa [Option.mem_def.mp hc] at hfirst

theorem not_of_mem_getLast?_rdropWhile (p : Char → Bool) (cs : List Char) :
    ∀ c ∈ (cs.rdropWhile p).getLast?, p c = false := by
  rw [List.rdropWhile, List.getLast?_reverse]
  exact not_of_mem_head?_dropWhile p cs.reverse

theorem head?_trim (cs : List Char) : ∀ c ∈ (trim cs).head?, isSpace c = false := by
  intro c hc
  obtain ⟨rest, hrest⟩ : trim cs <+: cs.dropWhile isSpace := List.rdropWhile_prefix isSpace _
  apply not_of_mem_head?_dropWhile isSpace cs
  rw [← hrest, List.head?_append, Option.mem_def.mp hc, Option.some_or]
  rfl

theorem getLast?_trim (cs : List Char) : ∀ c ∈ (trim cs).getLast?, isSpace c = false :=
  not_of_mem_getLast?_rdropWhile isSpace (cs.dropWhile isSpace)

theorem trim_trim (cs : List Char) : trim (trim cs) = trim cs :=
  trim_indented [] (by simp) (head?_trim cs) (getLast?_trim cs)

/-- A text is its trimmed text between white space. -/
theorem exists_around_trim (cs : List Char) :
    ∃ before behind, cs = before ++ (trim cs ++ behind) ∧
      (∀ c ∈ before, isSpace c = true) ∧ ∀ c ∈ behind, isSpace c = true := by
  refine ⟨cs.takeWhile isSpace, (cs.dropWhile isSpace).rtakeWhile isSpace, ?_, ?_, ?_⟩
  · have hbehind : trim cs ++ (cs.dropWhile isSpace).rtakeWhile isSpace = cs.dropWhile isSpace :=
      List.rdropWhile_append_rtakeWhile
    rw [hbehind, List.takeWhile_append_dropWhile]
  · intro c hc
    exact List.mem_takeWhile_imp hc
  · intro c hc
    exact List.mem_rtakeWhile_imp hc

theorem trim_eq_nil_iff {cs : List Char} : trim cs = [] ↔ ∀ c ∈ cs, isSpace c = true := by
  constructor
  · intro h
    obtain ⟨before, behind, hcs, hbefore, hbehind⟩ := exists_around_trim cs
    rw [h, List.nil_append] at hcs
    intro c hc
    rw [hcs] at hc
    exact (List.mem_append.mp hc).elim (hbefore c) (hbehind c)
  · intro h
    have htrim : trim (cs ++ []) = [] := trim_indented cs h (by simp) (by simp)
    rwa [List.append_nil] at htrim

theorem trim_subset (cs : List Char) : trim cs ⊆ cs := by
  obtain ⟨before, behind, hcs, -, -⟩ := exists_around_trim cs
  intro c hc
  rw [hcs]
  exact List.mem_append_right _ (List.mem_append_left _ hc)

/-! ## Rows of pieces -/

/-- A word that no trimming and no cutting can touch: nonempty and free of white space. -/
def IsSolid (cs : List Char) : Prop := cs ≠ [] ∧ ∀ c ∈ cs, isSpace c = false

/-- A text that comes back from a row by cutting and trimming: white space other than the space may
stand inside it. -/
def IsPiece (cs : List Char) : Prop := cs ≠ [] ∧ ' ' ∉ cs ∧ trim cs = cs

theorem IsSolid.isPiece {cs : List Char} (h : IsSolid cs) : IsPiece cs := by
  refine ⟨h.1, ?_, trim_of_no_space h.2⟩
  intro hspace
  exact absurd (h.2 ' ' hspace) (by decide)

theorem subset_row {l : List Char} : ∀ {ls : List (List Char)}, l ∈ ls → l ⊆ [' '].intercalate ls
  | [m], h => by
      rw [List.mem_singleton.mp h, List.intercalate_singleton]
      exact List.Subset.refl m
  | m :: n :: ls, h => by
      rw [List.intercalate_cons_cons]
      rcases List.mem_cons.mp h with rfl | h
      · exact fun c hc => List.mem_append_left _ (List.mem_append_left _ hc)
      · exact fun c hc => List.mem_append_right _ (subset_row h hc)

theorem head?_row : ∀ {ls : List (List Char)}, (∀ l ∈ ls, IsPiece l) →
    ∀ c ∈ ([' '].intercalate ls).head?, isSpace c = false
  | [], _, c, hc => by simp at hc
  | l :: ls, h, c, hc => by
      obtain ⟨hne, -, htrim⟩ := h l List.mem_cons_self
      obtain ⟨d, l, rfl⟩ := List.exists_cons_of_ne_nil hne
      have hd : d = c := by cases ls <;> simpa using hc
      have hhead := head?_trim (d :: l)
      rw [htrim] at hhead
      exact hd ▸ hhead d rfl

theorem getLast?_row : ∀ {ls : List (List Char)}, (∀ l ∈ ls, IsPiece l) →
    ∀ c ∈ ([' '].intercalate ls).getLast?, isSpace c = false
  | [], _, c, hc => by simp at hc
  | [l], h, c, hc => by
      have hlast := getLast?_trim l
      rw [(h l List.mem_cons_self).2.2] at hlast
      rw [List.intercalate_singleton] at hc
      exact hlast c hc
  | l :: m :: ls, h, c, hc => by
      have hrest : ∀ k ∈ m :: ls, IsPiece k := fun k hk => h k (List.mem_cons_of_mem _ hk)
      have hne : [' '].intercalate (m :: ls) ≠ [] := by
        cases ls <;> simp [(hrest m List.mem_cons_self).1]
      rw [List.intercalate_cons_cons, List.getLast?_append_of_ne_nil _ hne] at hc
      exact getLast?_row hrest c hc

/-! ## The code points of white space -/

theorem isSpace_range {c : Char} (h : isSpace c = true) : c.toNat ≤ 32 ∨ 160 ≤ c.toNat := by
  simp only [isSpace, Bool.or_eq_true, Bool.and_eq_true, decide_eq_true_eq, Char.le_def,
    UInt32.le_iff_toNat_le] at h
  change ((((((((((9 ≤ c.toNat ∧ c.toNat ≤ 13) ∨ c = ' ') ∨ _) ∨ _) ∨
    (0x2000 ≤ c.toNat ∧ c.toNat ≤ 0x200a)) ∨ _) ∨ _) ∨ _) ∨ _) ∨ _) ∨ _ at h
  rcases h with ((((((((((h | rfl) | rfl) | rfl) | h) | rfl) | rfl) | rfl) | rfl) | rfl) | rfl)
  all_goals first | omega | decide

end CompileCommands.Text
