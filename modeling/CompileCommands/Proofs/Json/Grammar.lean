import CompileCommands.Proofs.Json.Tokens

/-!
# The grammar of JSON

Which text stands for which value is told here by rules, one for each form of a value (`Writes`):
white space may stand around every value, every name and every list, nothing stands behind the last
item but the closing bracket, and a name may come twice. The reader follows the same rules with
fuel. What it takes off the front of a text has a derivation (`readers_sound`), and it reads
whatever has one, as long as the fuel is twice the length and no character behind could go on with a
number (`reads_of_writes`). So a whole text is read as a value exactly if the grammar derives it as
that value (`parse_eq_some_iff`).
-/

namespace CompileCommands.Json

/-! ## Rules -/

/-- Texts that a rule is about: a value, a value with white space around it, a member of an object,
and the items or members between brackets, one or more of them. -/
inductive Phrase where
  | value (v : Value)
  | item (v : Value)
  | items (vs : List Value)
  | member (m : String × Value)
  | members (ms : List (String × Value))

/-- The text is written by the rules, and stands for the phrase. -/
inductive Writes : Phrase → List Char → Prop
  | nullWord : Writes (.value .null) "null".toList
  | trueWord : Writes (.value (.bool true)) "true".toList
  | falseWord : Writes (.value (.bool false)) "false".toList
  | number {cs : List Char} (h : IsNumber cs) : Writes (.value (.number (String.ofList cs))) cs
  | string {cs : List Char} {text : String} (h : IsString cs text) :
      Writes (.value (.string text)) cs
  | emptyArray {ws : List Char} (h : IsBlank ws) :
      Writes (.value (.array [])) ('[' :: (ws ++ [']']))
  | array {cs : List Char} {vs : List Value} (h : Writes (.items vs) cs) :
      Writes (.value (.array vs)) ('[' :: (cs ++ [']']))
  | emptyObject {ws : List Char} (h : IsBlank ws) :
      Writes (.value (.object [])) ('{' :: (ws ++ ['}']))
  | object {cs : List Char} {ms : List (String × Value)} (h : Writes (.members ms) cs) :
      Writes (.value (.object ms)) ('{' :: (cs ++ ['}']))
  | item {before cs behind : List Char} {v : Value} (hbefore : IsBlank before)
      (hbehind : IsBlank behind) (h : Writes (.value v) cs) :
      Writes (.item v) (before ++ (cs ++ behind))
  | lastItem {cs : List Char} {v : Value} (h : Writes (.item v) cs) : Writes (.items [v]) cs
  | moreItems {cs rest : List Char} {v : Value} {vs : List Value} (h : Writes (.item v) cs)
      (hrest : Writes (.items vs) rest) : Writes (.items (v :: vs)) (cs ++ ',' :: rest)
  | member {before key behind cs : List Char} {name : String} {v : Value}
      (hbefore : IsBlank before) (hkey : IsString key name) (hbehind : IsBlank behind)
      (h : Writes (.item v) cs) :
      Writes (.member (name, v)) (before ++ (key ++ (behind ++ ':' :: cs)))
  | lastMember {cs : List Char} {m : String × Value} (h : Writes (.member m) cs) :
      Writes (.members [m]) cs
  | moreMembers {cs rest : List Char} {m : String × Value} {ms : List (String × Value)}
      (h : Writes (.member m) cs) (hrest : Writes (.members ms) rest) :
      Writes (.members (m :: ms)) (cs ++ ',' :: rest)

/-- A whole text stands for a value. -/
def IsTextOf (text : String) (v : Value) : Prop := Writes (.item v) text.toList

variable {cs rest text : List Char} {v : Value}

/-! ## What the reader takes is derived -/

/-- White space may stand before every phrase but a bare value. -/
theorem Writes.blank_append {p : Phrase} {ws : List Char} (hws : IsBlank ws) (h : Writes p cs)
    (hp : ∀ v, p ≠ .value v) : Writes p (ws ++ cs) := by
  induction h with
  | item hbefore hbehind h =>
      rw [← List.append_assoc]
      exact .item (hws.append hbefore) hbehind h
  | lastItem _ ih => exact .lastItem (ih (by simp))
  | moreItems _ hrest ih _ =>
      rw [← List.append_assoc]
      exact .moreItems (ih (by simp)) hrest
  | member hbefore hkey hbehind h =>
      rw [← List.append_assoc]
      exact .member (hws.append hbefore) hkey hbehind h
  | lastMember _ ih => exact .lastMember (ih (by simp))
  | moreMembers _ hrest ih _ =>
      rw [← List.append_assoc]
      exact .moreMembers (ih (by simp)) hrest
  | _ => exact absurd rfl (hp _)

def ValueSound (fuel : Nat) : Prop :=
  ∀ cs v rest, value fuel cs = some (v, rest) →
    ∃ before text, IsBlank before ∧ Writes (.value v) text ∧ cs = before ++ (text ++ rest)

def ItemsSound (fuel : Nat) : Prop :=
  ∀ cs vs rest, items fuel cs = some (vs, rest) →
    ∃ text, Writes (.items vs) text ∧ cs = text ++ ']' :: rest

def MembersSound (fuel : Nat) : Prop :=
  ∀ cs ms rest, members fuel cs = some (ms, rest) →
    ∃ text, Writes (.members ms) text ∧ cs = text ++ '}' :: rest

theorem valueSound_succ {fuel : Nat} (hitems : ItemsSound fuel) (hmembers : MembersSound fuel) :
    ValueSound (fuel + 1) := by
  intro cs v rest h
  suffices hvalue : ∃ text, Writes (.value v) text ∧ skip cs = text ++ rest by
    obtain ⟨text, hwrites, hskip⟩ := hvalue
    obtain ⟨before, hbefore, hcs⟩ := exists_of_skip hskip
    exact ⟨before, text, hbefore, hwrites, hcs⟩
  rw [value] at h
  split at h
  case h_1 behind hfront =>
      rw [hfront]
      split at h
      · rename_i tail hskip
        obtain ⟨rfl, rfl⟩ := Prod.mk.inj (Option.some.inj h)
        obtain ⟨ws, hws, rfl⟩ := exists_of_skip hskip
        exact ⟨_, .emptyObject hws, by simp⟩
      · obtain ⟨⟨ms, left⟩, hread, heq⟩ := Option.map_eq_some_iff.mp h
        obtain ⟨rfl, rfl⟩ := Prod.mk.inj heq
        obtain ⟨text, hwrites, hskip⟩ := hmembers _ _ _ hread
        obtain ⟨ws, hws, rfl⟩ := exists_of_skip hskip
        exact ⟨_, .object (hwrites.blank_append hws (by simp)), by simp⟩
  case h_2 behind hfront =>
      rw [hfront]
      split at h
      · rename_i tail hskip
        obtain ⟨rfl, rfl⟩ := Prod.mk.inj (Option.some.inj h)
        obtain ⟨ws, hws, rfl⟩ := exists_of_skip hskip
        exact ⟨_, .emptyArray hws, by simp⟩
      · obtain ⟨⟨vs, left⟩, hread, heq⟩ := Option.map_eq_some_iff.mp h
        obtain ⟨rfl, rfl⟩ := Prod.mk.inj heq
        obtain ⟨text, hwrites, hskip⟩ := hitems _ _ _ hread
        obtain ⟨ws, hws, rfl⟩ := exists_of_skip hskip
        exact ⟨_, .array (hwrites.blank_append hws (by simp)), by simp⟩
  case h_3 behind hfront =>
      obtain ⟨⟨text, left⟩, hread, heq⟩ := Option.map_eq_some_iff.mp h
      obtain ⟨rfl, rfl⟩ := Prod.mk.inj heq
      obtain ⟨string, hstring, hbehind⟩ := stringTail_sound hread
      exact ⟨string, .string hstring, hfront.trans hbehind⟩
  case h_4 behind hfront =>
      obtain ⟨rfl, rfl⟩ := Prod.mk.inj (Option.some.inj h)
      exact ⟨_, .trueWord, hfront⟩
  case h_5 behind hfront =>
      obtain ⟨rfl, rfl⟩ := Prod.mk.inj (Option.some.inj h)
      exact ⟨_, .falseWord, hfront⟩
  case h_6 behind hfront =>
      obtain ⟨rfl, rfl⟩ := Prod.mk.inj (Option.some.inj h)
      exact ⟨_, .nullWord, hfront⟩
  case h_7 =>
      obtain ⟨text, hnumber, rfl, hfront⟩ := number_sound h
      exact ⟨text, .number hnumber, hfront⟩

theorem itemsSound_succ {fuel : Nat} (hvalue : ValueSound fuel) (hitems : ItemsSound fuel) :
    ItemsSound (fuel + 1) := by
  intro cs vs rest h
  rw [items] at h
  split at h
  · cases h
  · rename_i v behind hread
    obtain ⟨before, text, hbefore, hwrites, rfl⟩ := hvalue _ _ _ hread
    split at h
    · rename_i tail hskip
      obtain ⟨rfl, rfl⟩ := Prod.mk.inj (Option.some.inj h)
      obtain ⟨ws, hws, rfl⟩ := exists_of_skip hskip
      exact ⟨_, .lastItem (.item hbefore hws hwrites), by simp⟩
    · rename_i tail hskip
      obtain ⟨⟨later, left⟩, hlater, heq⟩ := Option.map_eq_some_iff.mp h
      obtain ⟨rfl, rfl⟩ := Prod.mk.inj heq
      obtain ⟨ws, hws, rfl⟩ := exists_of_skip hskip
      obtain ⟨rows, hrows, rfl⟩ := hitems _ _ _ hlater
      exact ⟨_, .moreItems (.item hbefore hws hwrites) hrows, by simp⟩
    · cases h

theorem membersSound_succ {fuel : Nat} (hvalue : ValueSound fuel) (hmembers : MembersSound fuel) :
    MembersSound (fuel + 1) := by
  intro cs ms rest h
  rw [members] at h
  split at h
  case h_2 => cases h
  case h_1 quoted hquoted =>
      obtain ⟨before, hbefore, rfl⟩ := exists_of_skip hquoted
      split at h
      · cases h
      rename_i name behind hname
      obtain ⟨key, hkey, hkeyText⟩ := stringTail_sound hname
      split at h
      case h_2 => cases h
      case h_1 afterColon hcolon =>
          obtain ⟨between, hbetween, rfl⟩ := exists_of_skip hcolon
          split at h
          · cases h
          rename_i v afterValue hread
          obtain ⟨front, text, hfront, hwrites, rfl⟩ := hvalue _ _ _ hread
          split at h
          · rename_i tail hskip
            obtain ⟨rfl, rfl⟩ := Prod.mk.inj (Option.some.inj h)
            obtain ⟨ws, hws, rfl⟩ := exists_of_skip hskip
            refine ⟨_, .lastMember (.member hbefore hkey hbetween (.item hfront hws hwrites)), ?_⟩
            rw [hkeyText]
            simp
          · rename_i tail hskip
            obtain ⟨⟨later, left⟩, hlater, heq⟩ := Option.map_eq_some_iff.mp h
            obtain ⟨rfl, rfl⟩ := Prod.mk.inj heq
            obtain ⟨ws, hws, rfl⟩ := exists_of_skip hskip
            obtain ⟨rows, hrows, rfl⟩ := hmembers _ _ _ hlater
            have hmember := Writes.member hbefore hkey hbetween (.item hfront hws hwrites)
            refine ⟨_, .moreMembers hmember hrows, ?_⟩
            rw [hkeyText]
            simp
          · cases h

theorem readers_sound (fuel : Nat) : ValueSound fuel ∧ ItemsSound fuel ∧ MembersSound fuel := by
  induction fuel with
  | zero =>
      refine ⟨?_, ?_, ?_⟩
      · intro cs v rest h
        cases h
      · intro cs vs rest h
        cases h
      · intro cs ms rest h
        cases h
  | succ fuel ih =>
      obtain ⟨hvalue, hitems, hmembers⟩ := ih
      exact ⟨valueSound_succ hitems hmembers, itemsSound_succ hvalue hitems,
        membersSound_succ hvalue hmembers⟩

/-! ## What is derived is read -/

def Ends (rest : List Char) : Prop :=
  ∀ c ∈ rest.head?, isWhitespace c = true ∨ c = ',' ∨ c = ']' ∨ c = '}'

theorem Ends.beginsWithout (h : Ends rest) : BeginsWithout isNumeric rest := by
  intro c hc
  rcases h c hc with hspace | rfl | rfl | rfl
  · rcases isWhitespace_iff.mp hspace with rfl | rfl | rfl | rfl <;> rfl
  all_goals rfl

theorem Ends.blank_append {ws : List Char} (hws : IsBlank ws) (h : Ends rest) :
    Ends (ws ++ rest) := by
  cases ws with
  | nil => exact h
  | cons c ws =>
      intro d hd
      obtain rfl := Option.some.inj hd
      exact Or.inl (hws c List.mem_cons_self)

def behindMember (fuel : Nat) (m : String × Value) (rest : List Char) :
    Option (List (String × Value) × List Char) :=
  match skip rest with
  | '}' :: rest => some ([m], rest)
  | ',' :: rest => (members fuel rest).map fun (ms, rest) => (m :: ms, rest)
  | _ => none

theorem IsNumber.exists_cons (h : IsNumber cs) :
    ∃ c tail, (c = '-' ∨ c.isDigit = true) ∧ cs = c :: tail := by
  obtain ⟨minus, whole, fraction, exponent, hminus, hwhole, -, -, rfl⟩ := h
  rcases hminus with rfl | rfl
  · obtain ⟨d, ds, hd, rfl⟩ := hwhole.exists_cons
    exact ⟨d, _, Or.inr hd, rfl⟩
  · exact ⟨'-', _, Or.inl rfl, rfl⟩

theorem isSpace_of_numeric {c : Char} (h : c = '-' ∨ c.isDigit = true) :
    Text.isSpace c = false := by
  rw [Bool.eq_false_iff]
  intro hspace
  have hrange := Text.isSpace_range hspace
  rcases h with rfl | h
  · simp at hrange
  · simp only [Char.isDigit, Bool.and_eq_true, decide_eq_true_eq, ge_iff_le,
      UInt32.le_iff_toNat_le] at h
    change 48 ≤ c.toNat ∧ c.toNat ≤ 57 at h
    omega

theorem isWhitespace_of_not_isSpace {c : Char} (h : Text.isSpace c = false) :
    isWhitespace c = false := by
  rw [Bool.eq_false_iff] at h ⊢
  exact fun hspace => h (isSpace_of_isWhitespace hspace)

/-- A value begins with a character that is neither white space nor a closing bracket. -/
theorem Writes.head_value (h : Writes (.value v) cs) :
    ∃ c tail, Text.isSpace c = false ∧ c ≠ ']' ∧ cs = c :: tail := by
  cases h with
  | nullWord => exact ⟨_, _, rfl, by decide, rfl⟩
  | trueWord => exact ⟨_, _, rfl, by decide, rfl⟩
  | falseWord => exact ⟨_, _, rfl, by decide, rfl⟩
  | number h =>
      obtain ⟨c, tail, hc, rfl⟩ := h.exists_cons
      refine ⟨c, tail, isSpace_of_numeric hc, ?_, rfl⟩
      rintro rfl
      rcases hc with hc | hc <;> exact absurd hc (by decide)
  | string h =>
      obtain ⟨inside, points, -, rfl, -⟩ := h
      exact ⟨_, _, rfl, by decide, rfl⟩
  | emptyArray h => exact ⟨_, _, rfl, by decide, rfl⟩
  | array h => exact ⟨_, _, rfl, by decide, rfl⟩
  | emptyObject h => exact ⟨_, _, rfl, by decide, rfl⟩
  | object h => exact ⟨_, _, rfl, by decide, rfl⟩

theorem Writes.head_item (h : Writes (.item v) cs) (rest : List Char) :
    ∃ c tail, c ≠ ']' ∧ skip (cs ++ rest) = c :: tail := by
  cases h with
  | item hbefore hbehind h =>
      obtain ⟨c, tail, hspace, hc, rfl⟩ := h.head_value
      rw [List.append_assoc, skip_append hbefore]
      exact ⟨c, _, hc, skip_cons_of_not (isWhitespace_of_not_isSpace hspace) _⟩

theorem Writes.head_items {vs : List Value} (h : Writes (.items vs) cs) (rest : List Char) :
    ∃ c tail, c ≠ ']' ∧ skip (cs ++ rest) = c :: tail := by
  cases h with
  | lastItem h => exact h.head_item rest
  | moreItems h hrest =>
      rw [List.append_assoc]
      exact h.head_item _

theorem Writes.head_member {m : String × Value} (h : Writes (.member m) cs) (rest : List Char) :
    ∃ tail, skip (cs ++ rest) = '"' :: tail := by
  cases h with
  | member hbefore hkey hbehind h =>
      obtain ⟨inside, points, -, rfl, -⟩ := hkey
      rw [List.append_assoc, skip_append hbefore]
      exact ⟨_, skip_cons_of_not rfl _⟩

theorem Writes.head_members {ms : List (String × Value)} (h : Writes (.members ms) cs)
    (rest : List Char) : ∃ tail, skip (cs ++ rest) = '"' :: tail := by
  cases h with
  | lastMember h => exact h.head_member rest
  | moreMembers h hrest =>
      rw [List.append_assoc]
      exact h.head_member _

/-- A text is read as the phrase that it stands for, with fuel of twice its length. -/
def Reads : Phrase → List Char → Prop
  | .value v, cs => ∀ fuel rest, 2 * cs.length ≤ fuel → Ends rest →
      value fuel (cs ++ rest) = some (v, rest)
  | .item v, cs => ∀ fuel rest, 2 * cs.length ≤ fuel → Ends rest → skip rest = rest →
      ∃ left, value fuel (cs ++ rest) = some (v, left) ∧ skip left = rest
  | .items vs, cs => ∀ fuel rest, 2 * cs.length < fuel →
      items fuel (cs ++ ']' :: rest) = some (vs, rest)
  | .member m, cs => ∀ fuel rest, 2 * cs.length ≤ fuel → Ends rest → skip rest = rest →
      members (fuel + 1) (cs ++ rest) = behindMember fuel m rest
  | .members ms, cs => ∀ fuel rest, 2 * cs.length < fuel →
      members fuel (cs ++ '}' :: rest) = some (ms, rest)

/-! ### Values by their first character -/

variable {fuel : Nat}

theorem value_number {c : Char} {tail : List Char} (hc : c = '-' ∨ c.isDigit = true) :
    value (fuel + 1) (c :: tail) = number (c :: tail) := by
  rw [value, skip_cons_of_not (isWhitespace_of_not_isSpace (isSpace_of_numeric hc))]
  split
  case h_7 => rfl
  -- every other value begins with another character
  all_goals
    rename_i heq
    obtain rfl := (List.cons.inj heq).1
    rcases hc with hc | hc <;> exact absurd hc (by decide)

theorem value_emptyArray (h : skip cs = ']' :: rest) :
    value (fuel + 1) ('[' :: cs) = some (.array [], rest) := by
  rw [value, skip_cons_of_not rfl]
  simp only [h]

theorem value_array {c : Char} {tail : List Char} (h : skip cs = c :: tail) (hc : c ≠ ']') :
    value (fuel + 1) ('[' :: cs) = (items fuel cs).map fun (vs, rest) => (.array vs, rest) := by
  rw [value, skip_cons_of_not rfl]
  simp only
  split
  · rename_i hclosed
    exact absurd (List.cons.inj (h.symm.trans hclosed)).1 hc
  · rw [items_skip]

theorem value_emptyObject (h : skip cs = '}' :: rest) :
    value (fuel + 1) ('{' :: cs) = some (.object [], rest) := by
  rw [value, skip_cons_of_not rfl]
  simp only [h]

theorem value_object {tail : List Char} (h : skip cs = '"' :: tail) :
    value (fuel + 1) ('{' :: cs) = (members fuel cs).map fun (ms, rest) => (.object ms, rest) := by
  rw [value, skip_cons_of_not rfl]
  simp only
  split
  · rename_i hclosed
    exact absurd (List.cons.inj (h.symm.trans hclosed)).1 (by decide)
  · rw [members_skip]

/-! ### Rule by rule -/

/-- One unit of fuel is enough for a value without items or members. -/
theorem reads_of_step (h : Writes (.value v) cs)
    (hread : ∀ fuel rest, Ends rest → value (fuel + 1) (cs ++ rest) = some (v, rest)) :
    Reads (.value v) cs := by
  intro fuel rest hfuel hends
  obtain ⟨c, tail, -, -, rfl⟩ := h.head_value
  obtain ⟨fuel, rfl⟩ : ∃ k, fuel = k + 1 := ⟨fuel - 1, by rw [List.length_cons] at hfuel; omega⟩
  exact hread fuel rest hends

theorem reads_number (h : IsNumber cs) : Reads (.value (.number (String.ofList cs))) cs := by
  apply reads_of_step (.number h)
  intro fuel rest hends
  obtain ⟨c, tail, hc, rfl⟩ := h.exists_cons
  rw [List.cons_append, value_number hc, ← List.cons_append]
  exact number_append h hends.beginsWithout

theorem reads_string {text : String} (h : IsString cs text) : Reads (.value (.string text)) cs := by
  apply reads_of_step (.string h)
  intro fuel rest _
  obtain ⟨inside, hcs, htail⟩ := stringTail_append h rest
  rw [hcs, value, skip_cons_of_not rfl]
  simp only [htail, Option.map_some]

theorem reads_emptyArray {ws : List Char} (h : IsBlank ws) :
    Reads (.value (.array [])) ('[' :: (ws ++ [']'])) := by
  apply reads_of_step (.emptyArray h)
  intro fuel rest _
  rw [List.cons_append, List.append_assoc]
  exact value_emptyArray (by rw [skip_append h]; exact skip_cons_of_not rfl rest)

theorem reads_emptyObject {ws : List Char} (h : IsBlank ws) :
    Reads (.value (.object [])) ('{' :: (ws ++ ['}'])) := by
  apply reads_of_step (.emptyObject h)
  intro fuel rest _
  rw [List.cons_append, List.append_assoc]
  exact value_emptyObject (by rw [skip_append h]; exact skip_cons_of_not rfl rest)

theorem reads_array {vs : List Value} (h : Writes (.items vs) cs) (ih : Reads (.items vs) cs) :
    Reads (.value (.array vs)) ('[' :: (cs ++ [']'])) := by
  intro fuel rest hfuel _
  simp only [List.length_cons, List.length_append, List.length_nil] at hfuel
  obtain ⟨fuel, rfl⟩ : ∃ k, fuel = k + 1 := ⟨fuel - 1, by omega⟩
  obtain ⟨c, tail, hc, hskip⟩ := h.head_items (']' :: rest)
  have hitems := ih fuel rest (by omega)
  rw [List.cons_append, List.append_assoc, List.singleton_append, value_array hskip hc, hitems]
  rfl

theorem reads_object {ms : List (String × Value)} (h : Writes (.members ms) cs)
    (ih : Reads (.members ms) cs) : Reads (.value (.object ms)) ('{' :: (cs ++ ['}'])) := by
  intro fuel rest hfuel _
  simp only [List.length_cons, List.length_append, List.length_nil] at hfuel
  obtain ⟨fuel, rfl⟩ : ∃ k, fuel = k + 1 := ⟨fuel - 1, by omega⟩
  obtain ⟨tail, hskip⟩ := h.head_members ('}' :: rest)
  have hmembers := ih fuel rest (by omega)
  rw [List.cons_append, List.append_assoc, List.singleton_append, value_object hskip, hmembers]
  rfl

theorem reads_item {before behind : List Char} (hbefore : IsBlank before) (hbehind : IsBlank behind)
    (ih : Reads (.value v) cs) : Reads (.item v) (before ++ (cs ++ behind)) := by
  intro fuel rest hfuel hends hskip
  simp only [List.length_append] at hfuel
  refine ⟨behind ++ rest, ?_, ?_⟩
  · have hvalue := ih fuel (behind ++ rest) (by omega) (hends.blank_append hbehind)
    rw [List.append_assoc, List.append_assoc, ← value_skip, skip_append hbefore, value_skip, hvalue]
  · rw [skip_append hbehind, hskip]

theorem reads_lastItem (ih : Reads (.item v) cs) : Reads (.items [v]) cs := by
  intro fuel rest hfuel
  obtain ⟨fuel, rfl⟩ : ∃ k, fuel = k + 1 := ⟨fuel - 1, by omega⟩
  obtain ⟨left, hvalue, hleft⟩ := ih fuel (']' :: rest) (by omega) (by simp [Ends])
    (skip_cons_of_not rfl rest)
  rw [items, hvalue]
  simp only [hleft]

theorem reads_moreItems {vs : List Value} {later : List Char} (ih : Reads (.item v) cs)
    (ihlater : Reads (.items vs) later) : Reads (.items (v :: vs)) (cs ++ ',' :: later) := by
  intro fuel rest hfuel
  simp only [List.length_append, List.length_cons] at hfuel
  obtain ⟨fuel, rfl⟩ : ∃ k, fuel = k + 1 := ⟨fuel - 1, by omega⟩
  obtain ⟨left, hvalue, hleft⟩ := ih fuel (',' :: (later ++ ']' :: rest)) (by omega)
    (by simp [Ends]) (skip_cons_of_not rfl _)
  have hlater := ihlater fuel rest (by omega)
  rw [List.append_assoc, List.cons_append, items, hvalue]
  simp only [hleft, hlater, Option.map_some]

theorem reads_member {before key behind : List Char} {name : String} (hbefore : IsBlank before)
    (hkey : IsString key name) (hbehind : IsBlank behind) (ih : Reads (.item v) cs) :
    Reads (.member (name, v)) (before ++ (key ++ (behind ++ ':' :: cs))) := by
  intro fuel rest hfuel hends hskip
  simp only [List.length_append, List.length_cons] at hfuel
  obtain ⟨left, hvalue, hleft⟩ := ih fuel rest (by omega) hends hskip
  obtain ⟨inside, hquoted, htail⟩ := stringTail_append hkey (behind ++ ':' :: (cs ++ rest))
  have hcolon : skip (behind ++ ':' :: (cs ++ rest)) = ':' :: (cs ++ rest) := by
    rw [skip_append hbehind, skip_cons_of_not rfl]
  have hfront : skip (before ++ (key ++ (behind ++ ':' :: cs)) ++ rest) = '"' :: inside := by
    simp only [List.append_assoc, List.cons_append]
    rw [skip_append hbefore, hquoted, skip_cons_of_not rfl]
  rw [members, hfront]
  simp only [htail, hcolon, hvalue, hleft.trans hskip.symm]
  rfl

theorem reads_lastMember {m : String × Value} (ih : Reads (.member m) cs) :
    Reads (.members [m]) cs := by
  intro fuel rest hfuel
  obtain ⟨fuel, rfl⟩ : ∃ k, fuel = k + 1 := ⟨fuel - 1, by omega⟩
  rw [ih fuel ('}' :: rest) (by omega) (by simp [Ends]) (skip_cons_of_not rfl rest), behindMember,
    skip_cons_of_not rfl]
  rfl

theorem reads_moreMembers {m : String × Value} {ms : List (String × Value)} {later : List Char}
    (ih : Reads (.member m) cs) (ihlater : Reads (.members ms) later) :
    Reads (.members (m :: ms)) (cs ++ ',' :: later) := by
  intro fuel rest hfuel
  simp only [List.length_append, List.length_cons] at hfuel
  obtain ⟨fuel, rfl⟩ : ∃ k, fuel = k + 1 := ⟨fuel - 1, by omega⟩
  have hlater := ihlater fuel rest (by omega)
  rw [List.append_assoc, List.cons_append, ih fuel _ (by omega) (by simp [Ends])
    (skip_cons_of_not rfl _), behindMember, skip_cons_of_not rfl]
  simp only [hlater, Option.map_some]

theorem reads_of_writes {p : Phrase} {cs : List Char} (h : Writes p cs) : Reads p cs := by
  induction h with
  | nullWord => exact reads_of_step .nullWord fun _ _ _ => rfl
  | trueWord => exact reads_of_step .trueWord fun _ _ _ => rfl
  | falseWord => exact reads_of_step .falseWord fun _ _ _ => rfl
  | number h => exact reads_number h
  | string h => exact reads_string h
  | emptyArray h => exact reads_emptyArray h
  | array h ih => exact reads_array h ih
  | emptyObject h => exact reads_emptyObject h
  | object h ih => exact reads_object h ih
  | item hbefore hbehind _ ih => exact reads_item hbefore hbehind ih
  | lastItem _ ih => exact reads_lastItem ih
  | moreItems _ _ ih ihlater => exact reads_moreItems ih ihlater
  | member hbefore hkey hbehind _ ih => exact reads_member hbefore hkey hbehind ih
  | lastMember _ ih => exact reads_lastMember ih
  | moreMembers _ _ ih ihlater => exact reads_moreMembers ih ihlater

/-- What stands behind a value is read after it. -/
theorem value_of_writes {front back : List Char} (h : Writes (.item v) front) (hends : Ends back)
    (hskip : skip back = back) :
    ∃ left, value (2 * (front ++ back).length + 2) (front ++ back) = some (v, left) ∧
      skip left = back :=
  reads_of_writes h _ back (by rw [List.length_append]; omega) hends hskip

/-- A text with something else behind a value is no JSON. -/
theorem parse_eq_none_of_behind {front back : List Char} {text : String}
    (htext : text.toList = front ++ back) (h : Writes (.item v) front) (hends : Ends back)
    (hskip : skip back = back) (hne : back ≠ []) : parse text = none := by
  obtain ⟨left, hvalue, hleft⟩ := value_of_writes h hends hskip
  rw [parse, htext, hvalue]
  exact if_neg (hleft ▸ hne)

/-- **A text is read as what it stands for.** The grammar derives a text as a value exactly if it is
read as that value, so no text stands for two values, and every text that stands for one is read. -/
theorem parse_eq_some_iff {text : String} : parse text = some v ↔ IsTextOf text v := by
  constructor
  · intro h
    unfold parse at h
    split at h
    · rename_i w rest hvalue
      split at h
      · rename_i hrest
        obtain rfl := Option.some.inj h
        obtain ⟨hsound, -, -⟩ := readers_sound (2 * text.toList.length + 2)
        obtain ⟨before, inner, hbefore, hwrites, htext⟩ := hsound _ _ _ hvalue
        obtain ⟨behind, hbehind, rfl⟩ := exists_of_skip hrest
        rw [IsTextOf, htext, List.append_nil]
        exact .item hbefore hbehind hwrites
      · cases h
    · cases h
  · intro h
    obtain ⟨left, hvalue, hleft⟩ := value_of_writes h (by simp [Ends]) (rfl : skip [] = [])
    rw [List.append_nil] at hvalue
    rw [parse, hvalue]
    exact if_pos hleft

/-- A blank text is no JSON. -/
theorem parse_of_blank {text : String} (h : Text.isEmptyLine text = true) : parse text = none := by
  cases hparse : parse text with
  | none => rfl
  | some v =>
      have hwrites : Writes (.item v) text.toList := parse_eq_some_iff.mp hparse
      have hblank : ∀ c ∈ text.toList, Text.isSpace c = true := by
        simpa [Text.isEmptyLine] using h
      generalize text.toList = cs at hwrites hblank
      cases hwrites with
      | item _ _ hvalue =>
          obtain ⟨c, tail, hspace, -, rfl⟩ := hvalue.head_value
          rw [hblank c (by simp)] at hspace
          cases hspace

end CompileCommands.Json
