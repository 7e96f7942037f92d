import CompileCommands.Json.Parser
import CompileCommands.Proofs.Text.Space
import Mathlib.Data.List.TakeDrop

/-!
# White space, numbers and strings of JSON

A number is an optional minus sign, an integer part, and perhaps a fraction and an exponent. A
string stands between double quotes and is made of characters and escapes, each of which gives one
code point (`Item`). The readers take such a text off the front of a longer one, and take nothing
else: a number ends where no character of one can follow, a string at its closing quote.
-/

namespace CompileCommands.Json

/-! ## White space -/

theorem isWhitespace_iff {c : Char} :
    isWhitespace c = true ↔ c = ' ' ∨ c = '\t' ∨ c = '\n' ∨ c = '\r' := by
  simp [isWhitespace, or_assoc]

/-- White space of JSON is white space. -/
theorem isSpace_of_isWhitespace {c : Char} (h : isWhitespace c = true) : Text.isSpace c = true := by
  rcases isWhitespace_iff.mp h with rfl | rfl | rfl | rfl <;> rfl

def IsBlank (cs : List Char) : Prop := ∀ c ∈ cs, isWhitespace c = true

instance (cs : List Char) : Decidable (IsBlank cs) :=
  decidable_of_iff (cs.all isWhitespace = true) List.all_eq_true

theorem IsBlank.append {cs ds : List Char} (h : IsBlank cs) (h' : IsBlank ds) :
    IsBlank (cs ++ ds) := by
  intro c hc
  rcases List.mem_append.mp hc with hc | hc
  · exact h c hc
  · exact h' c hc

theorem skip_cons_of_not {c : Char} (h : isWhitespace c = false) (cs : List Char) :
    skip (c :: cs) = c :: cs :=
  List.dropWhile_cons_of_neg (by simp [h])

theorem skip_skip (cs : List Char) : skip (skip cs) = skip cs :=
  List.dropWhile_idempotent _ cs

theorem skip_append {ws : List Char} (h : IsBlank ws) (cs : List Char) :
    skip (ws ++ cs) = skip cs :=
  List.dropWhile_append_of_pos h

/-- What was skipped is white space. -/
theorem exists_of_skip {cs rest : List Char} (h : skip cs = rest) :
    ∃ before, IsBlank before ∧ cs = before ++ rest := by
  refine ⟨cs.takeWhile isWhitespace, fun c hc => List.mem_takeWhile_imp hc, ?_⟩
  rw [← h]
  exact List.takeWhile_append_dropWhile.symm

/-- The readers of values take white space before them as nothing. -/
theorem value_skip (fuel : Nat) (cs : List Char) : value fuel (skip cs) = value fuel cs := by
  cases fuel with
  | zero => rfl
  | succ fuel => rw [value, value, skip_skip]

theorem items_skip (fuel : Nat) (cs : List Char) : items fuel (skip cs) = items fuel cs := by
  cases fuel with
  | zero => rfl
  | succ fuel => rw [items, items, value_skip]

theorem members_skip (fuel : Nat) (cs : List Char) : members fuel (skip cs) = members fuel cs := by
  cases fuel with
  | zero => rfl
  | succ fuel => rw [members, members, skip_skip]

/-! ## Digits -/

def IsDigits (cs : List Char) : Prop := cs ≠ [] ∧ ∀ c ∈ cs, c.isDigit = true

def BeginsWithout (p : Char → Bool) (cs : List Char) : Prop := ∀ c ∈ cs.head?, p c = false

variable {cs rest : List Char}

theorem digits_eq (cs : List Char) :
    digits cs =
      if cs.takeWhile Char.isDigit = [] then none
      else some (cs.takeWhile Char.isDigit, cs.dropWhile Char.isDigit) := by
  rw [digits, List.span_eq_takeWhile_dropWhile]
  cases cs.takeWhile Char.isDigit <;> rfl

theorem digits_sound {ds : List Char} (h : digits cs = some (ds, rest)) :
    IsDigits ds ∧ cs = ds ++ rest := by
  rw [digits_eq] at h
  split at h
  · cases h
  · rename_i hne
    obtain ⟨rfl, rfl⟩ := Prod.mk.inj (Option.some.inj h)
    exact ⟨⟨hne, fun c hc => List.mem_takeWhile_imp hc⟩, List.takeWhile_append_dropWhile.symm⟩

/-- Digits read with something put before them. -/
theorem exists_of_digits_map {f : List Char → List Char} {text : List Char}
    (h : ((digits cs).map fun (ds, rest) => (f ds, rest)) = some (text, rest)) :
    ∃ ds, IsDigits ds ∧ text = f ds ∧ cs = ds ++ rest := by
  obtain ⟨⟨ds, behind⟩, hdigits, heq⟩ := Option.map_eq_some_iff.mp h
  obtain ⟨rfl, rfl⟩ := Prod.mk.inj heq
  obtain ⟨hds, hcs⟩ := digits_sound hdigits
  exact ⟨ds, hds, rfl, hcs⟩

theorem digits_append {ds : List Char} (h : IsDigits ds) (hrest : BeginsWithout Char.isDigit rest) :
    digits (ds ++ rest) = some (ds, rest) := by
  have hdrop : (ds ++ rest).dropWhile Char.isDigit = rest :=
    Text.dropWhile_append_eq ds h.2 hrest
  have htake : (ds ++ rest).takeWhile Char.isDigit = ds := by
    have hall := List.takeWhile_append_dropWhile (p := Char.isDigit) (l := ds ++ rest)
    rw [hdrop] at hall
    exact List.append_cancel_right hall
  rw [digits_eq, htake, hdrop, if_neg h.1]

/-! ## Numbers -/

def IsInteger (cs : List Char) : Prop := cs = ['0'] ∨ IsDigits cs ∧ cs.head? ≠ some '0'

def IsFraction (cs : List Char) : Prop := cs = [] ∨ ∃ ds, IsDigits ds ∧ cs = '.' :: ds

def IsExponent (cs : List Char) : Prop :=
  cs = [] ∨ ∃ letter sign ds, (letter = 'e' ∨ letter = 'E') ∧
    (sign = [] ∨ sign = ['+'] ∨ sign = ['-']) ∧ IsDigits ds ∧ cs = letter :: (sign ++ ds)

def IsNumber (cs : List Char) : Prop :=
  ∃ minus whole fraction exponent, (minus = [] ∨ minus = ['-']) ∧ IsInteger whole ∧
    IsFraction fraction ∧ IsExponent exponent ∧ cs = minus ++ (whole ++ (fraction ++ exponent))

def isDecimal (c : Char) : Bool := c.isDigit || c = '.'

def isNumeric (c : Char) : Bool := isDecimal c || c = 'e' || c = 'E'

theorem BeginsWithout.digit (h : BeginsWithout isDecimal cs) : BeginsWithout Char.isDigit cs :=
  fun c hc => (Bool.or_eq_false_iff.mp (h c hc)).1

theorem BeginsWithout.decimal (h : BeginsWithout isNumeric cs) : BeginsWithout isDecimal cs :=
  fun c hc => (Bool.or_eq_false_iff.mp (Bool.or_eq_false_iff.mp (h c hc)).1).1

theorem integerPart_sound {whole : List Char} (h : integerPart cs = some (whole, rest)) :
    IsInteger whole ∧ cs = whole ++ rest := by
  unfold integerPart at h
  split at h
  · obtain ⟨rfl, rfl⟩ := Prod.mk.inj (Option.some.inj h)
    exact ⟨Or.inl rfl, rfl⟩
  · rename_i hzero
    obtain ⟨hdigits, rfl⟩ := digits_sound h
    refine ⟨Or.inr ⟨hdigits, ?_⟩, rfl⟩
    intro hhead
    obtain ⟨ds, rfl⟩ := List.head?_eq_some_iff.mp hhead
    exact hzero _ rfl

theorem integerPart_append {whole : List Char} (h : IsInteger whole)
    (hrest : BeginsWithout Char.isDigit rest) :
    integerPart (whole ++ rest) = some (whole, rest) := by
  rcases h with rfl | ⟨hdigits, hzero⟩
  · rfl
  · obtain ⟨d, ds, rfl⟩ := List.exists_cons_of_ne_nil hdigits.1
    have hd : d ≠ '0' := fun e => hzero (congrArg some e)
    rw [List.cons_append, integerPart, ← List.cons_append, digits_append hdigits hrest]
    intro more hmore
    exact hd (List.cons.inj hmore).1

theorem fractionPart_sound {fraction : List Char}
    (h : fractionPart cs = some (fraction, rest)) :
    IsFraction fraction ∧ cs = fraction ++ rest := by
  unfold fractionPart at h
  split at h
  · obtain ⟨ds, hds, rfl, rfl⟩ := exists_of_digits_map (f := ('.' :: ·)) h
    exact ⟨Or.inr ⟨ds, hds, rfl⟩, rfl⟩
  · obtain ⟨rfl, rfl⟩ := Prod.mk.inj (Option.some.inj h)
    exact ⟨Or.inl rfl, rfl⟩

theorem fractionPart_append {fraction : List Char} (h : IsFraction fraction)
    (hrest : BeginsWithout isDecimal rest) :
    fractionPart (fraction ++ rest) = some (fraction, rest) := by
  rcases h with rfl | ⟨ds, hds, rfl⟩
  · rw [List.nil_append, fractionPart]
    rintro more rfl
    exact absurd (hrest '.' rfl) (by decide)
  · rw [List.cons_append, fractionPart, digits_append hds hrest.digit]
    rfl

theorem exponentPart_sound {exponent : List Char}
    (h : exponentPart cs = some (exponent, rest)) :
    IsExponent exponent ∧ cs = exponent ++ rest := by
  unfold exponentPart at h
  split at h
  · rename_i letter behind
    split at h
    · rename_i hletter
      split at h
      · rename_i s more
        split at h
        · rename_i hsign
          obtain ⟨ds, hds, rfl, rfl⟩ := exists_of_digits_map (f := (letter :: s :: ·)) h
          have hsigns : [s] = [] ∨ [s] = ['+'] ∨ [s] = ['-'] := by simpa using hsign
          exact ⟨Or.inr ⟨letter, [s], ds, by simpa using hletter, hsigns, hds, rfl⟩, rfl⟩
        · obtain ⟨ds, hds, rfl, hbehind⟩ := exists_of_digits_map (f := (letter :: ·)) h
          refine ⟨Or.inr ⟨letter, [], ds, by simpa using hletter, Or.inl rfl, hds, rfl⟩, ?_⟩
          rw [hbehind]
          rfl
      · cases h
    · obtain ⟨rfl, rfl⟩ := Prod.mk.inj (Option.some.inj h)
      exact ⟨Or.inl rfl, rfl⟩
  · obtain ⟨rfl, rfl⟩ := Prod.mk.inj (Option.some.inj h)
    exact ⟨Or.inl rfl, rfl⟩

theorem exponentPart_append {exponent : List Char} (h : IsExponent exponent)
    (hrest : BeginsWithout isNumeric rest) :
    exponentPart (exponent ++ rest) = some (exponent, rest) := by
  have hdigit := hrest.decimal.digit
  rcases h with rfl | ⟨letter, sign, ds, hletter, hsign, hds, rfl⟩
  · rw [List.nil_append]
    unfold exponentPart
    split
    · rename_i c cs
      have hc := hrest c rfl
      simp only [isNumeric, Bool.or_eq_false_iff] at hc
      simp [hc]
    · rfl
  · have hcond : (decide (letter = 'e') || decide (letter = 'E')) = true := by simpa using hletter
    rcases hsign with rfl | rfl | rfl
    · obtain ⟨d, ds, rfl⟩ := List.exists_cons_of_ne_nil hds.1
      have hd := hds.2 d List.mem_cons_self
      have hsigned : (decide (d = '+') || decide (d = '-')) = false := by
        rw [Bool.eq_false_iff]
        intro hsign
        rcases (by simpa using hsign : d = '+' ∨ d = '-') with rfl | rfl <;> cases hd
      have hdigits := digits_append hds hdigit
      simp only [List.nil_append, List.cons_append] at hdigits ⊢
      simp [exponentPart, hcond, hsigned, hdigits]
    · simp [exponentPart, hcond, digits_append hds hdigit]
    · simp [exponentPart, hcond, digits_append hds hdigit]

theorem IsInteger.exists_cons (h : IsInteger cs) :
    ∃ d ds, d.isDigit = true ∧ cs = d :: ds := by
  rcases h with rfl | ⟨hdigits, -⟩
  · exact ⟨'0', [], rfl, rfl⟩
  · obtain ⟨d, ds, rfl⟩ := List.exists_cons_of_ne_nil hdigits.1
    exact ⟨d, ds, hdigits.2 d List.mem_cons_self, rfl⟩

theorem IsFraction.beginsWithout (h : IsFraction cs) (hrest : BeginsWithout isDecimal rest) :
    BeginsWithout Char.isDigit (cs ++ rest) := by
  rcases h with rfl | ⟨ds, -, rfl⟩
  · exact hrest.digit
  · rintro c hc
    obtain rfl := Option.some.inj hc
    rfl

theorem IsExponent.beginsWithout (h : IsExponent cs) (hrest : BeginsWithout isNumeric rest) :
    BeginsWithout isDecimal (cs ++ rest) := by
  rcases h with rfl | ⟨letter, sign, ds, hletter, -, -, rfl⟩
  · exact hrest.decimal
  · rintro c hc
    obtain rfl := Option.some.inj hc
    rcases hletter with rfl | rfl <;> rfl

theorem sign_sound (cs : List Char) :
    ((sign cs).1 = [] ∨ (sign cs).1 = ['-']) ∧ cs = (sign cs).1 ++ (sign cs).2 := by
  unfold sign
  split
  · exact ⟨Or.inr rfl, rfl⟩
  · exact ⟨Or.inl rfl, rfl⟩

theorem sign_append {minus : List Char} (h : minus = [] ∨ minus = ['-'])
    (hrest : rest.head? ≠ some '-') : sign (minus ++ rest) = (minus, rest) := by
  rcases h with rfl | rfl
  · rw [List.nil_append, sign]
    rintro more rfl
    exact hrest rfl
  · rfl

theorem number_sound {v : Value} (h : number cs = some (v, rest)) :
    ∃ text, IsNumber text ∧ v = .number (String.ofList text) ∧ cs = text ++ rest := by
  unfold number at h
  simp only [Option.bind_eq_bind, Option.bind_eq_some_iff] at h
  obtain ⟨⟨whole, afterWhole⟩, hwhole, ⟨fraction, afterFraction⟩, hfraction,
    ⟨exponent, afterExponent⟩, hexponent, hresult⟩ := h
  obtain ⟨rfl, rfl⟩ := Prod.mk.inj (Option.some.inj hresult)
  obtain ⟨hminus, hcs⟩ := sign_sound cs
  generalize sign cs = signed at hminus hcs hwhole
  obtain ⟨minus, afterSign⟩ := signed
  obtain ⟨isWhole, rfl⟩ := integerPart_sound hwhole
  obtain ⟨isFraction, rfl⟩ := fractionPart_sound hfraction
  obtain ⟨isExponent, rfl⟩ := exponentPart_sound hexponent
  refine ⟨minus ++ (whole ++ (fraction ++ exponent)), ?_, ?_, ?_⟩
  · exact ⟨minus, whole, fraction, exponent, hminus, isWhole, isFraction, isExponent, rfl⟩
  · simp only [List.append_assoc]
  · rw [hcs]
    simp only [List.append_assoc]

theorem number_append {text : List Char} (h : IsNumber text)
    (hrest : BeginsWithout isNumeric rest) :
    number (text ++ rest) = some (.number (String.ofList text), rest) := by
  obtain ⟨minus, whole, fraction, exponent, hminus, hwhole, hfraction, hexponent, rfl⟩ := h
  have hbehind := hexponent.beginsWithout hrest
  obtain ⟨d, ds, hd, hcons⟩ := hwhole.exists_cons
  have hsign : (whole ++ (fraction ++ (exponent ++ rest))).head? ≠ some '-' := by
    rw [hcons]
    rintro heq
    obtain rfl := Option.some.inj heq
    cases hd
  unfold number
  simp only [List.append_assoc]
  rw [sign_append hminus hsign]
  simp only [integerPart_append hwhole (hfraction.beginsWithout hbehind), Option.bind_eq_bind,
    Option.bind_some, fractionPart_append hfraction hbehind, exponentPart_append hexponent hrest]

/-! ## Strings -/

/-- The letters behind a backslash, with the characters that they stand for. -/
def escapes : List (Char × Char) :=
  [('"', '"'), ('\\', '\\'), ('/', '/'), ('b', '\x08'), ('f', '\x0c'), ('n', '\n'), ('r', '\r'),
    ('t', '\t')]

theorem shortEscape?_eq_some_iff {e c : Char} : shortEscape? e = some c ↔ (e, c) ∈ escapes := by
  constructor
  · intro h
    unfold shortEscape? at h
    split at h
    · rename_i hself
      obtain rfl := Option.some.inj h
      rcases (by simpa using hself : (e = '"' ∨ e = '\\') ∨ e = '/') with (rfl | rfl) | rfl
      all_goals decide
    · repeat' split at h
      all_goals subst_vars
      all_goals cases h
      all_goals decide
  · have hall : ∀ p ∈ escapes, shortEscape? p.1 = some p.2 := by decide
    exact hall (e, c)

/-- What gives one code point inside a string: a character, or an escape by letter or by number. -/
inductive Item : List Char → Nat → Prop
  | plain {c : Char} (hlow : ' ' ≤ c) (hquote : c ≠ '"') (hbackslash : c ≠ '\\') : Item [c] c.toNat
  | letter {e c : Char} (h : (e, c) ∈ escapes) : Item ['\\', e] c.toNat
  | number {a b c d : Char} {n : Nat} (h : hexFour? a b c d = some n) :
      Item ['\\', 'u', a, b, c, d] n

inductive Items : List Char → List Nat → Prop
  | nil : Items [] []
  | cons {cs rest : List Char} {n : Nat} {ns : List Nat} (h : Item cs n) (hrest : Items rest ns) :
      Items (cs ++ rest) (n :: ns)

/-- A string between its quotes. Two code points that are halves of one character make that. -/
def IsString (cs : List Char) (text : String) : Prop :=
  ∃ inside points, Items inside points ∧ cs = '"' :: (inside ++ ['"']) ∧
    text = String.ofList (ofCodePoints points)

theorem readString_item {item : List Char} {n : Nat} (h : Item item n) (read : Array Nat)
    (rest : List Char) : readString read (item ++ rest) = readString (read.push n) rest := by
  cases h with
  | @plain c hlow hquote hbackslash =>
      rw [List.singleton_append, readString, if_neg (Char.not_lt.mpr hlow)]
      · exact hquote
      · rintro a b d e tail h
        exact absurd h hbackslash
      · rintro e tail h
        exact absurd h hbackslash
  | letter h =>
      have hescape := shortEscape?_eq_some_iff.mpr h
      simp only [List.cons_append, List.nil_append]
      rw [readString, hescape]
      rintro a b d f tail rfl
      cases hescape
  | number h =>
      simp only [List.cons_append, List.nil_append]
      rw [readString, h]

theorem readString_items {inside : List Char} {points : List Nat} (h : Items inside points)
    (read : Array Nat) (rest : List Char) :
    readString read (inside ++ '"' :: rest) = some (read.toList ++ points, rest) := by
  induction h generalizing read with
  | nil => simp [readString]
  | cons hitem _ ih =>
      rw [List.append_assoc, readString_item hitem, ih]
      simp

theorem exists_items_cons {item tail : List Char} {n : Nat} (h : Item item n) {read : Array Nat}
    {points : List Nat} (htail : ∃ inside ns, Items inside ns ∧
      points = (read.push n).toList ++ ns ∧ tail = inside ++ '"' :: rest) :
    ∃ inside ns, Items inside ns ∧ points = read.toList ++ ns ∧
      item ++ tail = inside ++ '"' :: rest := by
  obtain ⟨inside, ns, hitems, rfl, rfl⟩ := htail
  refine ⟨item ++ inside, n :: ns, .cons h hitems, ?_, ?_⟩
  · simp
  · rw [List.append_assoc]

theorem readString_sound {read : Array Nat} {points : List Nat}
    (h : readString read cs = some (points, rest)) :
    ∃ inside ns, Items inside ns ∧ points = read.toList ++ ns ∧ cs = inside ++ '"' :: rest := by
  induction read, cs using readString.induct with
  | case1 read => cases h
  | case2 read tail =>
      obtain ⟨rfl, rfl⟩ := Prod.mk.inj (Option.some.inj h)
      exact ⟨[], [], .nil, by simp, rfl⟩
  | case3 read a b c d tail n hn ih =>
      have hitem : Item ['\\', 'u', a, b, c, d] n := .number hn
      have hread := readString_item hitem read tail
      exact exists_items_cons hitem (ih (hread.symm.trans h))
  | case4 read a b c d tail hn =>
      rw [readString, hn] at h
      cases h
  | case5 read e tail hu c hc ih =>
      have hitem : Item ['\\', e] c.toNat := .letter (shortEscape?_eq_some_iff.mp hc)
      have hread := readString_item hitem read tail
      exact exists_items_cons hitem (ih (hread.symm.trans h))
  | case6 read e tail hu hc =>
      rw [readString, hc] at h
      · cases h
      · exact hu
  | case7 read c tail hquote hnumber hletter hlow =>
      rw [readString, if_pos hlow] at h
      · cases h
      · exact hquote
      · exact hnumber
      · exact hletter
  | case8 read c tail hquote hnumber hletter hlow ih =>
      by_cases hbackslash : c = '\\'
      · -- a backslash stands at the very end
        cases tail with
        | nil =>
            subst hbackslash
            cases h
        | cons e tail => exact absurd rfl (hletter e tail hbackslash)
      · have hitem : Item [c] c.toNat := .plain (Char.not_lt.mp hlow) hquote hbackslash
        have hread := readString_item hitem read tail
        exact exists_items_cons hitem (ih (hread.symm.trans h))

theorem stringTail_sound {text : String} (h : stringTail cs = some (text, rest)) :
    ∃ string, IsString string text ∧ '"' :: cs = string ++ rest := by
  obtain ⟨⟨points, behind⟩, hread, heq⟩ := Option.map_eq_some_iff.mp h
  obtain ⟨rfl, rfl⟩ := Prod.mk.inj heq
  obtain ⟨inside, ns, hitems, hpoints, rfl⟩ := readString_sound hread
  obtain rfl : points = ns := by simpa using hpoints
  refine ⟨_, ⟨inside, points, hitems, rfl, rfl⟩, ?_⟩
  simp

theorem stringTail_append {string : List Char} {text : String} (h : IsString string text)
    (rest : List Char) : ∃ inside, string ++ rest = '"' :: inside ∧
      stringTail inside = some (text, rest) := by
  obtain ⟨inside, points, hitems, rfl, rfl⟩ := h
  refine ⟨inside ++ '"' :: rest, by simp, ?_⟩
  rw [stringTail, readString_items hitems]
  simp

end CompileCommands.Json
