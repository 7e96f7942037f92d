import CompileCommands.Pattern.Parser

/-!
# Matching patterns

Matching tries the ways a pattern can match in order, and goes back to the next way when what
follows fails: the first alternative before the second, more repetitions before fewer if the loop
is greedy. So a match is a function of what is to follow it. Looking behind reads the text from
right to left. A repetition beyond the least number has to take some text, which bounds each loop
by the length of the text.
-/

namespace CompileCommands.Pattern

/-- A place in the text, and what each group has matched: from where to where. -/
structure Place where
  index : Nat
  groups : Array (Option (Nat × Nat))

namespace Place

/-- Forgets the groups from one on, below another. -/
def forget (p : Place) (firstGroup endGroup : Nat) : Place where
  index := p.index
  groups := p.groups.mapIdx fun i g => if firstGroup ≤ i && i < endGroup then none else g

def record (p : Place) (index : Nat) (start : Nat) : Place where
  index := p.index
  groups := p.groups.setIfInBounds index (some (min start p.index, max start p.index))

end Place

/-- What is to match behind a place: the last place of a match, if there is one. -/
abbrev Rest := Place → Option Place

def matchLoop (body : Place → Rest → Option Place) (forget : Place → Place) (greedy : Bool)
    (rest : Rest) : Nat → Nat → Option Nat → Place → Option Place
  | 0, _, _, _ => none
  | fuel + 1, least, most, p =>
      let again (_ : Unit) : Option Place :=
        body (forget p) fun q =>
          if least = 0 && q.index = p.index then none
          else matchLoop body forget greedy rest fuel (least - 1) (most.map (· - 1)) q
      if most = some 0 then rest p
      else if least ≠ 0 then again ()
      else if greedy then (again ()).orElse fun _ => rest p
      else (rest p).orElse again

def unitAt? (text : Array Nat) (forward : Bool) (index : Nat) : Option Nat :=
  if forward then text[index]? else if index = 0 then none else text[index - 1]?

def isWordEdge (text : Array Nat) (index : Nat) : Bool :=
  let isWord (u : Option Nat) := u.any isWordUnit
  isWord (unitAt? text false index) != isWord (unitAt? text true index)

/-- The index behind a copy of a part of the text, in the direction of reading. -/
def behindCopy? (text : Array Nat) (forward : Bool) (index start stop : Nat) : Option Nat :=
  let copy := text.extract start stop
  if forward then
    if text.extract index (index + copy.size) = copy then some (index + copy.size) else none
  else if copy.size ≤ index && text.extract (index - copy.size) index = copy then
    some (index - copy.size)
  else none

def Reference.index? (names : List (List Nat × Nat)) : Reference → Option Nat
  | number index => some index
  | name text => names.lookup text

/-- Matches a tree at a place, with what is to follow it. A group that has matched nothing is
referred to as the empty text. -/
def Tree.run (names : List (List Nat × Nat)) (text : Array Nat) :
    Tree → Bool → Place → Rest → Option Place
  | empty, _, p, rest => rest p
  | one set, forward, p, rest =>
      match unitAt? text forward p.index with
      | some u =>
          if set.contains u then rest ⟨if forward then p.index + 1 else p.index - 1, p.groups⟩
          else none
      | none => none
  | both a b, forward, p, rest =>
      if forward then a.run names text forward p fun q => b.run names text forward q rest
      else b.run names text forward p fun q => a.run names text forward q rest
  | either a b, forward, p, rest =>
      (a.run names text forward p rest).orElse fun _ => b.run names text forward p rest
  | group index body, forward, p, rest =>
      body.run names text forward p fun q => rest (q.record index p.index)
  | reference target, forward, p, rest =>
      match (target.index? names).bind fun i => p.groups[i]?.join with
      | some (start, stop) =>
          (behindCopy? text forward p.index start stop).bind fun i => rest ⟨i, p.groups⟩
      | none => rest p
  | lineStart, _, p, rest => if p.index = 0 then rest p else none
  | lineEnd, _, p, rest => if p.index = text.size then rest p else none
  | wordEdge inside, _, p, rest => if isWordEdge text p.index == inside then rest p else none
  | look ahead holds body, _, p, rest =>
      match body.run names text ahead p some with
      | some q => if holds then rest ⟨p.index, q.groups⟩ else none
      | none => if holds then none else rest p
  | loop body least most greedy firstGroup endGroup, forward, p, rest =>
      matchLoop (fun q next => body.run names text forward q next)
        (·.forget firstGroup endGroup) greedy rest (least + text.size + 2) least most p

def occursIn (pattern : Pattern) (text : String) : Bool :=
  let us := (Text.units16 text).toArray
  let none := Array.replicate (pattern.groups + 1) none
  (List.range (us.size + 1)).any fun start =>
    (pattern.tree.run pattern.names us true ⟨start, none⟩ some).isSome

end CompileCommands.Pattern
