import CompileCommands.Text.Space

/-!
# Pattern trees

A pattern matches sixteen-bit units. Its tree has a leaf for a unit of some set, the assertions
about a place, groups that record what they match, references to what a group has matched, and
repetitions.
-/

namespace CompileCommands.Pattern

/-! ## Sets of units -/

def isWordUnit (u : Nat) : Bool :=
  u < 0x80 && ((Char.ofNat u).isAlphanum || Char.ofNat u = '_')

inductive Range where
  | between (low high : Nat)
  | digit (inside : Bool)
  | space (inside : Bool)
  | word (inside : Bool)
  deriving DecidableEq, Repr

/-- Half of a pair is no white space. -/
def Range.contains : Range → Nat → Bool
  | between low high, u => low ≤ u && u ≤ high
  | digit inside, u => ('0'.toNat ≤ u && u ≤ '9'.toNat) == inside
  | space inside, u => Text.isSpace (Char.ofNat u) == inside
  | word inside, u => isWordUnit u == inside

/-- The units in some range, or those in none. -/
structure UnitSet where
  ranges : List Range
  inside : Bool
  deriving DecidableEq, Repr

namespace UnitSet

def contains (s : UnitSet) (u : Nat) : Bool := s.ranges.any (·.contains u) == s.inside

def only (u : Nat) : UnitSet := ⟨[.between u u], true⟩

/-- What a dot matches: all but the ends of lines. -/
def dot : UnitSet :=
  ⟨[.between 0x0a 0x0a, .between 0x0d 0x0d, .between 0x2028 0x2029], false⟩

end UnitSet

/-! ## Trees -/

inductive Reference where
  | number (index : Nat)
  | name (text : List Nat)
  deriving DecidableEq, Repr

inductive Tree where
  | empty
  | one (set : UnitSet)
  | both (first second : Tree)
  | either (first second : Tree)
  | group (index : Nat) (body : Tree)
  | reference (target : Reference)
  | lineStart
  | lineEnd
  /-- Between a word unit and another, or, if not `inside`, anywhere else. -/
  | wordEdge (inside : Bool)
  /-- What follows, or precedes, does match, or, if not `holds`, does not. -/
  | look (ahead holds : Bool) (body : Tree)
  /-- So many times the body, as often as possible if `greedy`, else as seldom. Each time forgets
  the groups from `firstGroup` on, below `endGroup`. -/
  | loop (body : Tree) (least : Nat) (most : Option Nat) (greedy : Bool) (firstGroup endGroup : Nat)
  deriving Repr

/-- The body takes no unit of the text, whatever it matches. -/
def Tree.standsStill : Tree → Bool
  | empty | lineStart | lineEnd | wordEdge _ | look .. => true
  | one _ | reference _ => false
  | both a b | either a b => a.standsStill && b.standsStill
  | group _ body => body.standsStill
  | loop body .. => body.standsStill

end CompileCommands.Pattern

namespace CompileCommands

/-- A pattern: its tree, the number of its groups, and the groups that have a name. -/
structure Pattern where
  tree : Pattern.Tree
  groups : Nat
  names : List (List Nat × Nat)

end CompileCommands
