import CompileCommands.Text.Unit16

/-!
# Suggesting a known word for an unknown one

Two words are as far apart as the fewest insertions, deletions, substitutions and swaps of
neighbours that turn one into the other, no part being changed twice. Words whose lengths differ by
more than the limit count as entirely different. Suggested are the nearest known words within the
limit that keep more than two fifths of the longer word.
-/

namespace CompileCommands.CommandLine

def limit : Nat := 3

/-- The row of distances for one more unit of the first word: `unit` is that unit, `last` the one
before it, and `two` and `one` are the rows two and one units before. -/
def nextRow (other : Array Nat) (unit : Nat) (last : Option Nat) (two one : Array Nat) :
    Array Nat :=
  (List.range other.size).foldl
    (fun row j =>
      let cost := if other[j]? = some unit then 0 else 1
      let step := min (min (one.getD (j + 1) 0 + 1) (row.getD j 0 + 1)) (one.getD j 0 + cost)
      let swaps := 0 < j && last.isSome && other[j]? = last && other[j - 1]? = some unit
      row.push (if swaps then min step (two.getD (j - 1) 0 + 1) else step))
    #[one.getD 0 0 + 1]

def lastRow (other : Array Nat) (last : Option Nat) (two one : Array Nat) : List Nat → Array Nat
  | [] => one
  | unit :: rest => lastRow other (some unit) one (nextRow other unit last two one) rest

def distance (word other : List Nat) : Nat :=
  if limit < word.length - other.length || limit < other.length - word.length then
    max word.length other.length
  else
    let first := (List.range (other.length + 1)).toArray
    (lastRow other.toArray none #[] first word).getD other.length 0

def isSimilar (word other : List Nat) : Bool :=
  let longer := max word.length other.length
  distance word other ≤ limit && 2 * longer < 5 * (longer - distance word other)

/-- The nearest of the known words, those that are near enough. -/
def suggestions (word : String) (known : List String) : List String :=
  let far (other : String) := distance (Text.units16 word) (Text.units16 other)
  let similar := known.filter fun other => isSimilar (Text.units16 word) (Text.units16 other)
  similar.filter fun other => similar.all fun another => far other ≤ far another

end CompileCommands.CommandLine
