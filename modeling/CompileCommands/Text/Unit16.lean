/-!
# Sixteen-bit units

A character of the basic plane is one unit, its code point. Any other is two, a high half and a low
half. Patterns count and compare in units.
-/

namespace CompileCommands.Text

def unitsOfChar (c : Char) : List Nat :=
  let n := c.toNat
  if n < 0x10000 then [n] else [0xd800 + (n - 0x10000) / 0x400, 0xdc00 + (n - 0x10000) % 0x400]

def units16 (text : String) : List Nat := text.toList.flatMap unitsOfChar

end CompileCommands.Text
