import CompileCommands.Transducer

/-!
# Decoding UTF-8

Any list of bytes has a text. A well-formed sequence stands for its character. An ill-formed one
is cut as late as possible: each longest run of bytes that begins some well-formed sequence, and
each byte that begins none, becomes one replacement character. A byte order mark is kept.
-/

namespace CompileCommands.Text.Utf8

/-- Between two characters, or inside one: so many bytes are to come, these bits have been read,
and the next byte has to lie in this range. -/
inductive State where
  | between
  | inside (missing bits low high : Nat)

def replacement : Char := '\ufffd'

def first (b : Nat) : State × List Char :=
  if b < 0x80 then (.between, [Char.ofNat b])
  else if 0xc2 ≤ b && b ≤ 0xdf then (.inside 1 (b - 0xc0) 0x80 0xbf, [])
  else if 0xe0 ≤ b && b ≤ 0xef then
    (.inside 2 (b - 0xe0) (if b = 0xe0 then 0xa0 else 0x80) (if b = 0xed then 0x9f else 0xbf), [])
  else if 0xf0 ≤ b && b ≤ 0xf4 then
    (.inside 3 (b - 0xf0) (if b = 0xf0 then 0x90 else 0x80) (if b = 0xf4 then 0x8f else 0xbf), [])
  else (.between, [replacement])

/-- A byte that cannot continue the sequence ends it, and is read as a first byte. -/
def step : Transducer State UInt8 Char := fun s byte =>
  let b := byte.toNat
  match s with
  | .between => first b
  | .inside missing bits low high =>
      if low ≤ b && b ≤ high then
        let bits := bits * 64 + (b - 0x80)
        if missing = 1 then (.between, [Char.ofNat bits])
        else (.inside (missing - 1) bits 0x80 0xbf, [])
      else
        let (next, written) := first b
        (next, replacement :: written)

def State.rest : State → List Char
  | .between => []
  | .inside .. => [replacement]

def decode (bytes : List UInt8) : String :=
  let (last, text) := Transducer.run step .between bytes
  String.ofList (text ++ last.rest)

def encode (text : String) : List UInt8 := text.toUTF8.data.toList

end CompileCommands.Text.Utf8
