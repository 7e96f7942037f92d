/-!
# White space

The white space that is trimmed from log lines and that ends a section marker: the controls from
tab to carriage return, every space of Unicode's class of space separators, the line and paragraph
separators, and the byte order mark. Neither U+0085 nor the zero width space belongs to it.
-/

namespace CompileCommands.Text

def isSpace (c : Char) : Bool :=
  ('\t' ≤ c && c ≤ '\r') || c = ' ' || c = '\u00a0' || c = '\u1680' ||
    ('\u2000' ≤ c && c ≤ '\u200a') || c = '\u2028' || c = '\u2029' || c = '\u202f' ||
    c = '\u205f' || c = '\u3000' || c = '\ufeff'

def trim (cs : List Char) : List Char :=
  ((cs.dropWhile isSpace).reverse.dropWhile isSpace).reverse

def isEmptyLine (line : String) : Bool := line.toList.all isSpace

end CompileCommands.Text
