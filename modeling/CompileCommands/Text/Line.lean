import CompileCommands.Transducer

/-!
# Lines

A line ends at a carriage return, a line feed, or the two together. The scan stands in the middle
of a line, or right behind a carriage return, where a line feed belongs to the break just read.
Text behind the last break is a line of its own unless it is empty.
-/

namespace CompileCommands.Text

/-- What has been read of the current line, and whether a carriage return came right before. -/
structure LineScan where
  current : String
  afterReturn : Bool

namespace LineScan

def start : LineScan := ⟨"", false⟩

def step : Transducer LineScan Char String := fun s c =>
  if c = '\r' then (⟨"", true⟩, [s.current])
  else if c = '\n' then (start, if s.afterReturn then [] else [s.current])
  else (⟨s.current.push c, false⟩, [])

def rest (s : LineScan) : List String := if s.current = "" then [] else [s.current]

end LineScan

/-- The lines of a text, without their breaks. -/
def lines (text : String) : List String :=
  let (last, ended) := Transducer.run LineScan.step LineScan.start text.toList
  ended ++ last.rest

end CompileCommands.Text
