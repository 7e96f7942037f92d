/-!
# JSON values

An object keeps its members as they were written. Where a key is written twice, the last one
counts. Numbers are kept as their text: they are read, and nothing is computed with them.
-/

namespace CompileCommands.Json

inductive Value where
  | null
  | bool (value : Bool)
  | number (text : String)
  | string (text : String)
  | array (items : List Value)
  | object (members : List (String × Value))

/-- The member of an object that counts for a key. -/
def Value.member? (key : String) : Value → Option Value
  | object members => members.reverse.lookup key
  | _ => none

end CompileCommands.Json
