import CompileCommands.CommandLine.Suggestion
import CompileCommands.Settings

/-!
# Command line arguments

Words are read from left to right. A known option is applied where it stands; one with a value
takes the next word, or what is joined to it: behind the letter of a short option, behind the
equals sign of a long one. Short options without a value may be followed by others in one word. Any
other word that begins with a dash is unknown, and so are the operands behind it. Two dashes end
the options.

The help option counts as unknown, and is looked for among the unknown words before anything else.
-/

namespace CompileCommands.CommandLine

/-! ## Options -/

inductive Flag where
  | output
  | excludeDirectory
  | excludeFile
  | verbose
  deriving DecidableEq, Repr

namespace Flag

def all : List Flag := [output, excludeDirectory, excludeFile, verbose]

def long : Flag → String
  | output => "--output"
  | excludeDirectory => "--exclude-directory"
  | excludeFile => "--exclude-file"
  | verbose => "--verbose"

def short? : Flag → Option String
  | output => some "-o"
  | verbose => some "-v"
  | excludeDirectory | excludeFile => none

/-- What stands for the option's value in its description, if it has one. -/
def value? : Flag → Option String
  | output => some "<file>"
  | excludeDirectory | excludeFile => some "<regex>"
  | verbose => none

def describe (f : Flag) : String :=
  f.short?.elim "" (· ++ ", ") ++ f.long ++ f.value?.elim "" (" " ++ ·)

def ofName? (word : String) : Option Flag :=
  all.find? fun f => f.long = word || f.short? = some word

/-- Applies an option to the choices made before. The last output counts; exclusions add up. -/
def apply (f : Flag) (value : String) (options : Options) : Options :=
  match f with
  | output => { options with output := some value }
  | excludeDirectory =>
      { options with excludeDirectory := options.excludeDirectory ++ [value] }
  | excludeFile => { options with excludeFile := options.excludeFile ++ [value] }
  | verbose => { options with verbose := true }

end Flag

def helpNames : List String := ["-h", "--help"]

/-! ## Words -/

inductive UsageFault where
  | missingValue (flag : Flag)
  | unknownOption (word : String)
  | missingInput
  deriving DecidableEq, Repr

/-- What has been read: the choices, the operands, and the unknown words with all behind them. -/
structure Arguments where
  options : Options
  operands : List String
  unknown : List String
  deriving DecidableEq, Repr

namespace Arguments

def none : Arguments := ⟨.none, [], []⟩

def apply (a : Arguments) (f : Flag) (value : String) : Arguments :=
  { a with options := f.apply value a.options }

/-- Takes a word that is no option: an operand, or an unknown word once there is one. -/
def take (a : Arguments) (word : String) : Arguments :=
  if a.unknown = [] && !(word.toList.head? = some '-' && 1 < word.length) then
    { a with operands := a.operands ++ [word] }
  else { a with unknown := a.unknown ++ [word] }

def takeRest (a : Arguments) (words : List String) : Arguments :=
  if a.unknown = [] then { a with operands := a.operands ++ words }
  else { a with unknown := a.unknown ++ "--" :: words }

/-- Takes off the letter of the option without a value as long as more letters follow it. -/
def dropVerbose : List Char → Bool × List Char
  | 'v' :: c :: rest => (true, (dropVerbose (c :: rest)).2)
  | letters => (false, letters)

/-- A word behind a dash: whether the option without a value is among its first letters, and the
word without them. -/
def uncluster (word : String) : Bool × String :=
  match word.toList with
  | '-' :: letters =>
      let (verbose, letters) := dropVerbose letters
      (verbose, String.ofList ('-' :: letters))
  | _ => (false, word)

/-- An option and its value joined in one word. -/
def joined? (word : String) : Option (Flag × String) :=
  match word.toList with
  | '-' :: '-' :: _ =>
      let name := word.toList.takeWhile (· ≠ '=')
      match word.toList.dropWhile (· ≠ '=') with
      | '=' :: value => do
          let f ← Flag.ofName? (String.ofList name)
          if f.value?.isSome then some (f, String.ofList value) else Option.none
      | _ => Option.none
  | '-' :: letter :: value => do
      let f ← Flag.ofName? (String.ofList ['-', letter])
      if f.value?.isSome && value ≠ [] then some (f, String.ofList value) else Option.none
  | _ => Option.none

def read (a : Arguments) : List String → Except UsageFault Arguments
  | [] => .ok a
  | first :: rest =>
      let (verbose, word) := uncluster first
      let a := if verbose then a.apply .verbose "" else a
      if word = "--" then .ok (a.takeRest rest)
      else
        match Flag.ofName? word with
        | some f =>
            if f.value?.isSome then
              match rest with
              | value :: rest => read (a.apply f value) rest
              | [] => .error (.missingValue f)
            else read (a.apply f "") rest
        | Option.none =>
            match joined? word with
            | some (f, value) => read (a.apply f value) rest
            | Option.none => read (a.take word) rest

end Arguments

/-! ## Requests -/

inductive Request where
  | help
  | convert (input : String) (options : Options)
  deriving DecidableEq, Repr

def Request.ofArguments (a : Arguments) : Except UsageFault Request :=
  if a.unknown.any (· ∈ helpNames) then .ok .help
  else
    match a.unknown, a.operands with
    | word :: _, _ => .error (.unknownOption word)
    | [], [] => .error .missingInput
    | [], input :: _ => .ok (.convert input a.options)

def request (words : List String) : Except UsageFault Request := do
  Request.ofArguments (← Arguments.none.read words)

/-! ## Wording -/

def knownWords : List String :=
  (Flag.all.map Flag.long ++ ["--help"]).map fun name => String.ofList (name.toList.drop 2)

def suggestionLine (word : String) : String :=
  match word.toList with
  | '-' :: '-' :: name =>
      match (suggestions (String.ofList name) knownWords).map ("--" ++ ·) with
      | [] => ""
      | [one] => "(Did you mean " ++ one ++ "?)\n"
      | several =>
          "(Did you mean one of " ++ ", ".intercalate (several.mergeSort (· ≤ ·)) ++ "?)\n"
  | _ => ""

def UsageFault.text : UsageFault → String
  | missingValue flag => "error: option '" ++ flag.describe ++ "' argument missing\n"
  | unknownOption word => "error: unknown option '" ++ word ++ "'\n" ++ suggestionLine word
  | missingInput => "error: missing required argument 'input'\n"

end CompileCommands.CommandLine
