import StackAudit.Text.Pieces

/-!
# Arguments

The arguments of a command are options and words. An option is written `--long` or `-s`; one that
takes a value has it behind an equals sign, in the next argument or, for the short form, right behind
the letter. Letters of options without a value may be written together. Behind `--` every argument
is a word.
-/
namespace StackAudit

/-- What an option does. -/
inductive OptionKind where
  /-- Takes a value, once. -/
  | value
  /-- Is there or not. -/
  | switch
  /-- May be repeated. -/
  | count
  /-- Asks for help. -/
  | help
  /-- Asks for the version. -/
  | version
deriving DecidableEq

/-- An option that a command knows. -/
structure OptionSpec where
  long : String
  short : Option Char := none
  kind : OptionKind := .value
deriving DecidableEq

/-- Why arguments are not those of a command. -/
inductive UsageError where
  | unknownOption (name : String)
  | unknownCommand (name : String)
  | missingCommand
  | missingValue (option : String)
  | unexpectedValue (option : String)
  | repeated (option : String)
  | invalidValue (option value : String)
  | conflict (option other : String)
  | missingWord (name : String)
  | unexpectedWord (word : String)
deriving DecidableEq

def UsageError.message : UsageError → String
  | .unknownOption name => "unknown option: " ++ name
  | .unknownCommand name => "unknown command: " ++ name
  | .missingCommand => "a command is required"
  | .missingValue option => "a value is required for --" ++ option
  | .unexpectedValue option => s!"--{option} takes no value"
  | .repeated option => s!"--{option} is given more than once"
  | .invalidValue option value => s!"invalid value for --{option}: {value}"
  | .conflict option other => s!"--{option} cannot be used with --{other}"
  | .missingWord name => "missing argument: " ++ name
  | .unexpectedWord word => "unexpected argument: " ++ word

/-- What ends the reading of arguments early. -/
inductive Interruption where
  | help
  | version
  | usage (cause : UsageError)
deriving DecidableEq

/-- The arguments read so far. -/
structure Arguments where
  /-- The options with values, by their long names. -/
  values : List (String × String) := []
  /-- The other options, by their long names. -/
  marks : List String := []
  words : List String := []
  /-- The option whose value is the next argument. -/
  awaiting : Option String := none
  /-- Whether all that follows is words. -/
  literal : Bool := false

namespace Arguments

/-- The value of an option. -/
def value? (a : Arguments) (long : String) : Option String := a.values.lookup long

def has (a : Arguments) (long : String) : Bool := a.marks.contains long

/-- Adds the value of an option. -/
def giveValue (a : Arguments) (long value : String) : Except Interruption Arguments :=
  if (a.value? long).isSome then .error (.usage (.repeated long))
  else .ok { a with values := a.values ++ [(long, value)], awaiting := none }

/-- Adds an option that takes no value. -/
def giveMark (a : Arguments) (o : OptionSpec) : Except Interruption Arguments :=
  match o.kind with
  | .help => .error .help
  | .version => .error .version
  | .count => .ok { a with marks := a.marks ++ [o.long] }
  | _ =>
    if a.has o.long then .error (.usage (.repeated o.long))
    else .ok { a with marks := a.marks ++ [o.long] }

/-- Reads what follows the two dashes of a long option. -/
def readLong (known : List OptionSpec) (a : Arguments) (text : String) :
    Except Interruption Arguments :=
  let (name, value?) := match Text.splitFirst '=' text with
    | some (name, value) => (name, some value)
    | none => (text, none)
  match known.find? (·.long = name), value? with
  | none, _ => .error (.usage (.unknownOption ("--" ++ name)))
  | some o, some value =>
    if o.kind = .value then a.giveValue name value else .error (.usage (.unexpectedValue name))
  | some o, none =>
    if o.kind = .value then .ok { a with awaiting := some name } else a.giveMark o

/-- Reads the letters behind the dash of short options. -/
def readShort (known : List OptionSpec) (a : Arguments) :
    List Char → Except Interruption Arguments
  | [] => .ok a
  | c :: rest =>
    match known.find? (·.short = some c) with
    | none => .error (.usage (.unknownOption (String.ofList ['-', c])))
    | some o =>
      if o.kind = .value then
        match rest with
        | [] => .ok { a with awaiting := some o.long }
        | '=' :: value => a.giveValue o.long (String.ofList value)
        | value => a.giveValue o.long (String.ofList value)
      else do readShort known (← a.giveMark o) rest

/-- Whether an argument can only be an option, or the mark before words. A dash alone is a word. -/
def looksLikeOption (arg : String) : Bool := Text.startsWith "-" arg && arg != "-"

/-- Reads one argument. -/
def read (known : List OptionSpec) (a : Arguments) (arg : String) :
    Except Interruption Arguments :=
  if a.literal then .ok { a with words := a.words ++ [arg] }
  else match a.awaiting with
    | some long =>
      if looksLikeOption arg then .error (.usage (.missingValue long)) else a.giveValue long arg
    | none =>
      match arg.toList with
      | ['-', '-'] => .ok { a with literal := true }
      | '-' :: '-' :: long => readLong known a (String.ofList long)
      | '-' :: c :: rest => readShort known a (c :: rest)
      | _ => .ok { a with words := a.words ++ [arg] }

/-- Accepts arguments after which no value is missing. -/
def finish (a : Arguments) : Except Interruption Arguments :=
  match a.awaiting with
  | some long => .error (.usage (.missingValue long))
  | none => .ok a

/-- Reads all arguments of a command that takes the given number of words. -/
def readAll (known : List OptionSpec) (words : Nat) (args : List String) :
    Except Interruption Arguments := do
  let a ← args.foldlM (fun a arg => do
    let a ← a.read known arg
    match a.words.drop words with
    | [] => return a
    | word :: _ => throw (.usage (.unexpectedWord word))) ({} : Arguments)
  a.finish

end Arguments

end StackAudit
