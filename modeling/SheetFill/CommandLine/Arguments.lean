import SheetFill.Text.Cut

/-!
# Arguments of a command

A command has options, each with a long name and perhaps a letter. Behind two hyphens and the name, or behind a hyphen and
the letter, stands the option's value: with an equality sign, as the next argument, or, behind a letter, right away.
Letters of options without a value may stand together. An argument that starts with a hyphen is never a value that stands
alone, except for a single hyphen, and behind two hyphens alone everything is an operand.

An option may be given once, unless its values are collected.
-/

namespace SheetFill.CommandLine

/-- What is wrong with the arguments. -/
inductive UsageFault where
  | noCommand
  | unknownCommand (name : String)
  | unknownOption (argument : String)
  | missingValue (option : String)
  | needlessValue (option : String)
  | repeatedOption (option : String)
  | missingOption (option : String)
  | missingOperand (name : String)
  | needlessOperand (argument : String)
  | badValue (name value : String)
deriving DecidableEq, Repr

/-- The message of a fault. -/
def UsageFault.message : UsageFault → String
  | noCommand => "a command is required"
  | unknownCommand name => "unknown command '" ++ name ++ "'"
  | unknownOption argument => "unexpected argument '" ++ argument ++ "'"
  | missingValue option => "a value is required for '--" ++ option ++ "'"
  | needlessValue option => "no value is allowed for '--" ++ option ++ "'"
  | repeatedOption option => "'--" ++ option ++ "' cannot be given several times"
  | missingOption option => "'--" ++ option ++ "' is required"
  | missingOperand name => "'" ++ name ++ "' is required"
  | needlessOperand argument => "unexpected argument '" ++ argument ++ "'"
  | badValue name value => "invalid value '" ++ value ++ "' for '" ++ name ++ "'"

/-- Why no command is run. -/
inductive Stop where
  /-- The arguments ask for help. -/
  | help
  /-- The arguments ask for the version. -/
  | version
  | usage (fault : UsageFault)
deriving DecidableEq, Repr

/-- What an option takes. -/
inductive Arity where
  /-- No value. -/
  | flag
  /-- One value. -/
  | value
  /-- One value each time it is given. -/
  | values
deriving DecidableEq, Repr

/-- An option of a command. -/
structure Switch where
  name : String
  letter : Option Char := none
  arity : Arity := .value
deriving DecidableEq, Repr

/-- The arguments of a command. -/
structure Arguments where
  /-- What belongs to no option. -/
  operands : List String := []
  /-- The names of the options that are given, with their values; a flag has the empty one. -/
  options : List (String × String) := []
deriving DecidableEq, Repr

namespace Arguments

/-- The value of an option. -/
def value? (a : Arguments) (name : String) : Option String :=
  a.options.lookup name

/-- All values of an option. -/
def values (a : Arguments) (name : String) : List String :=
  (a.options.filter (·.1 = name)).map (·.2)

/-- Whether an option is given. -/
def has (a : Arguments) (name : String) : Bool :=
  (a.value? name).isSome

end Arguments

/-- What has been read of the arguments. -/
structure Reading extends Arguments where
  /-- The option whose value comes next. -/
  pending : Option Switch := none
  /-- All that follows is an operand. -/
  onlyOperands : Bool := false

namespace Reading

/-- Notes an option with its value. -/
def note (r : Reading) (s : Switch) (value : String) : Except Stop Reading :=
  if s.arity ≠ .values ∧ r.toArguments.has s.name then .error (.usage (.repeatedOption s.name))
  else .ok { r with options := r.options ++ [(s.name, value)], pending := none }

/-- Notes an option whose value, if it takes one, comes next. -/
def await (r : Reading) (s : Switch) : Except Stop Reading :=
  if s.arity = .flag then r.note s "" else .ok { r with pending := some s }

/-- Reads an option by its name, perhaps with a value behind an equality sign. -/
def long (switches : List Switch) (r : Reading) (cs : List Char) : Except Stop Reading :=
  let (name, value) := match Text.cut '=' cs with
    | some (name, value) => (String.ofList name, some (String.ofList value))
    | none => (String.ofList cs, none)
  match switches.find? (·.name = name), value with
  | some s, some v =>
    if s.arity = .flag then .error (.usage (.needlessValue s.name)) else r.note s v
  | some s, none => r.await s
  | none, none =>
    if name = "help" then .error .help else .error (.usage (.unknownOption name))
  | none, some _ => .error (.usage (.unknownOption name))

/-- Reads options by their letters; what follows the letter of one that takes a value is the value. -/
def letters (switches : List Switch) (r : Reading) : List Char → Except Stop Reading
  | [] => .ok r
  | c :: rest =>
    match switches.find? (·.letter = some c) with
    | some s =>
      if s.arity = .flag then (r.note s "").bind fun r => r.letters switches rest
      else
        match rest with
        | [] => r.await s
        | '=' :: value => r.note s (String.ofList value)
        | value => r.note s (String.ofList value)
    | none => if c = 'h' then .error .help else .error (.usage (.unknownOption c.toString))

/-- Reads an argument that starts with a hyphen and is more than that. -/
def hyphenated (switches : List Switch) (r : Reading) (cs : List Char) : Except Stop Reading :=
  match r.pending with
  | some s => .error (.usage (.missingValue s.name))
  | none =>
    match cs with
    | ['-', '-'] => .ok { r with onlyOperands := true }
    | '-' :: '-' :: rest => r.long switches rest
    | _ => r.letters switches (cs.drop 1)

/-- Reads an argument that is an operand or the value of an option. -/
def standalone (r : Reading) (argument : String) : Except Stop Reading :=
  match r.pending with
  | some s => r.note s argument
  | none => .ok { r with operands := r.operands ++ [argument] }

/-- Reads the next argument. -/
def next (switches : List Switch) (r : Reading) (argument : String) : Except Stop Reading :=
  let cs := argument.toList
  if !r.onlyOperands && cs.head? = some '-' && decide (1 < cs.length) then r.hyphenated switches cs
  else r.standalone argument

/-- The arguments when all have been read. -/
def finish (r : Reading) : Except Stop Arguments :=
  match r.pending with
  | some s => .error (.usage (.missingValue s.name))
  | none => .ok r.toArguments

end Reading

/-- The arguments of a command with the given options. -/
def Arguments.read (switches : List Switch) (arguments : List String) : Except Stop Arguments :=
  (arguments.foldlM (Reading.next switches) {}).bind Reading.finish

end SheetFill.CommandLine
