import Reckoner.Number.Integer

/-!
# Reading arguments

A command takes options with values, flags without, arguments by position, and maybe further
commands. Flags may stand at any level. A word that starts with a minus is an option or a flag,
never a value, unless it is joined to its option or stands behind a double minus. Reading goes from
left to right and stops at the first thing that decides the outcome.
-/

namespace Reckoner.CommandLine

/-- Why there is nothing to carry out. -/
inductive Stop where
  /-- The arguments are wrong. -/
  | usage
  /-- Help was asked for. -/
  | help
  /-- The version was asked for, within these commands. -/
  | version (commands : List String)
deriving DecidableEq, Repr

/-- A reason that came up within a command. -/
def Stop.within (name : String) : Stop → Stop
  | version commands => version (name :: commands)
  | stop => stop

/-- The flags that every command takes. -/
inductive Flag where
  | json
  | quiet
  | verbose
  | logJson
  | otel
deriving DecidableEq, Repr

namespace Flag

/-- All flags. -/
def all : List Flag := [json, quiet, verbose, logJson, otel]

/-- The word for a flag. -/
def word : Flag → String
  | json => "json"
  | quiet => "quiet"
  | verbose => "verbose"
  | logJson => "log-json"
  | otel => "otel"

/-- Whether a flag may be repeated. -/
def isCounted : Flag → Bool
  | verbose => true
  | _ => false

end Flag

/-- What the value of an option or an argument is. -/
inductive Kind where
  | text
  /-- An integer with a sign in 64 bits. -/
  | integer
  /-- A port: an integer from zero to 65535. -/
  | port
  /-- An integer without a sign in 64 bits. -/
  | word
deriving DecidableEq, Repr

namespace Kind

/-- The integer that a value of some kind stands for. -/
def integer? (kind : Kind) (value : String) : Option Int := do
  let n ← integerOf? value
  match kind with
  | text => none
  | integer => signedWordOf? value
  | port => if 0 ≤ n ∧ n < 0x10000 then some n else none
  | word => if n < 0x10000000000000000 ∧ value.toList.head? ≠ some '-' then some n else none

/-- Whether a value is of a kind. -/
def accepts (kind : Kind) (value : String) : Bool :=
  match kind with
  | text => true
  | kind => (kind.integer? value).isSome

end Kind

/-- An option or an argument of a command. -/
structure Parameter where
  /-- The word for the option, or the name of the argument. -/
  name : String
  /-- What its value is. -/
  kind : Kind
  /-- The letter for the option. -/
  letter : Option Char
  /-- Whether it must be given. -/
  isRequired : Bool
deriving DecidableEq, Repr

/-- The form of a command. -/
inductive Grammar where
  /-- A command that takes options and arguments. -/
  | leaf (options arguments : List Parameter)
  /-- A command that takes further commands, each under one or more names. -/
  | node (commands : List (List String × Grammar))

namespace Grammar

/-- The options of a command. -/
def options : Grammar → List Parameter
  | leaf options _ => options
  | node _ => []

/-- The arguments of a command. -/
def arguments : Grammar → List Parameter
  | leaf _ arguments => arguments
  | node _ => []

/-- The further command under a name, with its first name. -/
def find? (name : String) : Grammar → Option (String × Grammar)
  | leaf .. => none
  | node commands => do
    let (names, grammar) ← commands.find? fun (names, _) => names.contains name
    return (names.headD name, grammar)

/-- Whether the command takes further ones, and so also the request for help on them. -/
def isNode : Grammar → Bool
  | leaf .. => false
  | node _ => true

end Grammar

/-- What has been read on one level. -/
structure Level where
  /-- The flags, in order. -/
  flags : List Flag
  /-- The values of options and arguments, by name. -/
  values : List (String × String)
  /-- How many arguments there were. -/
  position : Nat
  /-- The option that waits for its value. -/
  waiting : Option Parameter
  /-- Whether there was a double minus. -/
  isPlain : Bool

namespace Level

/-- Nothing read. -/
def start : Level := ⟨[], [], 0, none, false⟩

/-- Takes a value for an option or an argument; none may be given twice. -/
def give (level : Level) (p : Parameter) (value : String) : Except Stop Level :=
  if (level.values.any (·.1 == p.name)) || !p.kind.accepts value then .error .usage
  else .ok { level with values := level.values ++ [(p.name, value)], waiting := none }

/-- Takes a flag; only some may be repeated. -/
def raise (level : Level) (flag : Flag) : Except Stop Level :=
  if level.waiting.isSome || (!flag.isCounted && level.flags.contains flag) then .error .usage
  else .ok { level with flags := level.flags ++ [flag] }

/-- Takes an option whose value is joined to it or is to follow. -/
def begin (level : Level) (p : Parameter) (value : Option String) : Except Stop Level :=
  if level.waiting.isSome then .error .usage
  else
    match value with
    | some value => level.give p value
    | none => .ok { level with waiting := some p }

/-- Takes an argument. -/
def argument (level : Level) (grammar : Grammar) (value : String) : Except Stop Level :=
  if level.waiting.isSome then .error .usage
  else
    match grammar.arguments[level.position]? with
    | none => .error .usage
    | some p => ({ level with position := level.position + 1 } : Level).give p value

/-- Stops with an answer, unless an option waits for its value. -/
def halt (level : Level) (stop : Stop) : Except Stop Level :=
  .error (if level.waiting.isSome then .usage else stop)

/-- Takes a word behind two minuses, with the value joined to it. -/
def takeWord (level : Level) (grammar : Grammar) (word : String) (value : Option String) :
    Except Stop Level :=
  match grammar.options.find? (·.name == word) with
  | some p => level.begin p value
  | none =>
    if value.isSome then .error .usage
    else if word = "help" then level.halt .help
    else if word = "version" then level.halt (.version [])
    else
      match Flag.all.find? (·.word == word) with
      | some flag => level.raise flag
      | none => .error .usage

/-- Takes the letters behind one minus. What follows the letter of an option is its value. -/
def takeLetters (level : Level) (grammar : Grammar) : List Char → Except Stop Level
  | [] => .ok level
  | c :: rest =>
    match grammar.options.find? (·.letter == some c) with
    | some p =>
      let value :=
        match rest with
        | [] => none
        | '=' :: behind => some (String.ofList behind)
        | all => some (String.ofList all)
      level.begin p value
    | none =>
      if c = 'h' then level.halt .help
      else if c = 'V' then level.halt (.version [])
      else if c = 'v' then do
        let level ← level.raise .verbose
        level.takeLetters grammar rest
      else .error .usage

/-- Takes one word of the command line that is no command. -/
def take (level : Level) (grammar : Grammar) (token : String) : Except Stop Level :=
  if level.isPlain then level.argument grammar token
  else
    match token.toList with
    | ['-', '-'] =>
      if level.waiting.isSome then .error .usage else .ok { level with isPlain := true }
    | '-' :: '-' :: rest =>
      let word := String.ofList (rest.takeWhile (· != '='))
      let value :=
        match rest.dropWhile (· != '=') with
        | [] => none
        | _ :: value => some (String.ofList value)
      level.takeWord grammar word value
    | '-' :: c :: rest => level.takeLetters grammar (c :: rest)
    | _ =>
      match level.waiting with
      | some p => level.give p token
      | none => level.argument grammar token

end Level

/-- What asking for help on some commands comes to: help, unless one of them does not exist. Help on
help itself is help, too. -/
def helpOn : Grammar → List String → Stop
  | _, [] => .help
  | grammar, name :: rest =>
    match grammar.find? name with
    | some (_, inner) => helpOn inner rest
    | none => if grammar.isNode && name == "help" && rest.isEmpty then .help else .usage

/-- What has been read: the commands on the way and the levels, the outermost first. -/
structure Reading where
  /-- The first names of the commands. -/
  commands : List String
  /-- One level more than commands. -/
  levels : List Level

/-- Whether a level lacks nothing. -/
def Level.isComplete (level : Level) (grammar : Grammar) : Bool :=
  level.waiting.isNone && !grammar.isNode &&
    (grammar.options ++ grammar.arguments).all fun p =>
      !p.isRequired || level.values.any (·.1 == p.name)

/-- Reads the words from within a level. -/
def readFrom (grammar : Grammar) (level : Level) : List String → Except Stop Reading
  | [] => if level.isComplete grammar then .ok ⟨[], [level]⟩ else .error .usage
  | token :: rest =>
    let command :=
      if level.isPlain || level.waiting.isSome then none else grammar.find? token
    match command with
    | some (name, inner) =>
      match readFrom inner Level.start rest with
      | .ok reading => .ok ⟨name :: reading.commands, level :: reading.levels⟩
      | .error stop => .error (stop.within name)
    | none =>
      if grammar.isNode && token == "help" && !level.isPlain && level.waiting.isNone then
        .error (helpOn grammar rest)
      else do
        let level ← level.take grammar token
        readFrom grammar level rest

end Reckoner.CommandLine
