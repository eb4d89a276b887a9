import LooseSql.Text.Basic

/-!
# Command lines

A command line names a command and its arguments, among them options. Options may stand before the
command and behind it; those behind it win. On each side of the command an option may be given once.
A word that starts with `-` is an option, unless it is `-` alone or stands behind `--`.

`Invocation.parse` reads a command line and the value of the variable for the budget.
-/

namespace LooseSql.Cli

/-- How results are shown. -/
inductive Format where
  | table
  | json
  deriving DecidableEq, Repr

/-- The format with a given name. -/
def Format.ofText? (t : Text) : Option Format :=
  if t = "table".toList then some .table else if t = "json".toList then some .json else none

/-- What is asked for. -/
inductive Command where
  /-- The databases that a script names. -/
  | databases
  /-- Its first table. -/
  | table
  /-- The columns of its SELECT list. -/
  | columns
  /-- Its simple conditions. -/
  | conditions
  /-- Its ORDER BY list. -/
  | orderBy
  /-- All of these. -/
  | analyze
  /-- The count of its rows. -/
  | count
  /-- Its first rows. -/
  | top (n : Int)
  /-- Its distinct rows. -/
  | distinct
  /-- Its rows in another order. -/
  | order (clause : Text)
  deriving DecidableEq, Repr

/-- A command line that can be carried out. -/
structure Invocation where
  /-- What is asked for. -/
  command : Command
  /-- The script, unless it is read from the input. -/
  sql : Option Text
  /-- How the result is shown. -/
  format : Format
  /-- The budget in milliseconds, if it is given. -/
  budget : Option Nat
  deriving DecidableEq, Repr

/-- What a command line comes down to. -/
inductive Request where
  | run (invocation : Invocation)
  | version
  | help
  deriving DecidableEq, Repr

/-- What is wrong with a command line. -/
inductive UsageError where
  | unknownOption (option : Text)
  | missingValue (option : Text)
  | invalidValue (option value : Text)
  | repeatedOption (option : Text)
  | unexpectedArgument (argument : Text)
  | missingArgument (name : String)
  | unknownCommand (name : Text)
  | missingCommand
  deriving DecidableEq, Repr

/-- The words for the error. -/
def UsageError.message : UsageError → String
  | unknownOption option => "unexpected argument '" ++ String.ofList option ++ "' found"
  | missingValue option => "a value is required for '" ++ String.ofList option ++ "'"
  | invalidValue option value =>
    "invalid value '" ++ String.ofList value ++ "' for '" ++ String.ofList option ++ "'"
  | repeatedOption option =>
    "the argument '" ++ String.ofList option ++ "' cannot be used multiple times"
  | unexpectedArgument argument =>
    "unexpected argument '" ++ String.ofList argument ++ "' found"
  | missingArgument name => "the argument <" ++ name ++ "> was not provided"
  | unknownCommand name => "unrecognized subcommand '" ++ String.ofList name ++ "'"
  | missingCommand => "a subcommand is needed"

/-- The number that decimal digits write, if the text holds nothing else. -/
def digits? (t : Text) : Option Nat :=
  if t.isEmpty || !t.all Char.isDigit then none
  else some (t.foldl (fun n c => 10 * n + (c.toNat - '0'.toNat)) 0)

/-- A number of 64 bits without a sign; a plus may stand before it. -/
def unsigned? (t : Text) : Option Nat :=
  let digits := match t with
    | '+' :: rest => rest
    | _ => t
  (digits? digits).filter (· < UInt64.size)

/-- A number of 64 bits with a sign. -/
def signed? (t : Text) : Option Int :=
  let n := match t with
    | '-' :: rest => (digits? rest).map fun n => -(n : Int)
    | '+' :: rest => (digits? rest).map fun n => (n : Int)
    | _ => (digits? t).map fun n => (n : Int)
  n.filter fun n => decide (Int64.minValue.toInt ≤ n ∧ n ≤ Int64.maxValue.toInt)

/-- The options on one side of the command. -/
structure Options where
  /-- The format, if it is given. -/
  format : Option Format
  /-- The budget, if it is given. -/
  budget : Option Nat
  /-- Whether more is to be told of what goes on. -/
  verbose : Bool
  deriving DecidableEq, Repr

/-- The options that take a value. -/
inductive ValueOption where
  | format
  | budget
  deriving DecidableEq, Repr

namespace Options

/-- No options. -/
def none : Options := ⟨.none, .none, false⟩

/-- Sets the option with a value. -/
def set (options : Options) (name : ValueOption) (written value : Text) :
    Except UsageError Options :=
  match name with
  | .format =>
    match Format.ofText? value with
    | .none => .error (.invalidValue written value)
    | some format =>
      if options.format.isSome then .error (.repeatedOption written)
      else .ok { options with format := some format }
  | .budget =>
    match unsigned? value with
    | .none => .error (.invalidValue written value)
    | some n =>
      if options.budget.isSome then .error (.repeatedOption written)
      else .ok { options with budget := some n }

/-- Sets the option that asks for more to be told. -/
def setVerbose (options : Options) (written : Text) : Except UsageError Options :=
  if options.verbose then .error (.repeatedOption written)
  else .ok { options with verbose := true }

end Options

/-- What the reading of one word of a command line leads to. -/
inductive Reading where
  /-- It was an option; these are the options now. -/
  | read (options : Options)
  /-- It was an option whose value is the next word. -/
  | needsValue (options : Options) (name : ValueOption) (written : Text)
  /-- It asks for the version. -/
  | version
  /-- It asks for help. -/
  | help
  deriving DecidableEq, Repr

/-- A word that is read as options. -/
def isOption (word : Text) : Bool :=
  match word with
  | '-' :: _ :: _ => true
  | _ => false

/-- The part of a word before the first `=`, and what follows it if there is one. -/
def splitValue : Text → Text × Option Text
  | [] => ([], none)
  | c :: t =>
    if c = '=' then ([], some t)
    else
      let (name, value) := splitValue t
      (c :: name, value)

/-- Reads a long option, when its two hyphens are read already. -/
def readLong (options : Options) (word : Text) : Except UsageError Reading :=
  let (name, value) := splitValue word
  let written := '-' :: '-' :: name
  let valueOption (option : ValueOption) : Except UsageError Reading :=
    match value with
    | some value => (options.set option written value).map .read
    | none => .ok (.needsValue options option written)
  if name = "format".toList then valueOption .format
  else if name = "budget-ms".toList then valueOption .budget
  else if value.isSome then .error (.unknownOption written)
  else if name = "verbose".toList then (options.setVerbose written).map .read
  else if name = "version".toList then .ok .version
  else if name = "help".toList then .ok .help
  else .error (.unknownOption written)

/-- Reads the letters of short options. An option that takes a value takes the rest of the word,
possibly behind a `=`. -/
def readShort (options : Options) : Text → Except UsageError Reading
  | [] => .ok (.read options)
  | 'v' :: rest => (options.setVerbose ['-', 'v']).bind fun options => readShort options rest
  | 'V' :: _ => .ok .version
  | 'h' :: _ => .ok .help
  | 'f' :: rest =>
    match rest with
    | [] => .ok (.needsValue options .format ['-', 'f'])
    | '=' :: value => (options.set .format ['-', 'f'] value).map .read
    | value => (options.set .format ['-', 'f'] value).map .read
  | c :: _ => .error (.unknownOption ['-', c])

/-- Reads a word that is an option. -/
def readOption (options : Options) (word : Text) : Except UsageError Reading :=
  match word with
  | '-' :: '-' :: rest => readLong options rest
  | _ => readShort options (word.drop 1)

/-- The commands by their names, before their own arguments are known. -/
inductive CommandName where
  | databases
  | table
  | columns
  | conditions
  | orderBy
  | analyze
  | count
  | top
  | distinct
  | order
  deriving DecidableEq, Repr

namespace CommandName

/-- All commands. -/
def all : List CommandName :=
  [databases, table, columns, conditions, orderBy, analyze, count, top, distinct, order]

/-- The word for the command. -/
def word : CommandName → String
  | databases => "databases"
  | table => "table"
  | columns => "columns"
  | conditions => "conditions"
  | orderBy => "order-by"
  | analyze => "analyze"
  | count => "count"
  | top => "top"
  | distinct => "distinct"
  | order => "order"

/-- The command with a given word. -/
def ofText? (t : Text) : Option CommandName := all.find? fun name => name.word.toList == t

/-- The command has an argument of its own before the script. -/
def hasArgument : CommandName → Bool
  | top => true
  | order => true
  | _ => false

/-- How many arguments the command can have. -/
def maxArguments (name : CommandName) : Nat := if name.hasArgument then 2 else 1

/-- The command with its own argument. -/
def withArgument (name : CommandName) (argument : Text) : Except UsageError Command :=
  match name with
  | databases => .ok .databases
  | table => .ok .table
  | columns => .ok .columns
  | conditions => .ok .conditions
  | orderBy => .ok .orderBy
  | analyze => .ok .analyze
  | count => .ok .count
  | top =>
    match signed? argument with
    | some n => .ok (.top n)
    | none => .error (.invalidValue "<N>".toList argument)
  | distinct => .ok .distinct
  | order => .ok (.order argument)

/-- The command and the script from the arguments behind the command's name. -/
def complete (name : CommandName) (arguments : List Text) :
    Except UsageError (Command × Option Text) :=
  if name.hasArgument then
    match arguments with
    | [] => .error (.missingArgument (if name = top then "N" else "CLAUSE"))
    | argument :: rest => (name.withArgument argument).map fun command => (command, rest.head?)
  else (name.withArgument []).map fun command => (command, arguments.head?)

/-- Adds an argument to those before, unless there are too many then or the argument is no number
where one is needed. -/
def addArgument (name : CommandName) (arguments : List Text) (word : Text) :
    Except UsageError (List Text) :=
  if name.maxArguments ≤ arguments.length then .error (.unexpectedArgument word)
  else if name = top ∧ arguments = [] ∧ signed? word = none then
    .error (.invalidValue "<N>".toList word)
  else .ok (arguments ++ [word])

end CommandName

/-- What stands behind the name of a command. -/
inductive Tail where
  /-- Its options and its arguments. -/
  | arguments (options : Options) (arguments : List Text)
  /-- A question for help. -/
  | help
  deriving DecidableEq, Repr

/-- Reads the words behind the name of a command. -/
def readTail (name : CommandName) (options : Options) (arguments : List Text) :
    List Text → Except UsageError Tail
  | [] => .ok (.arguments options arguments)
  | word :: words =>
    if word = ['-', '-'] then
      (words.foldlM name.addArgument arguments).map (.arguments options ·)
    else if isOption word then
      match readOption options word with
      | .error e => .error e
      | .ok (.read options) => readTail name options arguments words
      | .ok .help => .ok .help
      | .ok .version => .error (.unknownOption word)
      | .ok (.needsValue options option written) =>
        match words with
        | [] => .error (.missingValue written)
        | value :: words =>
          if isOption value then .error (.missingValue written)
          else match options.set option written value with
            | .error e => .error e
            | .ok options => readTail name options arguments words
    else match name.addArgument arguments word with
      | .error e => .error e
      | .ok arguments => readTail name options arguments words

/-- The value of the variable for the budget, which has to be a number if it is set. It is looked at
on each side of the command that does not give a budget. -/
def checkSetting (setting : Option Text) (before behind : Options) :
    Except UsageError (Option Nat) :=
  match setting with
  | none => .ok none
  | some value =>
    match unsigned? value with
    | some n => .ok (some n)
    | none =>
      if before.budget.isSome && behind.budget.isSome then .ok none
      else .error (.invalidValue "--budget-ms".toList value)

/-- The request of a command line, from the options before the command, the command, and what stands
behind it. -/
def combine (setting : Option Text) (before : Options) (name : CommandName) :
    Tail → Except UsageError Request
  | .help => .ok .help
  | .arguments behind arguments => do
    let (command, sql) ← name.complete arguments
    let budget ← checkSetting setting before behind
    .ok <| .run
      { command
        sql
        format := (behind.format.orElse fun _ => before.format).getD .table
        budget := (behind.budget.orElse fun _ => before.budget).orElse fun _ => budget }

/-- Reads the words behind `help`: nothing, or the name of a command. -/
def readHelp : List Text → Except UsageError Request
  | [] => .ok .help
  | [word] =>
    if word = "help".toList ∨ (CommandName.ofText? word).isSome then .ok .help
    else .error (.unknownCommand word)
  | _ :: word :: _ => .error (.unknownCommand word)

/-- Reads a command line that has `options` before it. -/
def readWords (setting : Option Text) (options : Options) :
    List Text → Except UsageError Request
  | [] => .error .missingCommand
  | word :: words =>
    if word = ['-', '-'] then
      match words with
      | [] => .error .missingCommand
      | word :: _ => .error (.unexpectedArgument word)
    else if isOption word then
      match readOption options word with
      | .error e => .error e
      | .ok (.read options) => readWords setting options words
      | .ok .help => .ok .help
      | .ok .version => .ok .version
      | .ok (.needsValue options option written) =>
        match words with
        | [] => .error (.missingValue written)
        | value :: words =>
          if isOption value then .error (.missingValue written)
          else match options.set option written value with
            | .error e => .error e
            | .ok options => readWords setting options words
    else if word = "help".toList then readHelp words
    else match CommandName.ofText? word with
      | none => .error (.unknownCommand word)
      | some name => (readTail name .none [] words).bind (combine setting options name)

/-- Reads a command line, with the value of the variable for the budget. -/
def Request.parse (words : List Text) (setting : Option Text) : Except UsageError Request :=
  readWords setting .none words

end LooseSql.Cli
