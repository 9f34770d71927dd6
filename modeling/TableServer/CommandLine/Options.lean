import TableServer.Json.Entries

/-! Command lines: long options `--name value` or `--name=value`, their short forms `-n value`,
`-nvalue` or `-n=value`, and operands. After `--` all is operand. Arguments are read from left to
right, and the first that asks for help or is wrong decides. -/

namespace TableServer

structure OptionSpec where
  name : String
  short : Option Char
  acceptsEmpty : Bool

structure CommandSpec where
  options : List OptionSpec
  operands : Nat
  hasVersion : Bool
  /-- Whether the first operand is a command, which reads the rest itself. -/
  hasCommands : Bool

structure Arguments where
  values : Entries String
  operands : List String

inductive CommandLine where
  | complete (arguments : Arguments)
  | command (arguments : Arguments) (name : String) (rest : List String)
  | help
  | version
  | usageError

namespace Arguments

def none : Arguments := ⟨[], []⟩

def value? (arguments : Arguments) (name : String) : Option String :=
  arguments.values.get? name

/-- An option is given once, and where it wants a text, not an empty one. -/
def give? (arguments : Arguments) (option : OptionSpec) (value : String) : Option Arguments :=
  if arguments.values.has option.name || (value.isEmpty && !option.acceptsEmpty) then Option.none
  else some { arguments with values := arguments.values.put option.name value }

end Arguments

namespace CommandSpec

inductive Step where
  | goOn (arguments : Arguments)
  | awaitValue (option : OptionSpec)
  | operand
  | escape
  | stop (outcome : CommandLine)

def giveValue (arguments : Arguments) (option : OptionSpec) (value : String) : Step :=
  match arguments.give? option value with
  | some arguments => .goOn arguments
  | none => .stop .usageError

def longStep (spec : CommandSpec) (arguments : Arguments) (text : List Char) : Step :=
  let name := String.ofList (text.takeWhile (· != '='))
  let attached := text.dropWhile (· != '=')
  match spec.options.find? (·.name == name), attached with
  | some option, _ :: value => giveValue arguments option (String.ofList value)
  | some option, [] => .awaitValue option
  | none, [] =>
    if name == "help" then .stop .help
    else if name == "version" && spec.hasVersion then .stop .version
    else .stop .usageError
  | none, _ => .stop .usageError

def shortStep (spec : CommandSpec) (arguments : Arguments) (letter : Char) (rest : List Char) :
    Step :=
  match spec.options.find? (·.short == some letter) with
  | some option =>
    match rest with
    | [] => .awaitValue option
    | '=' :: value => giveValue arguments option (String.ofList value)
    | value => giveValue arguments option (String.ofList value)
  | none =>
    if letter == 'h' then .stop .help
    else if letter == 'V' && spec.hasVersion then .stop .version
    else .stop .usageError

def step (spec : CommandSpec) (arguments : Arguments) (argument : List Char) : Step :=
  match argument with
  | ['-', '-'] => .escape
  | '-' :: '-' :: text => spec.longStep arguments text
  | '-' :: letter :: rest => spec.shortStep arguments letter rest
  | _ => .operand

def addOperand (spec : CommandSpec) (arguments : Arguments) (operand : String) :
    Option Arguments :=
  if arguments.operands.length < spec.operands then
    some { arguments with operands := arguments.operands ++ [operand] }
  else none

def finish (spec : CommandSpec) (arguments : Arguments) : CommandLine :=
  if spec.hasCommands || arguments.operands.length < spec.operands then .usageError
  else .complete arguments

def readOperands (spec : CommandSpec) (arguments : Arguments) (rest : List String) : CommandLine :=
  match rest.foldlM spec.addOperand arguments with
  | some arguments => spec.finish arguments
  | none => .usageError

/-- Reads on; an option may be waiting for its value, which no argument that looks like an option
can be. -/
def readFrom (spec : CommandSpec) (waiting : Option OptionSpec) (arguments : Arguments) :
    List String → CommandLine
  | [] => if waiting.isSome then .usageError else spec.finish arguments
  | argument :: rest =>
    match waiting, spec.step arguments argument.toList with
    | some option, .operand =>
      match arguments.give? option argument with
      | some arguments => spec.readFrom none arguments rest
      | none => .usageError
    | some _, _ => .usageError
    | none, .goOn arguments => spec.readFrom none arguments rest
    | none, .awaitValue option => spec.readFrom (some option) arguments rest
    | none, .escape => spec.readOperands arguments rest
    | none, .stop outcome => outcome
    | none, .operand =>
      if spec.hasCommands then .command arguments argument rest
      else
        match spec.addOperand arguments argument with
        | some arguments => spec.readFrom none arguments rest
        | none => .usageError

def read (spec : CommandSpec) (arguments : List String) : CommandLine :=
  spec.readFrom none .none arguments

end CommandSpec

end TableServer
