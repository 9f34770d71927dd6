import TableServer.Client.Users
import TableServer.CommandLine.Options
import TableServer.Json.Pretty

/-! The command line of the client: one command for each request of the users API. It prints what
the server answers, also where the answer is a refusal. -/

namespace TableServer

inductive ClientCommand where
  | list (filter : UserFilter)
  | create (user : NewUser)
  | update (id : String) (patch : UserPatch)
  | delete (id : String)
deriving DecidableEq

inductive ClientArguments where
  | run (base : String) (command : ClientCommand)
  | help (text : String)
  | usageError
deriving DecidableEq

structure ClientOutput where
  exit : Nat
  out : String
  err : String
deriving DecidableEq

namespace Client

def textOption (name : String) : OptionSpec := ⟨name, none, true⟩

def mainSpec : CommandSpec where
  options := [⟨"url", some 'u', true⟩]
  operands := 0
  hasVersion := false
  hasCommands := true

def commandSpec (operands : Nat) (options : List String) : CommandSpec where
  options := options.map textOption
  operands := operands
  hasVersion := false
  hasCommands := false

def defaultBase : String := "http://localhost:3000"

def commandOf? (name : String) (arguments : Arguments) : Option ClientCommand :=
  let name? := arguments.value? "name"
  let email? := arguments.value? "email"
  match name, arguments.operands with
  | "list", [] => some (.list ⟨name?, email?⟩)
  | "create", [] =>
    match name?, email? with
    | some name, some email => some (.create ⟨name, email⟩)
    | _, _ => none
  | "update", [id] => some (.update id ⟨name?, email?⟩)
  | "delete", [id] => some (.delete id)
  | _, _ => none

def specOf? : String → Option CommandSpec
  | "list" => some (commandSpec 0 ["name", "email"])
  | "create" => some (commandSpec 0 ["name", "email"])
  | "update" => some (commandSpec 1 ["name", "email"])
  | "delete" => some (commandSpec 1 [])
  | _ => none

def textOptionsHelp : String :=
  "Options:\n      --name <NAME>    \n      --email <EMAIL>  \n" ++
    "  -h, --help           Print help\n"

def idHelp : String := "Arguments:\n  <ID>  \n\n"

def helpOf? : String → Option String
  | "list" =>
    some ("List users, optionally filtered by name and/or email substring\n\n" ++
      "Usage: jsontable-cli list [OPTIONS]\n\n" ++ textOptionsHelp)
  | "create" =>
    some ("Create a user and print its id\n\n" ++
      "Usage: jsontable-cli create --name <NAME> --email <EMAIL>\n\n" ++ textOptionsHelp)
  | "update" =>
    some ("Overwrite the given fields of a user\n\n" ++
      "Usage: jsontable-cli update [OPTIONS] <ID>\n\n" ++ idHelp ++ textOptionsHelp)
  | "delete" =>
    some ("Delete a user\n\nUsage: jsontable-cli delete <ID>\n\n" ++ idHelp ++
      "Options:\n  -h, --help  Print help\n")
  | "help" =>
    some ("Print this message or the help of the given subcommand(s)\n\n" ++
      "Usage: jsontable-cli help [COMMAND]...\n\n" ++
      "Arguments:\n  [COMMAND]...  Print help for the subcommand(s)\n")
  | _ => none

def mainHelp : String :=
  "Command-line client for the jsontable users API\n\n" ++
    "Usage: jsontable-cli [OPTIONS] <COMMAND>\n\nCommands:\n" ++
    "  list    List users, optionally filtered by name and/or email substring\n" ++
    "  create  Create a user and print its id\n" ++
    "  update  Overwrite the given fields of a user\n" ++
    "  delete  Delete a user\n" ++
    "  help    Print this message or the help of the given subcommand(s)\n\nOptions:\n" ++
    "  -u, --url <URL>  [default: " ++ defaultBase ++ "]\n" ++
    "  -h, --help       Print help\n"

def readHelp : List String → ClientArguments
  | [] => .help mainHelp
  | [name] =>
    match helpOf? name with
    | some text => .help text
    | none => .usageError
  | _ => .usageError

def readCommand (base name : String) (rest : List String) : ClientArguments :=
  if name == "help" then readHelp rest
  else
    match specOf? name with
    | none => .usageError
    | some spec =>
      match spec.read rest with
      | .complete arguments =>
        match commandOf? name arguments with
        | some command => .run base command
        | none => .usageError
      | .help => readHelp [name]
      | _ => .usageError

def readArguments (arguments : List String) : ClientArguments :=
  match mainSpec.read arguments with
  | .command options name rest =>
    readCommand ((options.value? "url").getD defaultBase) name rest
  | .help => readHelp []
  | _ => .usageError

def messageOf? (base : String) : ClientCommand → Option Message
  | .list filter => listMessage? base filter
  | .create user => createMessage? base user
  | .update id patch => updateMessage? base id patch
  | .delete id => deleteMessage? base id

def line (text : String) : String := text ++ "\n"

def printed (response : Response) : ClientOutput :=
  if !response.isSuccess then
    let body := if response.body.isEmpty then "" else line ("Response: " ++ response.body)
    ⟨0, "", line ("Error: server returned status " ++ statusText response.status) ++ body⟩
  else if response.body.isEmpty then ⟨0, line (statusText response.status), ""⟩
  else
    match Json.read response.body.toList with
    | some document => ⟨0, line document.renderPretty, ""⟩
    | none => ⟨1, "", line "Error: the answer is no JSON document"⟩

def run {σ : Type} (transport : Transport σ) (arguments : List String) (state : σ) :
    ClientOutput × σ :=
  match readArguments arguments with
  | .usageError => (⟨2, "", line "Error: wrong arguments; try --help"⟩, state)
  | .help text => (⟨0, text, ""⟩, state)
  | .run base command =>
    match exchange transport (messageOf? base command) state with
    | (some response, state) => (printed response, state)
    | (none, state) => (⟨1, "", line ("Error: " ++ ClientError.unreachable.message)⟩, state)

end Client

end TableServer
