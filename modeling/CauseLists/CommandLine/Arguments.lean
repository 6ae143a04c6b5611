-- The arguments of the command line. An option is written `--name`, `--name value` or
-- `--name=value` and may stand anywhere; of the other arguments the first is the command and the
-- rest are files. Behind `--` there are no more options.
import CauseLists.CommandLine.Command

namespace CauseLists

/-- The options, of all commands together. -/
inductive CommandOption
  | settings | verbose | structuredLog | help
  | listType | strict | asJson | envelope | identity | storeFolder
deriving DecidableEq, Repr, Inhabited

namespace CommandOption

/-- The options in order. -/
def all : List CommandOption :=
  [.settings, .verbose, .structuredLog, .help, .listType, .strict, .asJson, .envelope, .identity,
    .storeFolder]

/-- An option as it is written. -/
def text : CommandOption → String
  | .settings => "--config"
  | .verbose => "--verbose"
  | .structuredLog => "--log-json"
  | .help => "--help"
  | .listType => "--list-type"
  | .strict => "--strict"
  | .asJson => "--json"
  | .envelope => "--header"
  | .identity => "--identity"
  | .storeFolder => "--store-dir"

/-- The option has a value. -/
def takesValue : CommandOption → Bool
  | .settings | .listType | .envelope | .identity | .storeFolder => true
  | _ => false

/-- The option that is written so. Some have a short form too. -/
def ofText? (written : String) : Option CommandOption :=
  if written = "-h" then some .help
  else if written = "-v" then some .verbose
  else all.find? (fun o => o.text = written)

/-- The options that go with every command. -/
def common : List CommandOption := [.settings, .verbose, .structuredLog, .help]

end CommandOption

/-- The commands. -/
inductive CommandName
  | rules | validate | ingest
deriving DecidableEq, Repr, Inhabited

namespace CommandName

/-- The commands in order. -/
def all : List CommandName := [.rules, .validate, .ingest]

/-- The word for a command. -/
def text : CommandName → String
  | .rules => "rules"
  | .validate => "validate"
  | .ingest => "ingest"

/-- The options that a command takes beside the common ones. -/
def options : CommandName → List CommandOption
  | .rules => [.listType]
  | .validate => [.listType, .strict, .asJson]
  | .ingest => [.envelope, .identity, .strict, .storeFolder]

/-- The command with an option. -/
def takes (c : CommandName) (o : CommandOption) : Bool :=
  CommandOption.common.contains o || c.options.contains o

end CommandName

/-- Why arguments ask for nothing that can be done. -/
inductive ArgumentError
  | noCommand
  | unknownCommand (word : String)
  | unknownOption (written : String)
  | repeated (option : CommandOption)
  | noValue (option : CommandOption)
  | strayValue (option : CommandOption) (value : String)
  | missingOption (option : CommandOption)
  | noFiles
  | strayFile (file : String)
deriving DecidableEq, Repr, Inhabited

def ArgumentError.message : ArgumentError → String
  | .noCommand => "no command was given"
  | .unknownCommand word => "unrecognized command '" ++ word ++ "'"
  | .unknownOption written => "unexpected argument '" ++ written ++ "'"
  | .repeated o => "the option '" ++ o.text ++ "' cannot be used twice"
  | .noValue o => "the option '" ++ o.text ++ "' needs a value"
  | .strayValue o value => "unexpected value '" ++ value ++ "' for '" ++ o.text ++ "'"
  | .missingOption o => "the option '" ++ o.text ++ "' is required"
  | .noFiles => "at least one file is required"
  | .strayFile file => "unexpected argument '" ++ file ++ "'"

/-- Arguments after options and words are told apart. -/
structure Arguments where
  /-- The options in order, with the values of those that have one. -/
  options : List (CommandOption × Option String)
  words : List String
deriving DecidableEq, Repr, Inhabited

namespace Arguments

/-- No arguments at all. -/
def empty : Arguments := ⟨[], []⟩

/-- An option is there. -/
def has (a : Arguments) (o : CommandOption) : Bool := a.options.any (fun given => given.1 = o)

/-- The value of an option. -/
def value? (a : Arguments) (o : CommandOption) : Option String :=
  (a.options.find? (fun given => given.1 = o)).bind Prod.snd

/-! ## Telling arguments apart -/

/-- One more word. -/
def withWord (a : Arguments) (word : String) : Arguments := { a with words := a.words ++ [word] }

/-- One more option. Only an option without a value may come twice. -/
def withOption (a : Arguments) (o : CommandOption) (value : Option String) :
    Except ArgumentError Arguments :=
  if o.takesValue && a.has o then .error (.repeated o)
  else .ok { a with options := a.options ++ [(o, value)] }

/-- An argument that begins like an option. -/
def beginsOption (text : String) : Bool :=
  match text.toList with
  | '-' :: _ :: _ => true
  | _ => false

/-- The parts of an option before and behind its first equals sign. -/
def splitValue (text : String) : String × Option String :=
  match text.toList.span (fun c => c != '=') with
  | (before, _ :: behind) => (String.ofList before, some (String.ofList behind))
  | (_, []) => (text, none)

/-- Sorts arguments one after another. `open?` is an option that waits for its value. -/
def sort (a : Arguments) (open? : Option CommandOption) :
    List String → Except ArgumentError Arguments
  | [] =>
    match open? with
    | some o => .error (.noValue o)
    | none => .ok a
  | text :: rest =>
    match open? with
    | some o => do sort (← a.withOption o (some text)) none rest
    | none =>
      if text = "--" then .ok { a with words := a.words ++ rest }
      else if beginsOption text then
        let (written, value) := splitValue text
        match CommandOption.ofText? written with
        | none => .error (.unknownOption text)
        | some o =>
          match o.takesValue, value with
          | true, none => sort a (some o) rest
          | true, some value => do sort (← a.withOption o (some value)) none rest
          | false, none => do sort (← a.withOption o none) none rest
          | false, some value => .error (.strayValue o value)
      else sort (a.withWord text) none rest

/-- The arguments of a row of texts. -/
def ofList (texts : List String) : Except ArgumentError Arguments := empty.sort none texts

/-! ## Invocations -/

/-- The value of an option that has to be there. -/
def required (a : Arguments) (o : CommandOption) : Except ArgumentError String :=
  match a.value? o with
  | some value => .ok value
  | none => .error (.missingOption o)

/-- The words behind the command as files; there has to be one. -/
def files (a : Arguments) : Except ArgumentError (List String) :=
  match a.words.drop 1 with
  | [] => .error .noFiles
  | files => .ok files

/-- No word stands behind the command. -/
def noFiles (a : Arguments) : Except ArgumentError Unit :=
  match a.words.drop 1 with
  | [] => .ok ()
  | file :: _ => .error (.strayFile file)

/-- The command that is asked for. -/
def commandName (a : Arguments) : Except ArgumentError CommandName :=
  match a.words.head? with
  | none => .error .noCommand
  | some word =>
    match CommandName.all.find? (fun c => c.text = word) with
    | some c => .ok c
    | none => .error (.unknownCommand word)

/-- Every option goes with the command. -/
def checkOptions (a : Arguments) (c : CommandName) : Except ArgumentError Unit :=
  match a.options.find? (fun given => !c.takes given.1) with
  | some (o, _) => .error (.unknownOption o.text)
  | none => .ok ()

/-- The identity under which bodies are submitted if none is given. -/
def defaultIdentity : String := "courtlist-cli"

/-- A command with its parameters. -/
def command (a : Arguments) : CommandName → Except ArgumentError Command
  | .rules => do
    a.noFiles
    return .rules (a.value? .listType)
  | .validate => do
    let listType ← a.required .listType
    return .validate ⟨listType, a.has .strict, a.has .asJson, ← a.files⟩
  | .ingest => do
    let envelopeFile ← a.required .envelope
    let identity := (a.value? .identity).getD defaultIdentity
    return .ingest ⟨envelopeFile, identity, a.has .strict, a.value? .storeFolder, ← a.files⟩

/-- The invocation that the arguments ask for. -/
def invocation (a : Arguments) : Except ArgumentError Invocation := do
  let c ← a.commandName
  a.checkOptions c
  return ⟨← a.command c, a.value? .settings⟩

end Arguments

/-- What the command line says of itself. -/
def usageText : String := "\n".intercalate [
  "Usage: courtlist [--config FILE] COMMAND",
  "",
  "Commands:",
  "  rules [--list-type NAME]",
  "      List registered list types and their rules",
  "  validate --list-type NAME [--strict] [--json] FILE...",
  "      Validate bodies against a list type without ingesting them",
  "  ingest --header FILE [--identity NAME] [--strict] [--store-dir FOLDER] FILE...",
  "      Validate and ingest bodies in order, showing supersession",
  ""]

end CauseLists
