-- What the command line can be asked for, and how it may fail. A failure is told from the outside
-- in: what was being done, what went wrong, and the cause under that.
import CauseLists.Publication.Service

namespace CauseLists

/-- What to ingest, and how. -/
structure IngestRequest where
  /-- The file of the envelope, which is the same for all bodies. -/
  envelopeFile : String
  identity : String
  strict : Bool
  /-- The folder in which accepted bodies are kept; without one they are kept in memory. -/
  storeFolder : Option String
  files : List String
deriving DecidableEq, Repr, Inhabited

/-- What to validate, and how. -/
structure ValidateRequest where
  listType : String
  strict : Bool
  /-- Reports are documents and not lines of text. -/
  asJson : Bool
  files : List String
deriving DecidableEq, Repr, Inhabited

/-- What the command line is asked for. -/
inductive Command
  /-- Shows the rules of a list type, or what there are rules for. -/
  | rules (listType : Option String)
  | validate (request : ValidateRequest)
  | ingest (request : IngestRequest)
deriving DecidableEq, Repr, Inhabited

/-- A command with the file of the settings, if one is named. -/
structure Invocation where
  command : Command
  settingsFile : Option String
deriving DecidableEq, Repr, Inhabited

/-- What the command line finds around it. -/
structure Surroundings where
  libraries : Libraries
  disk : Disk
  /-- The values of the variables that are set. -/
  environment : String → Option String
  /-- The instant at which so many bodies have been read before. -/
  clock : Nat → Instant
  /-- The identifier that is drawn after so many others. -/
  draw : Nat → ArtefactId

/-! ## Failures -/

/-- A text and the causes under it. -/
def chained (texts : List String) : String := ": ".intercalate texts

/-- What a registry error says, and the cause under it. -/
def RegistryError.chain : RegistryError → List String
  | .unreadable path fault => [RegistryError.message (.unreadable path fault), fault.message]
  | e => [e.message]

/-- What an error of the settings says, and the cause under it. -/
def SettingsError.chain : SettingsError → List String
  | .unreadable path fault => [SettingsError.message (.unreadable path fault), fault.message]
  | e => [e.message]

/-- What a publication error says, and the cause under it. -/
def PublicationError.chain : PublicationError → List String
  | .storage (.disk location fault) =>
    [StorageError.message (.disk location fault), fault.message]
  | e => [e.message]

/-- Why a command could not be carried out. -/
inductive Failure
  | settingsFile (path : String) (error : SettingsError)
  | environment (error : SettingsError)
  | ruleSets (folder : Option String) (error : RegistryError)
  | listType (error : ListTypeError)
  | noRules (error : RegistryError)
  | file (path : String) (fault : DiskFault)
  | envelopeFile (path : String) (fault : DiskFault)
  | malformedEnvelope (path : String)
  | ingest (path : String) (error : PublicationError)
deriving DecidableEq, Repr

def Failure.message : Failure → String
  | .settingsFile path e => chained (("failed to load config from " ++ path) :: e.chain)
  | .environment e => chained ("invalid configuration override in environment" :: e.chain)
  | .ruleSets (some folder) e => chained (("failed to load rule sets from " ++ folder) :: e.chain)
  | .ruleSets none e => chained ("failed to load built-in rule sets" :: e.chain)
  | .listType e => chained ["invalid --list-type", e.message]
  | .noRules e => chained e.chain
  | .file path fault => chained ["failed to read " ++ path, fault.message]
  | .envelopeFile path fault => chained ["failed to read envelope " ++ path, fault.message]
  | .malformedEnvelope path => chained ["failed to parse envelope " ++ path, "not an envelope"]
  | .ingest path e => chained (("failed to ingest " ++ path) :: e.chain)

/-! ## Outcomes -/

/-- What a command printed and how it ended. -/
structure Outcome where
  printed : String
  /-- Whether every submission passed. -/
  result : Except Failure Bool
  /-- The disk as the command leaves it. -/
  disk : Disk

namespace Outcome

/-- A text is printed before all else. -/
def after (o : Outcome) (text : String) : Outcome := { o with printed := text ++ o.printed }

/-- The exit code: 0 if all is well, 1 if a submission was refused, 2 if the command failed. -/
def exitCode (o : Outcome) : Nat :=
  match o.result with
  | .ok true => 0
  | .ok false => 1
  | .error _ => 2

end Outcome

end CauseLists
