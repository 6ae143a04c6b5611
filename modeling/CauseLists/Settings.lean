-- Settings. Each one has a default, so nothing has to be set; a file sets any of them, and three
-- may be set from the environment as well. Settings that would make publishing impossible are
-- refused.
import CauseLists.Disk
import CauseLists.Envelope.Acceptance
import CauseLists.RuleSet.Catalogue

namespace CauseLists

/-- The settings of publishing. -/
structure Settings where
  /-- The folder of the rule sets; without one the catalogue is used. -/
  rulesFolder : Option String
  sourceIds : SourceIdMode
  /-- How many days a publication is displayed if it does not say. -/
  defaultDays : Int
  /-- How long a submission waits for the lock of its key, in milliseconds. -/
  lockTimeout : Nat
  /-- How often a commit is tried before a conflict is reported. -/
  maxAttempts : Nat
  /-- The wait before the first further attempt, in milliseconds; it doubles each time. -/
  initialBackoff : Nat
  /-- The longest wait. -/
  maxBackoff : Nat
deriving DecidableEq, Repr

/-- What makes settings useless. -/
inductive SettingsDefect
  | noAttempts
  | noLockTimeout
  | daysOutOfRange (days : Int)
  | backoffAboveLimit (initial limit : Nat)
deriving DecidableEq, Repr, Inhabited

/-- The longest display that can be a default, in days. -/
def maxDisplayDays : Nat := 366

namespace SettingsDefect

/-- The name of the setting. -/
def field : SettingsDefect → String
  | .noAttempts => "max_attempts"
  | .noLockTimeout => "lock_timeout_ms"
  | .daysOutOfRange _ => "default_display_days"
  | .backoffAboveLimit _ _ => "initial_backoff_ms"

def reason : SettingsDefect → String
  | .noAttempts => "must be at least 1"
  | .noLockTimeout => "must be positive"
  | .daysOutOfRange days =>
    "must be between 0 and " ++ toString maxDisplayDays ++ ", got " ++ toString days
  | .backoffAboveLimit initial limit =>
    toString initial ++ " exceeds max_backoff_ms " ++ toString limit

end SettingsDefect

/-- Why there are no settings. -/
inductive SettingsError
  | unreadable (path : String) (fault : DiskFault)
  /-- The text, of a file if a path is given, is no set of settings. -/
  | malformed (path : Option String)
  | useless (defect : SettingsDefect)
  | badVariable (name value : String)
deriving DecidableEq, Repr, Inhabited

def SettingsError.message : SettingsError → String
  | .unreadable path fault => "failed to read config file " ++ path ++ ": " ++ fault.message
  | .malformed path =>
    "invalid config: " ++ ((path.map (fun p => p ++ ": ")).getD "") ++ "not a set of settings"
  | .useless defect => "invalid " ++ defect.field ++ ": " ++ defect.reason
  | .badVariable name value => "invalid value for " ++ name ++ ": \"" ++ value ++ "\""

namespace Settings

/-- The settings where nothing is set. -/
def default : Settings := ⟨none, .required, 1, 250, 5, 10, 200⟩

instance : Inhabited Settings := ⟨default⟩

/-- The first defect, if there is one. -/
def defect? (s : Settings) : Option SettingsDefect :=
  if s.maxAttempts = 0 then some .noAttempts
  else if s.lockTimeout = 0 then some .noLockTimeout
  else if s.defaultDays < 0 ∨ maxDisplayDays < s.defaultDays then
    some (.daysOutOfRange s.defaultDays)
  else if s.maxBackoff < s.initialBackoff then
    some (.backoffAboveLimit s.initialBackoff s.maxBackoff)
  else none

/-- The settings, unless they have a defect. -/
def validated (s : Settings) : Except SettingsError Settings :=
  match s.defect? with
  | some d => .error (.useless d)
  | none => .ok s

/-! ## Files -/

/-- Reads the word for a mode of identifiers. -/
def sourceIds? (n : Node) : Option SourceIdMode :=
  n.text?.bind (fun text =>
    SourceIdMode.vocabulary.values.find? (fun mode => mode.word = text))

/-- Reads settings; what is not set has its default, and nothing else may be there. -/
def ofNode? (n : Node) : Option Settings := do
  let fields ← n.fields? ["rules_dir", "source_id_mode", "default_display_days",
    "lock_timeout_ms", "max_attempts", "initial_backoff_ms", "max_backoff_ms"] true
  let word64 := Node.natural? Text.maxWord64
  return {
    rulesFolder := ← Node.fieldOr fields "rules_dir" none (Node.optional? Node.text?)
    sourceIds := ← Node.fieldOr fields "source_id_mode" default.sourceIds sourceIds?
    defaultDays := ← Node.fieldOr fields "default_display_days" default.defaultDays
      (Node.integer? Text.minSigned64 Text.maxSigned64)
    lockTimeout := ← Node.fieldOr fields "lock_timeout_ms" default.lockTimeout word64
    maxAttempts := ← Node.fieldOr fields "max_attempts" default.maxAttempts
      (Node.natural? Text.maxWord32)
    initialBackoff := ← Node.fieldOr fields "initial_backoff_ms" default.initialBackoff word64
    maxBackoff := ← Node.fieldOr fields "max_backoff_ms" default.maxBackoff word64 }

/-- The settings that a text writes; a blank text sets nothing. -/
def parse (l : Libraries) (text : String) : Except SettingsError Settings :=
  if Text.isBlankText text then .ok default
  else
    match (l.node? .yaml text).bind ofNode? with
    | some s => s.validated
    | none => .error (.malformed none)

/-- The settings of a file. -/
def readFile (l : Libraries) (d : Disk) (path : String) : Except SettingsError Settings :=
  match d.readText path with
  | .error fault => .error (.unreadable path fault)
  | .ok text =>
    match parse l text with
    | .error (.malformed _) => .error (.malformed (some path))
    | result => result

/-! ## Environment -/

/-- The variable for the folder of the rule sets. -/
def folderVariable : String := "COURTLIST_RULES_DIR"

/-- The variable for the wait for a lock. -/
def lockVariable : String := "COURTLIST_LOCK_TIMEOUT_MS"

/-- The variable for the number of attempts. -/
def attemptsVariable : String := "COURTLIST_MAX_ATTEMPTS"

/-- The variables in the order in which they are read. -/
def variableNames : List String := [folderVariable, lockVariable, attemptsVariable]

/-- The number in a variable, whatever the blanks around it; a present value if it is not set. -/
def number (environment : String → Option String) (name : String) (limit present : Nat) :
    Except SettingsError Nat :=
  match environment name with
  | none => .ok present
  | some value =>
    match Text.readNatural limit (Text.trimChars value.toList) with
    | some n => .ok n
    | none => .error (.badVariable name value)

/-- The settings with those of the environment in place of them. -/
def withEnvironment (s : Settings) (environment : String → Option String) :
    Except SettingsError Settings := do
  let folder := (environment folderVariable).filter (fun v => !Text.isBlankText v)
  let lockTimeout ← number environment lockVariable Text.maxWord64 s.lockTimeout
  let maxAttempts ← number environment attemptsVariable Text.maxWord32 s.maxAttempts
  validated { s with rulesFolder := folder.or s.rulesFolder, lockTimeout, maxAttempts }

/-! ## What settings say -/

/-- The registry that the settings point at. -/
def registry (s : Settings) (l : Libraries) (d : Disk) : Except RegistryError Registry :=
  match s.rulesFolder with
  | some folder => Registry.ofFolder l d folder
  | none => Registry.builtIn l

/-- What envelopes have to carry. -/
def policy (s : Settings) : EnvelopePolicy := ⟨s.sourceIds, s.defaultDays⟩

end Settings

end CauseLists
