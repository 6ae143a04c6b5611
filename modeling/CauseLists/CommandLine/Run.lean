-- Carrying out commands on a disk. A command that fails keeps what it has printed and done until
-- then.
import CauseLists.CommandLine.Command
import CauseLists.Json.Printer
import CauseLists.Envelope.File
import CauseLists.RuleSet.Summary

namespace CauseLists

namespace Surroundings

/-- The settings of the named file, or the default ones, with those of the environment. -/
def settings (s : Surroundings) (file : Option String) : Except Failure Settings := do
  let settings ← match file with
    | none => .ok Settings.default
    | some path => (Settings.readFile s.libraries s.disk path).mapError (.settingsFile path)
  (settings.withEnvironment s.environment).mapError .environment

/-- The registry that settings point at. -/
def registry (s : Surroundings) (settings : Settings) : Except Failure Registry :=
  (settings.registry s.libraries s.disk).mapError (.ruleSets settings.rulesFolder)

end Surroundings

/-- The rule set of a list type by the text of its name. -/
def Registry.named (r : Registry) (text : String) : Except Failure RuleSet := do
  let listType ← (ListType.parse text).mapError .listType
  (r.rulesFor listType).mapError .noRules

/-! ## Showing rules -/

/-- Every rule of one list type, or one line for each list type. -/
def showRules (r : Registry) (listType : Option String) : Except Failure String :=
  match listType with
  | some text => (r.named text).map RuleSet.describe
  | none => .ok r.summary

/-! ## Validating -/

/-- What was found in one file. -/
structure FileReport where
  file : String
  violations : List Violation
deriving DecidableEq, Repr, Inhabited

namespace FileReport

/-- Nothing is wrong with the file. -/
def isValid (r : FileReport) : Bool := r.violations.isEmpty

/-- The report as lines. -/
def text (r : FileReport) : String :=
  if r.isValid then inLines ["PASS " ++ r.file]
  else inLines (("FAIL " ++ r.file ++ " (" ++ toString r.violations.length ++ " violation(s))") ::
    r.violations.map (fun v => "  - " ++ v.text))

/-- The report as a document. -/
def toJson (r : FileReport) : Json := .ofMembers [
  ("file", .string r.file), ("valid", .bool r.isValid),
  ("violations", .array (r.violations.map (fun v => .ofMembers [
    ("location", .string v.location.text), ("reason", .string v.reason),
    ("rule", .string v.rule)])))]

end FileReport

/-- The report on one file. -/
def reportFile (d : Disk) (rules : RuleSet) (mode : Mode) (file : String) :
    Except Failure FileReport :=
  match d.read file with
  | .error fault => .error (.file file fault)
  | .ok body =>
    match rules.judgeBody mode body with
    | .ok _ => .ok ⟨file, []⟩
    | .error report => .ok ⟨file, report.violations⟩

/-- The line below all reports. -/
def tallyText (rules : RuleSet) (mode : Mode) (passed total : Nat) : String :=
  inLines ["", rules.listType.name ++ " (" ++ mode.name ++ "): " ++ toString passed ++ "/" ++
    toString total ++ " file(s) passed"]

/-- Reports on files one after another, and then on all together. `passed` and `total` count the
files before. -/
def validateFiles (d : Disk) (rules : RuleSet) (mode : Mode) (asJson : Bool) :
    (passed total : Nat) → List String → Outcome
  | passed, total, [] =>
    ⟨if asJson then "" else tallyText rules mode passed total, .ok (passed == total), d⟩
  | passed, total, file :: rest =>
    match reportFile d rules mode file with
    | .error f => ⟨"", .error f, d⟩
    | .ok report =>
      let text := if asJson then inLines [report.toJson.render] else report.text
      let passed := if report.isValid then passed + 1 else passed
      (validateFiles d rules mode asJson passed (total + 1) rest).after text

/-! ## Ingesting -/

/-- One artefact of a chain on a line of its own. -/
def Artefact.line (a : Artefact) : String :=
  "  #" ++ Text.padRight 3 (toString a.sequence) ++ " " ++ a.id.text ++ " " ++ a.state.name ++
    " effective " ++ a.effectiveFrom.text ++ " .. " ++ a.effectiveTo.text ++ "  " ++
    a.body.location

/-- The chain of a key. -/
def Ledger.chainText (l : Ledger) (key : IdentityKey) : String :=
  let chain := l.history key
  inLines (["", key.text ++ " (" ++ toString chain.length ++ " artefact(s))"] ++
    chain.map Artefact.line)

/-- The disk that an archive works on, if it keeps bodies there. -/
def Archive.disk {ε : Type} (a : Archive ε) (d : Disk) : Disk :=
  match a.payloads with
  | .folder f => f.disk
  | .memory _ => d

/-- What one submission comes to. -/
inductive IngestVerdict
  | accepted (published : Published)
  | refused
  | failed (failure : Failure)

/-- The line that is printed for a submission, and what it comes to. -/
def ingestVerdict (file : String) : Except PublicationError Published → String × IngestVerdict
  | .ok p =>
    (inLines ["ACCEPT " ++ file ++ " -> " ++ p.artefact.id.text ++ " " ++ p.decision.text],
      .accepted p)
  | .error e =>
    match e with
    | .unauthorized _ _ => (inLines ["REFUSED " ++ file ++ ": " ++ e.message], .refused)
    | e =>
      if e.isContentRejection then (inLines ["REJECT " ++ file, e.message], .refused)
      else ("", .failed (.ingest file e))

/-- Submits files one after another, and shows the chain of the last one that was accepted.
`count` is the number of files before, and `passed` is whether all of them were accepted. -/
def ingestFiles {ε : Type} (service : Service ε) (s : Surroundings) (request : IngestRequest)
    (e : SubmittedEnvelope) :
    (count : Nat) → (passed : Bool) → (last : Option IdentityKey) → Archive ε → List String →
      Outcome
  | _, passed, last, a, [] =>
    let text := match last with
      | some key => a.ledger.chainText key
      | none => ""
    ⟨text, .ok passed, a.disk s.disk⟩
  | count, passed, last, a, file :: rest =>
    let d := a.disk s.disk
    match d.read file with
    | .error fault => ⟨"", .error (.file file fault), d⟩
    | .ok body =>
      let (result, a) := service.ingest a request.identity body e request.strict (s.clock count)
      match ingestVerdict file result with
      | (text, .failed f) => ⟨text, .error f, a.disk s.disk⟩
      | (text, .refused) =>
        (ingestFiles service s request e (count + 1) false last a rest).after text
      | (text, .accepted p) =>
        (ingestFiles service s request e (count + 1) passed (some p.artefact.key) a rest).after text

/-- The envelope of a file. -/
def readEnvelope (l : Libraries) (d : Disk) (path : String) : Except Failure SubmittedEnvelope :=
  match d.readText path with
  | .error fault => .error (.envelopeFile path fault)
  | .ok text =>
    match SubmittedEnvelope.parse? l text with
    | some e => .ok e
    | none => .error (.malformedEnvelope path)

/-- Where accepted bodies are kept. -/
def IngestRequest.payloads (r : IngestRequest) (d : Disk) : PayloadStore :=
  match r.storeFolder with
  | some root => .folder ⟨root, d⟩
  | none => .empty

/-- Submits the files of a request under one envelope. -/
def runIngest (s : Surroundings) (settings : Settings) (registry : Registry)
    (request : IngestRequest) : Outcome :=
  match readEnvelope s.libraries s.disk request.envelopeFile with
  | .error f => ⟨"", .error f, s.disk⟩
  | .ok e =>
    let service := Service.ofSettings registry settings .everyone (Stores.direct : Stores Unit)
    let archive := Archive.start (request.payloads s.disk) s.draw ()
    ingestFiles service s request e 0 true none archive request.files

/-! ## Any command -/

/-- Carries out a command with given settings and rules. -/
def Command.run (c : Command) (s : Surroundings) (settings : Settings) (registry : Registry) :
    Outcome :=
  match c with
  | .rules listType =>
    match showRules registry listType with
    | .ok text => ⟨text, .ok true, s.disk⟩
    | .error f => ⟨"", .error f, s.disk⟩
  | .validate request =>
    match registry.named request.listType with
    | .ok ruleSet =>
      validateFiles s.disk ruleSet (Mode.ofFlag request.strict) request.asJson 0 0 request.files
    | .error f => ⟨"", .error f, s.disk⟩
  | .ingest request => runIngest s settings registry request

/-- Carries out an invocation: settings first, then rules, then the command. -/
def Invocation.run (i : Invocation) (s : Surroundings) : Outcome :=
  match s.settings i.settingsFile with
  | .error f => ⟨"", .error f, s.disk⟩
  | .ok settings =>
    match s.registry settings with
    | .error f => ⟨"", .error f, s.disk⟩
    | .ok registry => i.command.run s settings registry

end CauseLists
