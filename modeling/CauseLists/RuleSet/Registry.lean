-- The registry of rule sets: at most one for each list type, in the order of the list types.
-- Loading is all or nothing, and a folder of files is read in the order of their names.
import CauseLists.Disk
import CauseLists.RuleSet.Compile

namespace CauseLists

/-- Why a registry cannot be had, or gives no rule set. -/
inductive RegistryError
  | unknownListType (listType : ListType)
  | invalid (error : InvalidRuleSet)
  | unreadable (path : String) (fault : DiskFault)
deriving DecidableEq, Repr

def RegistryError.message : RegistryError → String
  | .unknownListType listType => "no rule set registered for list type " ++ listType.name
  | .invalid e => e.message
  | .unreadable path fault => "failed to read rule sets from " ++ path ++ ": " ++ fault.message

/-- Rule sets in the order of their list types. -/
structure Registry where
  ruleSets : List RuleSet

namespace Registry

/-- A registry without rule sets. -/
def empty : Registry := ⟨[]⟩

/-- The rule set of a list type, if it has one. -/
def get? (r : Registry) (listType : ListType) : Option RuleSet :=
  r.ruleSets.find? (fun s => s.listType = listType)

/-- The rule set of a list type. -/
def rulesFor (r : Registry) (listType : ListType) : Except RegistryError RuleSet :=
  match r.get? listType with
  | some s => .ok s
  | none => .error (.unknownListType listType)

/-- A list type has a rule set. -/
def contains (r : Registry) (listType : ListType) : Bool := (r.get? listType).isSome

/-- The list types that have a rule set, in order. -/
def listTypes (r : Registry) : List ListType := r.ruleSets.map RuleSet.listType

/-! ## Building -/

/-- Puts a rule set where its list type belongs. -/
def place (s : RuleSet) : List RuleSet → List RuleSet
  | [] => [s]
  | t :: rest => if s.listType.precedes t.listType then s :: t :: rest else t :: place s rest

/-- Adds rule sets one after another; the second one of a list type is refused. -/
def addAll (r : Registry) : List RuleSet → Except RegistryError Registry
  | [] => .ok r
  | s :: rest =>
    if r.contains s.listType then .error (.invalid ⟨s.listType.name, .duplicate⟩)
    else addAll ⟨place s r.ruleSets⟩ rest

/-- The registry of some rule sets. -/
def ofRuleSets (ruleSets : List RuleSet) : Except RegistryError Registry := empty.addAll ruleSets

/-! ## Folders of rule sets -/

/-- The characters behind the last dot of a name, if there are characters in front of it. -/
def extension (name : String) : Option String :=
  match name.toList.reverse.span (fun c => c != '.') with
  | (behind, '.' :: _ :: _) => some (String.ofList behind.reverse)
  | _ => none

/-- The notation of a file by its name; other files hold no rule sets. -/
def fileKind? (name : String) : Option FileKind :=
  match extension name with
  | some "yaml" => some .yaml
  | some "yml" => some .yaml
  | some "json" => some .json
  | _ => none

/-- Reads the rule set of one file. -/
def readFile (l : Libraries) (d : Disk) (path : String) (kind : FileKind) :
    Except RegistryError RuleSet :=
  match d.readText path with
  | .error fault => .error (.unreadable path fault)
  | .ok text => (RuleSet.parse l kind text path).mapError .invalid

/-- Reads the rule sets of files in a folder, and passes over files of other kinds. -/
def readFiles (l : Libraries) (d : Disk) (folder : String) :
    List String → Except RegistryError (List RuleSet)
  | [] => .ok []
  | name :: rest =>
    match fileKind? name with
    | none => readFiles l d folder rest
    | some kind => do
      let s ← readFile l d (Disk.join folder name) kind
      let more ← readFiles l d folder rest
      return s :: more

/-- The registry of all files of rule sets that stand in a folder itself. -/
def ofFolder (l : Libraries) (d : Disk) (folder : String) : Except RegistryError Registry :=
  match d.filesIn folder with
  | .error fault => .error (.unreadable folder fault)
  | .ok names => do ofRuleSets (← readFiles l d folder names)

end Registry

end CauseLists
