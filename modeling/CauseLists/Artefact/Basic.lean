-- Artefacts: publications that were accepted. An artefact is current from the start and leaves that
-- state once, for good: a newer one takes its place, or its display window ends. Leaving changes
-- the state, the link to the successor, the end of the effective window and the log, and nothing
-- else.
import CauseLists.Digest
import CauseLists.Envelope.Basic

namespace CauseLists

/-! ## Identifiers -/

/-- The identifier of an artefact: a number of 128 bits. -/
structure ArtefactId where
  value : BitVec 128
deriving DecidableEq, Repr

namespace ArtefactId

instance : Inhabited ArtefactId := ⟨⟨0⟩⟩

/-- The identifier with a number; only its low 128 bits count. -/
def ofNat (n : Nat) : ArtefactId := ⟨BitVec.ofNat 128 n⟩

/-- The identifier that random bits make: 122 of them stay, the other six mark it as random. -/
def ofRandom (n : Nat) : ArtefactId :=
  let bits := BitVec.ofNat 128 n
  let version : BitVec 128 := 0xf <<< 76
  let variant : BitVec 128 := 0x3 <<< 62
  ⟨(bits &&& ~~~(version ||| variant)) ||| (0x4 <<< 76) ||| (0x2 <<< 62)⟩

/-- The 32 hexadecimal digits of an identifier in groups of 8, 4, 4, 4 and 12. -/
def text (id : ArtefactId) : String :=
  let digits := Text.hexDigits 32 id.value.toNat
  let group (start length : Nat) : String := String.ofList ((digits.drop start).take length)
  "-".intercalate [group 0 8, group 8 4, group 12 4, group 16 4, group 20 12]

/-- The identifier that a text writes in digits and hyphens as above. -/
def parse? (text : String) : Option ArtefactId :=
  let digits := text.toList.filter (fun c => c != '-')
  match Text.readBase 16 digits with
  | some n => if (ofNat n).text = Text.lowerAscii text then some (ofNat n) else none
  | none => none

end ArtefactId

/-! ## States -/

/-- The states of an artefact. -/
inductive ArtefactState
  /-- It is what is published under its key. -/
  | current
  /-- A newer artefact has taken its place. -/
  | superseded
  /-- Its display window has ended. -/
  | expired
deriving DecidableEq, Repr, Inhabited

namespace ArtefactState

/-- The name of a state. -/
def name : ArtefactState → String
  | .current => "CURRENT"
  | .superseded => "SUPERSEDED"
  | .expired => "EXPIRED"

/-- No artefact leaves the state. -/
def isTerminal : ArtefactState → Bool
  | .current => false
  | .superseded => true
  | .expired => true

end ArtefactState

/-- One change of state in the log of an artefact. -/
structure Transition where
  before : ArtefactState
  after : ArtefactState
  time : Instant
  reason : String
deriving DecidableEq, Repr, Inhabited

/-- Why an artefact cannot change its state. -/
inductive TransitionObstacle
  | terminal
  /-- The display window has not ended yet. -/
  | windowOpen (ending : Instant)
deriving DecidableEq, Repr, Inhabited

/-- A change of state that is refused. -/
structure TransitionError where
  before : ArtefactState
  after : ArtefactState
  obstacle : TransitionObstacle
deriving DecidableEq, Repr, Inhabited

def TransitionObstacle.message : TransitionObstacle → String
  | .terminal => "terminal state"
  | .windowOpen ending => "display window open until " ++ ending.text

def TransitionError.message (e : TransitionError) : String :=
  "invalid transition from " ++ e.before.name ++ " to " ++ e.after.name ++ ": " ++
    e.obstacle.message

/-! ## Artefacts -/

/-- Where a body is kept, and what it hashes to. -/
structure StoredBody where
  location : String
  digest : Digest
  /-- The number of bytes. -/
  size : Nat
deriving DecidableEq, Repr, Inhabited

/-- A publication that was accepted. -/
structure Artefact where
  id : ArtefactId
  envelope : Envelope
  body : StoredBody
  effectiveFrom : Instant
  /-- The end of display, or the instant at which a successor came, if that was earlier. -/
  effectiveTo : Instant
  state : ArtefactState
  supersededBy : Option ArtefactId
  supersedes : Option ArtefactId
  /-- The place among all commits; 0 until it is committed. -/
  sequence : Nat
  receivedAt : Instant
  transitions : List Transition
deriving DecidableEq, Repr

namespace Artefact

/-- A new artefact, effective while it is to be displayed. -/
def new (id : ArtefactId) (envelope : Envelope) (body : StoredBody) (receivedAt : Instant) :
    Artefact where
  id
  envelope
  body
  effectiveFrom := envelope.displayFrom
  effectiveTo := envelope.displayTo
  state := .current
  supersededBy := none
  supersedes := none
  sequence := 0
  receivedAt
  transitions := []

/-- The key of the chain that an artefact belongs to. -/
def key (a : Artefact) : IdentityKey := a.envelope.key

def isCurrent (a : Artefact) : Bool := a.state = .current

/-- The display window has ended, whatever the state. -/
def hasEnded (a : Artefact) (now : Instant) : Bool := a.envelope.hasEnded now

/-- The public sees the artefact. -/
def isVisible (a : Artefact) (now : Instant) : Bool :=
  a.isCurrent && a.effectiveFrom ≤ now && now ≤ a.effectiveTo

/-- The artefact in another state, with the change in its log. -/
def enter (a : Artefact) (state : ArtefactState) (now : Instant) (reason : String) : Artefact :=
  { a with state, transitions := a.transitions ++ [⟨a.state, state, now, reason⟩] }

/-- An artefact can change into a state only from the current one. -/
def requireCurrent (a : Artefact) (target : ArtefactState) : Except TransitionError Unit :=
  if a.state.isTerminal then .error ⟨a.state, target, .terminal⟩ else .ok ()

/-- A newer artefact takes the place of this one. The effective window ends at that instant if it
has not ended before, and never before it starts. -/
def supersede (a : Artefact) (successor : ArtefactId) (now : Instant) :
    Except TransitionError Unit × Artefact :=
  match a.requireCurrent .superseded with
  | .error e => (.error e, a)
  | .ok () =>
    let a := { a with supersededBy := some successor }
    let a := { a with effectiveTo := (a.effectiveTo.earlier now).later a.effectiveFrom }
    (.ok (), a.enter .superseded now ("superseded by " ++ successor.text))

/-- Retires an artefact whose display window has ended. -/
def expire (a : Artefact) (now : Instant) : Except TransitionError Unit × Artefact :=
  match a.requireCurrent .expired with
  | .error e => (.error e, a)
  | .ok () =>
    if a.hasEnded now then (.ok (), a.enter .expired now "display window ended")
    else (.error ⟨a.state, .expired, .windowOpen a.envelope.displayTo⟩, a)

end Artefact

end CauseLists
