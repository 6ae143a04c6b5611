-- Payload stores: where accepted bodies are kept, byte for byte as they were received. A body is
-- found by its list type and its digest, so equal bodies share one blob, a blob is never written
-- anew, and a blob that was tampered with is noticed when it is read.
import CauseLists.Artefact.Basic
import CauseLists.Disk

namespace CauseLists

/-- Why a body cannot be kept or had. -/
inductive StorageError
  | disk (location : String) (fault : DiskFault)
  /-- The store does not take bodies at present. -/
  | unavailable (reason : String)
  | notFound (location : String)
  | corrupted (location : String) (expected actual : Digest)
deriving DecidableEq, Repr, Inhabited

def StorageError.message : StorageError → String
  | .disk location fault => "payload I/O failed at " ++ location ++ ": " ++ fault.message
  | .unavailable reason => "payload store unavailable: " ++ reason
  | .notFound location => "no payload stored at " ++ location
  | .corrupted location expected actual =>
    "payload at " ++ location ++ " is corrupt: expected " ++ expected.text ++ ", found " ++
      actual.text

/-- The name of the blob of a body among those of its list type. -/
def blobName (digest : Digest) : String := digest.hex ++ ".json"

/-- Bytes that have the digest of a reference, or else an error. -/
def StoredBody.verify (b : StoredBody) (bytes : Bytes) : Except StorageError Bytes :=
  let actual := Digest.ofBody bytes
  if actual = b.digest then .ok bytes else .error (.corrupted b.location b.digest actual)

/-! ## In memory -/

/-- Blobs by their locations. -/
abbrev Blobs := Table String Bytes

namespace Blobs

/-- The location of a body. -/
def location (listType : ListType) (digest : Digest) : String :=
  "memory://" ++ listType.name ++ "/" ++ blobName digest

/-- Keeps a body, unless its blob is there already. -/
def persist (blobs : Blobs) (listType : ListType) (body : Bytes) : StoredBody × Blobs :=
  let digest := Digest.ofBody body
  let location := location listType digest
  let blobs :=
    match Table.get? location blobs with
    | some _ => blobs
    | none => Table.put location body blobs
  (⟨location, digest, body.length⟩, blobs)

/-- Reads a body back. -/
def fetch (blobs : Blobs) (b : StoredBody) : Except StorageError Bytes :=
  match Table.get? b.location blobs with
  | some bytes => b.verify bytes
  | none => .error (.notFound b.location)

end Blobs

/-! ## In a directory -/

/-- A folder of blobs on a disk. -/
structure BlobFolder where
  /-- The path of the folder. -/
  root : String
  disk : Disk
deriving DecidableEq, Repr, Inhabited

namespace BlobFolder

/-- The folder of the blobs of a list type. -/
def shelf (f : BlobFolder) (listType : ListType) : String := Disk.join f.root listType.name

/-- The location of a body. -/
def location (f : BlobFolder) (listType : ListType) (digest : Digest) : String :=
  Disk.join (f.shelf listType) (blobName digest)

/-- Where a body is written before it is moved to its location, so that nobody sees half of it. -/
def stagingLocation (f : BlobFolder) (listType : ListType) (digest : Digest) : String :=
  f.location listType digest ++ ".partial"

/-- One step by which a body gets to its location. -/
inductive Act
  /-- Makes one of the folders on the way to a shelf. -/
  | makeFolder (shelf : String) (place : Place) (isLast : Bool)
  /-- Makes an empty file. -/
  | create (path : String)
  /-- Writes some more of a file. -/
  | write (path : String) (piece : Bytes)
  | move (source target : String)
deriving DecidableEq, Repr

namespace Act

/-- The path that is named when a step fails. -/
def location : Act → String
  | .makeFolder shelf _ _ => shelf
  | .create path => path
  | .write path _ => path
  | .move _ target => target

/-- The disk after a step. -/
def run (d : Disk) : Act → Except DiskFault Disk
  | .makeFolder _ place isLast => d.makeFolderAt place isLast
  | .create path => d.write path []
  | .write path piece => d.append path piece
  | .move source target => d.move source target

end Act

/-- Takes steps one after another, up to the first that fails. What was done until then stays
done. -/
def perform (f : BlobFolder) : List Act → Except StorageError Unit × BlobFolder
  | [] => (.ok (), f)
  | act :: rest =>
    match act.run f.disk with
    | .error fault => (.error (.disk act.location fault), f)
    | .ok disk => perform { f with disk } rest

/-- The steps that write a body beside its location. The disk takes it in some pieces. -/
def stage (f : BlobFolder) (listType : ListType) (digest : Digest) (pieces : List Bytes) :
    List Act :=
  let staging := f.stagingLocation listType digest
  (f.disk.foldersFor (f.shelf listType)).map
      (fun (place, isLast) => .makeFolder (f.shelf listType) place isLast) ++
    .create staging :: pieces.map (.write staging)

/-- The steps that keep a body: it is moved to its location when it is whole. If its blob is there
already, nothing is to be done. -/
def acts (f : BlobFolder) (listType : ListType) (digest : Digest) (pieces : List Bytes) :
    List Act :=
  let location := f.location listType digest
  if f.disk.isFile location then []
  else f.stage listType digest pieces ++ [.move (f.stagingLocation listType digest) location]

/-- Keeps a body which the disk takes in some pieces. -/
def keep (f : BlobFolder) (listType : ListType) (body : Bytes) (pieces : List Bytes) :
    Except StorageError StoredBody × BlobFolder :=
  let digest := Digest.ofBody body
  let stored : StoredBody := ⟨f.location listType digest, digest, body.length⟩
  match f.perform (f.acts listType digest pieces) with
  | (.error e, f) => (.error e, f)
  | (.ok (), f) => (.ok stored, f)

/-- Keeps a body. -/
def persist (f : BlobFolder) (listType : ListType) (body : Bytes) :
    Except StorageError StoredBody × BlobFolder :=
  f.keep listType body [body]

/-- Reads a body back. -/
def fetch (f : BlobFolder) (b : StoredBody) : Except StorageError Bytes :=
  match f.disk.read b.location with
  | .ok bytes => b.verify bytes
  | .error .notFound => .error (.notFound b.location)
  | .error fault => .error (.disk b.location fault)

end BlobFolder

/-! ## Either store -/

/-- A place where bodies are kept. -/
inductive PayloadStore
  | memory (blobs : Blobs)
  | folder (folder : BlobFolder)
deriving DecidableEq, Repr

namespace PayloadStore

/-- A store in memory that holds nothing. -/
def empty : PayloadStore := .memory []

instance : Inhabited PayloadStore := ⟨empty⟩

/-- Keeps the body of a submission with an envelope. -/
def persist (s : PayloadStore) (envelope : Envelope) (body : Bytes) :
    Except StorageError StoredBody × PayloadStore :=
  match s with
  | .memory blobs =>
    let (stored, blobs) := blobs.persist envelope.listType body
    (.ok stored, .memory blobs)
  | .folder f =>
    let (result, f) := f.persist envelope.listType body
    (result, .folder f)

/-- Reads a body back and checks its digest. -/
def fetch (s : PayloadStore) (b : StoredBody) : Except StorageError Bytes :=
  match s with
  | .memory blobs => blobs.fetch b
  | .folder f => f.fetch b

end PayloadStore

end CauseLists
