-- A file system: files with their bytes, and folders. Places are named by paths with slashes, seen
-- from the root if they begin with one and from the working folder if they do not.
import CauseLists.Table
import CauseLists.Text.Utf8

namespace CauseLists

/-- Why a file or folder cannot be had. -/
inductive DiskFault
  | notFound | notDirectory | isDirectory | alreadyExists
  /-- The file is there and holds no text. -/
  | notText
deriving DecidableEq, Repr, Inhabited

def DiskFault.message : DiskFault → String
  | .notFound => "No such file or directory (os error 2)"
  | .notDirectory => "Not a directory (os error 20)"
  | .isDirectory => "Is a directory (os error 21)"
  | .alreadyExists => "File exists (os error 17)"
  | .notText => "stream did not contain valid UTF-8"

/-- What stands in a place. -/
inductive DiskEntry
  | file (content : Bytes)
  | folder
deriving DecidableEq, Repr, Inhabited

/-- The names that lead to a place, outermost first; the root is the empty list. -/
abbrev Place := List String

/-- A file system by the places below its root. -/
structure Disk where
  entries : Table Place DiskEntry
  /-- The working folder. -/
  here : Place
deriving DecidableEq, Repr, Inhabited

namespace Disk

/-- The folders that a place stands in, and the place itself as a folder. -/
def foldersTo (place : Place) : Table Place DiskEntry :=
  (List.range place.length).map (fun n => (place.take (n + 1), .folder))

/-- A file system with an empty working folder and nothing else. -/
def emptyAt (here : Place) : Disk := ⟨foldersTo here, here⟩

/-- What stands in a place, if anything does. -/
def entry? (d : Disk) (place : Place) : Option DiskEntry :=
  if place = [] then some .folder else Table.get? place d.entries

/-- Puts a file or a folder into a place. -/
def set (d : Disk) (place : Place) (entry : DiskEntry) : Disk :=
  { d with entries := Table.put place entry d.entries }

/-- Leaves a place with nothing in it. -/
def clear (d : Disk) (place : Place) : Disk := { d with entries := Table.erase place d.entries }

/-! ## Paths -/

/-- A path below another one. -/
def join (outer inner : String) : String :=
  if outer.isEmpty || outer.toList.getLast? == some '/' then outer ++ inner
  else outer ++ "/" ++ inner

/-- The parts of a path between slashes. -/
def parts (path : String) : List (List Char) := path.toList.splitOn '/'

/-- Follows the parts of a path from a folder. The last part need not exist. -/
def follow (d : Disk) (place : Place) : List (List Char) → Except DiskFault Place
  | [] => .ok place
  | part :: rest =>
    match d.entry? place with
    | none => .error .notFound
    | some (.file _) => .error .notDirectory
    | some .folder =>
      if part = [] ∨ part = ['.'] then d.follow place rest
      else if part = ['.', '.'] then d.follow place.dropLast rest
      else d.follow (place ++ [String.ofList part]) rest

/-- The place that a path names; the empty path names none. -/
def locate (d : Disk) (path : String) : Except DiskFault Place :=
  match parts path with
  | [[]] => .error .notFound
  | [] :: parts => d.follow [] parts
  | parts => d.follow d.here parts

/-! ## Reading -/

/-- The bytes of a file. -/
def read (d : Disk) (path : String) : Except DiskFault Bytes :=
  match d.locate path with
  | .error e => .error e
  | .ok place =>
    match d.entry? place with
    | some (.file content) => .ok content
    | some .folder => .error .isDirectory
    | none => .error .notFound

/-- The text of a file. -/
def readText (d : Disk) (path : String) : Except DiskFault String :=
  match d.read path with
  | .error e => .error e
  | .ok bytes =>
    match Text.decode? bytes with
    | some text => .ok text
    | none => .error .notText

/-- There is a file at a path. -/
def isFile (d : Disk) (path : String) : Bool :=
  match d.read path with
  | .ok _ => true
  | .error _ => false

/-- The names of the files that stand in a folder itself, in their order. -/
def filesIn (d : Disk) (path : String) : Except DiskFault (List String) :=
  match d.locate path with
  | .error e => .error e
  | .ok place =>
    match d.entry? place with
    | none => .error .notFound
    | some (.file _) => .error .notDirectory
    | some .folder =>
      let names := d.entries.filterMap (fun (p, entry) =>
        match entry with
        | .file _ => if p.dropLast = place then p.getLast? else none
        | .folder => none)
      .ok (names.mergeSort (fun a b => a ≤ b))

/-! ## Writing -/

/-- Makes a file, or gives one other bytes. -/
def write (d : Disk) (path : String) (content : Bytes) : Except DiskFault Disk :=
  match d.locate path with
  | .error e => .error e
  | .ok place =>
    match d.entry? place with
    | some .folder => .error .isDirectory
    | _ => .ok (d.set place (.file content))

/-- Writes more bytes at the end of a file. -/
def append (d : Disk) (path : String) (piece : Bytes) : Except DiskFault Disk :=
  match d.read path, d.locate path with
  | .ok content, .ok place => .ok (d.set place (.file (content ++ piece)))
  | .error e, _ => .error e
  | _, .error e => .error e

/-- Makes a folder where there is none. Only the last folder of a path may find that a file is in
its place; through one before it nobody can go. -/
def makeFolderAt (d : Disk) (place : Place) (isLast : Bool) : Except DiskFault Disk :=
  match d.entry? place with
  | some .folder => .ok d
  | some (.file _) => .error (if isLast then .alreadyExists else .notDirectory)
  | none => .ok (d.set place .folder)

/-- The folders along the parts of a path, outermost first; no part comes after the last. -/
def foldersAlong (place : Place) : List (List Char) → List (Place × Bool)
  | [] => []
  | part :: rest =>
    if part = [] ∨ part = ['.'] then foldersAlong place rest
    else if part = ['.', '.'] then foldersAlong place.dropLast rest
    else
      let next := place ++ [String.ofList part]
      (next, rest.isEmpty) :: foldersAlong next rest

/-- The folders that have to be there for a path, outermost first. -/
def foldersFor (d : Disk) (path : String) : List (Place × Bool) :=
  match parts path with
  | [[]] => []
  | [] :: parts => foldersAlong [] parts
  | parts => foldersAlong d.here parts

/-- Makes folders one after another. -/
def makeFolders (d : Disk) (folders : List (Place × Bool)) : Except DiskFault Disk :=
  folders.foldlM (fun d (place, isLast) => d.makeFolderAt place isLast) d

/-- Makes a folder with all the folders that it stands in. -/
def makeFolder (d : Disk) (path : String) : Except DiskFault Disk :=
  d.makeFolders (d.foldersFor path)

/-- Moves a file, in place of any file that is there. -/
def move (d : Disk) (source target : String) : Except DiskFault Disk :=
  match d.read source, d.locate source, d.locate target with
  | .ok content, .ok old, .ok new =>
    match d.entry? new with
    | some .folder => .error .isDirectory
    | _ => .ok ((d.clear old).set new (.file content))
  | .error e, _, _ => .error e
  | _, .error e, _ => .error e
  | _, _, .error e => .error e

end Disk

end CauseLists
