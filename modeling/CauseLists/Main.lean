-- The program: reads the files that an invocation names into a disk, carries the invocation out
-- there, keeps the files that it made and prints what it printed. A folder cannot be listed from
-- here, so rule sets come from the catalogue.
import CauseLists.Bundled.Libraries
import CauseLists.CommandLine.Arguments
import CauseLists.CommandLine.Run
import Std.Time.DateTime.Timestamp

namespace CauseLists.Program

/-! ## Reading the surroundings -/

/-- The path without its last part, if it has more than one. -/
def outerPath (path : String) : String :=
  "/".intercalate ((Disk.parts path).dropLast.map String.ofList)

/-- Puts a file with all its folders on a disk. -/
def withFile (d : Disk) (path : String) (content : Bytes) : Disk :=
  match (d.makeFolder (outerPath path)).bind (fun d => d.write path content) with
  | .ok d => d
  | .error _ => d

/-- Reads what stands at a path onto a disk. Where a file is in the way of the path, `rounds`
allows for looking at the paths above. -/
def readPath : (rounds : Nat) → Disk → String → IO Disk
  | 0, d, _ => return d
  | rounds + 1, d, path => do
    try
      let content ← IO.FS.readBinFile path
      return withFile d path content.toList
    catch e =>
      match e with
      | .inappropriateType none _ _ => return (d.makeFolder path).toOption.getD d
      | .inappropriateType (some _) _ _ => readPath rounds d (outerPath path)
      | .noFileOrDirectory _ _ _ => return d
      | e => throw e

/-- The paths that an invocation reads. -/
def pathsOf (i : Invocation) : List String :=
  i.settingsFile.toList ++
    match i.command with
    | .rules _ => []
    | .validate r => r.files
    | .ingest r => r.envelopeFile :: r.storeFolder.toList ++ r.files

/-- The files of an invocation in their places. -/
def readDisk (i : Invocation) : IO Disk := do
  let here := Disk.parts (toString (← IO.currentDir))
  let start := Disk.emptyAt ((here.filter (fun p => p ≠ [])).map String.ofList)
  (pathsOf i).foldlM (fun d path => readPath path.length d path) start

/-- The settings in the environment. -/
def readEnvironment : IO (String → Option String) := do
  let names := Settings.variableNames
  let values ← names.mapM (fun name => IO.getEnv name)
  return fun name => ((names.zip values).lookup name).bind id

/-- The current second. -/
def readClock : IO Instant := do
  let now ← Std.Time.Timestamp.now
  return (Instant.ofSeconds? now.toSecondsSinceUnixEpoch.val).getD .epoch

/-- A number of 128 random bits. -/
def randomNumber : IO Nat := do
  let bytes ← IO.getRandomBytes 16
  return bytes.toList.foldl (fun n b => n * 256 + b.toNat) 0

/-- How many bodies an invocation may publish. -/
def bodyCount (i : Invocation) : Nat :=
  match i.command with
  | .ingest r => r.files.length
  | _ => 0

/-- All that an invocation finds around it. -/
def readSurroundings (i : Invocation) : IO Surroundings := do
  let disk ← readDisk i
  let environment ← readEnvironment
  let now ← readClock
  let drawn ← (List.replicate (bodyCount i) ()).mapM (fun _ => randomNumber)
  return ⟨Bundled.libraries, disk, environment, fun _ => now,
    fun n => .ofRandom ((drawn[n]?).getD n)⟩

/-! ## Keeping the outcome -/

/-- Makes a file with all its folders, unless there is one already. -/
def keepFile (place : Place) (content : Bytes) : IO Unit := do
  IO.FS.createDirAll ("/" ++ "/".intercalate place.dropLast)
  try
    let file ← IO.FS.Handle.mk ("/" ++ "/".intercalate place) .writeNew
    file.write (ByteArray.mk content.toArray)
  catch e =>
    match e with
    | .alreadyExists _ _ _ => return ()
    | e => throw e

/-- Keeps the files that were not there before. -/
def keepFiles (before after : Disk) : IO Unit :=
  after.entries.forM (fun (place, entry) =>
    match entry, before.entry? place with
    | .file content, none => keepFile place content
    | _, _ => return ())

/-! ## Running -/

/-- Ends with an error. -/
def fail (message : String) : IO UInt32 := do
  IO.eprintln ("error: " ++ message)
  return 2

/-- Carries out an invocation in the surroundings that it was given. -/
def carryOut (i : Invocation) (s : Surroundings) : IO UInt32 := do
  let o := i.run s
  keepFiles s.disk o.disk
  IO.print o.printed
  match o.result with
  | .ok _ => return o.exitCode.toUInt32
  | .error f => fail f.message

/-- Carries out an invocation. -/
def run (i : Invocation) : IO UInt32 := do
  let s ← readSurroundings i
  match s.settings i.settingsFile with
  | .ok { rulesFolder := some folder, .. } => fail ("cannot list the folder " ++ folder)
  | _ => carryOut i s

/-- Carries out what arguments ask for. -/
def runArguments (texts : List String) : IO UInt32 := do
  match Arguments.ofList texts with
  | .error e => fail e.message
  | .ok a =>
    if a.has .help then
      IO.print usageText
      return 0
    match a.invocation with
    | .error e => fail (e.message ++ "\n\n" ++ usageText)
    | .ok i =>
      try run i
      catch e => fail (toString e)

end CauseLists.Program

/-- Ends with 0 if all is well, with 1 if a submission was refused and with 2 if nothing could be
done. -/
def main (texts : List String) : IO UInt32 := CauseLists.Program.runArguments texts
