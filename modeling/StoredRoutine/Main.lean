import StoredRoutine.Catalogue.Application

/-!
The program on a real system. Everything below the working directory and the directories of the
settings is read into a file tree, together with the files that arguments name; the run works on
that tree, and what it changed there is written back.
-/
namespace StoredRoutine.CommandLine

def placePath (place : Place) : String := "/" ++ "/".intercalate place

/-- A task on the system that counts as not done if it fails. -/
def attempted {α : Type} (task : IO α) : IO (Option α) := do
  try
    return some (← task)
  catch _ =>
    return none

/-- Adds what lies at a place, with all that lies below. Links to directories are not followed. -/
partial def readPlace (files : FileTree) (place : Place) : IO FileTree := do
  let path := placePath place
  match ← attempted (IO.FS.realPath path) with
  | none => return files
  | some real =>
    if ← real.isDir then
      let files := files.place place .directory
      if real.toString != path then return files
      let entries := (← attempted real.readDir).getD #[]
      entries.foldlM (fun files e => readPlace files (place ++ [e.fileName])) files
    else
      match ← attempted (IO.FS.readBinFile path) with
      | some content => return files.place place (.file content.toList)
      | none => return files

/-- The variables of the environment. -/
def readEnvironment : IO Environment := do
  let content := (← attempted (IO.FS.readBinFile "/proc/self/environ")).getD ByteArray.empty
  let text := (Utf8.decode content.toList).toOption.getD []
  let entry (t : Text) : Option (Text × Text) :=
    if t.contains '=' then some (t.takeWhile (· ≠ '='), (t.dropWhile (· ≠ '=')).drop 1) else none
  return .ofList ((text.splitOn (Char.ofNat 0)).filterMap entry)

/-- The paths that an argument may name: itself, or the value of the option that it is. -/
def named (argument : String) : List String :=
  [argument, String.ofList ((argument.toList.dropWhile (· ≠ '=')).drop 1)]

/-- The paths that a run may look at. -/
def watched (settings : Settings) (arguments : List String) : List Path :=
  [.ofString "", settings.projectRoot, settings.sourceRoot, settings.logsDirectory] ++
    [settings.metadataPath, settings.placeholdersFile, settings.initScript,
      settings.scratchDatabase].filterMap id ++
    ((arguments.flatMap named).filter (! ·.isEmpty)).map .ofString

/-- Whether a place was read already. -/
def covered (done : List Place) (place : Place) : Bool := done.any (·.isPrefixOf place)

def readPlaces (places : List Place) : IO FileTree := do
  let (files, _) ← places.foldlM (fun (files, done) place => do
    if covered done place then return (files, done)
    return (← readPlace files place, place :: done)) (FileTree.empty, [])
  return files

/-- A file takes its content at once, under its final name. -/
def writeFile (place : Place) (content : Bytes) : IO Unit := do
  let path := placePath place
  let temporary := path ++ ".new"
  IO.FS.writeBinFile temporary ⟨content.toArray⟩
  IO.FS.rename temporary path

def writeNode (place : Place) : Node → IO Unit
  | .directory => IO.FS.createDirAll (placePath place)
  | .file content => writeFile place content

/-- Makes the system agree with a tree that was another one before. -/
def writeBack (before after : FileTree) : IO Unit := do
  for (place, _) in before.files do
    if (after.get? place).isNone then
      IO.FS.removeFile (placePath place)
  for (place, node) in after.nodes.entries do
    if before.get? place ≠ some node then
      writeNode place node

/-- The exit code of a run that ended, which may have something to say about its end. -/
def Ending.close (e : Ending) : IO UInt32 := do
  match e with
  | .exitCode n => return n.toUInt32
  | .stopped stop =>
    match stop with
    | .helpWanted => IO.println (" ".intercalate (Switch.spellings.map Prod.fst))
    | .misuse _ => IO.eprintln stop.message
    return stop.exitCode.toUInt32
  | .failed f =>
    IO.eprintln f.message
    return 1

/-- How often a naming policy may run the program inside of itself. -/
def nesting : Nat := 60

end StoredRoutine.CommandLine

open StoredRoutine CommandLine in
def main (arguments : List String) : IO UInt32 := do
  let directory := (Path.ofString (← IO.currentDir).toString).parts
  let environment ← readEnvironment
  let settings := Settings.ofEnvironment directory environment
  let places := (watched settings arguments).map (Path.absoluteParts directory)
  let files ← readPlaces places
  let platform : Platform := ⟨environment, .standard, Catalogue.importer environment nesting⟩
  let (ending, course) : Ending × Course Scratch.Kept :=
    run platform arguments none (initialSession files directory)
  let session := course.now.session
  IO.print session.console
  writeBack files session.files
  ending.close
