import StoredRoutine.Batch.Run
import StoredRoutine.FileTree.Access
import StoredRoutine.FileTree.Glob
import StoredRoutine.OrderedMap
import StoredRoutine.Routine.Metadata
import StoredRoutine.Task

/-!
Loading a batch from a pattern or from a list of paths: the sources are found, compiled, and written
as metadata, and the user is told which sources were not loaded.
-/
namespace StoredRoutine.Batch

/-!
The metadata document of a batch: one JSON object of all records by routine name. Equal metadata
gives equal text, and a file that already holds that text is not written again.
-/

section

open Routine (Metadata)

def json (metadata : OrderedMap String Metadata) : Json :=
  .object (metadata.entries.map fun (name, record) => (name.toList, record.toJson))

/-- A JSON value as a document, which ends with a line feed. -/
def documentOf (j : Json) : Except Json.Unwritable Text := j.toText.map (· ++ ['\n'])

def document (metadata : OrderedMap String Metadata) : Except Json.Unwritable Text :=
  documentOf (json metadata)

/-- Why the metadata was not written. -/
inductive WriteFailure where
  | unwritable (fault : Json.Unwritable)
  | os (path : Path) (failure : OsFailure)
  /-- The file before could not be read, or no file can have the path. -/
  | access (failure : AccessFailure)
  deriving DecidableEq, Repr

namespace WriteFailure

def message : WriteFailure → String
  | unwritable fault => s!"Error of encoding to JSON: '{fault.message}'."
  | os path failure => s!"Unable to write '{path}': {failure.message}"
  | access failure => failure.message

def ofAccess (path : Path) : AccessFailure → WriteFailure
  | .os failure => os path failure
  | failure => access failure

/-- Whether a failure counts as one of serializing the metadata, as opposed to one that no one
foresaw. -/
def isSerialization : WriteFailure → Bool
  | access _ => false
  | _ => true

end WriteFailure

instance : Cause WriteFailure where
  message := WriteFailure.message
  kind
    | .access failure => failure.kind
    | .unwritable _ | .os _ _ => .serialization

def fileLog : String := "utils.file_utils"

variable {σ : Type} [Host σ]

/-- Writes a text to a file unless it is up to date, and reports which. -/
def writeText (path : Path) (text : Text) : Task σ AccessFailure Bool := do
  Task.pass fun files directory => files.midway directory path.toString text "utf-8"
  let written ← Task.withFiles fun files directory =>
    files.writeAtomically directory path.toString text "utf-8"
  Task.report (if written then .info fileLog s!"Wrote '{path}'"
    else .debug fileLog s!"File '{path}' is up to date")
  return written

/-- Writes the metadata to its file, if there is one. The answer tells whether the file had to be
written. -/
def writeMetadata (path : Option Path) (metadata : OrderedMap String Metadata) :
    Task σ WriteFailure Bool := do
  let text ← Task.ofExcept ((document metadata).mapError .unwritable)
  match path with
  | none => return false
  | some path => Task.mapError (.ofAccess path) (writeText path text)

end

open Routine (Source)

/-- Why a batch ended early. -/
inductive Failure where
  | pattern (fault : Glob.Fault)
  | source (failure : Routine.LoadFailure)
  | metadata (failure : WriteFailure)
  deriving Repr

def Failure.message : Failure → String
  | .pattern fault => fault.message
  | .source failure => failure.message
  | .metadata failure => failure.message

instance : Cause Failure where
  message := Failure.message
  kind
    | .pattern fault => Cause.kind fault
    | .source failure => Cause.kind failure
    | .metadata failure => Cause.kind failure
  details
    | .source failure => Cause.details failure
    | _ => []

variable {σ : Type} [Host σ]

/-- The paths that match a pattern below a root, in order. -/
def findPaths (pattern root : String) : Task σ Glob.Fault (List Path) := do
  let root := Path.ofString root
  let paths ← Task.ofExcept (Glob.find (← Task.files) (← Task.directory) root pattern)
  Task.report (.debug batchLog
    s!"Found {paths.length} source(s) matching '{pattern}' in '{root}'")
  return paths

/-- What is made of the paths that match a pattern below a root, one after the other. -/
def ofPattern {ε α : Type} (raise : Glob.Fault → ε) (describe : String → Task σ ε α)
    (pattern root : String) : Task σ ε (List α) := do
  let paths ← Task.mapError raise (findPaths pattern root)
  paths.mapM fun path => describe path.toString

/-- The sources that match a pattern below a root, in the order of their paths. -/
def findSources (batch : Batch) (pattern root : String) : Task σ Glob.Fault (List Source) :=
  ofPattern id (fun path => pure (batch.describe path)) pattern root

def missingMessage (path : String) : Diagnostic := .errorList s!"File not exists: '{path}'" []

/-- What is made of the paths that exist, one after the other, and the paths that do not, each of
which is reported when its turn comes. -/
def ofListed {ε α : Type} (describe : String → Task σ ε α) :
    List String → Task σ ε (List α × List String)
  | [] => pure ([], [])
  | path :: paths => do
    if (← Task.files).pathExists (← Task.directory) path then
      let described ← describe path
      let (more, missing) ← ofListed describe paths
      return (described :: more, missing)
    else
      Task.diagnose (missingMessage path)
      let (described, missing) ← ofListed describe paths
      return (described, path :: missing)

/-- The sources at the paths that exist, and the paths that do not. -/
def listedSources {ε : Type} (batch : Batch) (paths : List String) :
    Task σ ε (List Source × List String) :=
  ofListed (fun path => pure (batch.describe path)) paths

def overviewTitle : String := "Routines in the files below are not loaded:"

/-- The message about sources that were not loaded, if there are any. -/
def overview (result : Result) : List Report :=
  if result.succeeded then [] else [.diagnostic (.warningList overviewTitle result.failedPaths)]

/-- Writes the metadata of a result and tells what was not loaded. -/
def finish (batch : Batch) (result : Result) : Task σ Failure Result := do
  let _ ← Task.mapError .metadata (writeMetadata batch.metadataPath result.metadata)
  Task.reportAll (overview result)
  return result

/-- Loads what is found, of which the paths without a source come first among the failed. The batch
need not be known before the sources that clash are reported. -/
def loadFound {ε : Type} (raise : Failure → ε) (found : Task σ ε (List Source × List String))
    (known : Task σ ε Batch) : Task σ ε Result := do
  let (sources, missing) ← found
  let (remaining, conflicting) ← withoutClashes sources
  let batch ← known
  let result ← Task.mapError (raise ∘ .source) (batch.compile remaining conflicting)
  Task.mapError raise
    (batch.finish { result with failedPaths := missing ++ result.failedPaths })

/-- Loads all sources that match a pattern. -/
def loadAll (batch : Batch) (pattern root : String) : Task σ Failure Result :=
  loadFound id
    (do return (← Task.mapError .pattern (batch.findSources pattern root), [])) (pure batch)

/-- Loads the sources at some paths. -/
def loadList (batch : Batch) (paths : List String) : Task σ Failure Result :=
  loadFound id (batch.listedSources paths) (pure batch)

end StoredRoutine.Batch
