import StoredRoutine.Log.Record
import StoredRoutine.Placeholder
import StoredRoutine.Routine.Load
import StoredRoutine.Routine.Metadata

/-!
Compiling all sources of a batch in the order of their routine names. A source that fails is
reported and listed, and the batch goes on with the next one.
-/
namespace StoredRoutine

/-!
Sources that would give equally named wrapper methods. All of them are left out of a batch, each
clashing name is reported with the paths that share it, and sources without method name never
clash.
-/

namespace Batch

open Routine (Source)

/-- The method names that more than one source has, in order of first occurrence. -/
def clashingNames (sources : List Source) : List String :=
  let names := sources.filterMap (·.methodName)
  (names.filter fun name => 1 < names.count name).eraseDups

/-- Whether a source has one of the given method names. -/
def clashes (names : List String) (source : Source) : Bool := source.methodName.any names.contains

/-- What is left of the sources without those that clash, and the paths of those. -/
def separate (sources : List Source) : List Source × List String :=
  let names := clashingNames sources
  (sources.filter (! clashes names ·), (sources.filter (clashes names)).map (·.path))

def clashMessage (name : String) : String :=
  s!"The following source files would result wrapper methods with equal name '{name}'"

/-- One message for every clashing name. -/
def clashReports (sources : List Source) : List Diagnostic :=
  (clashingNames sources).map fun name =>
    .errorList (clashMessage name)
      ((sources.filter (·.methodName == some name)).map (·.path))

end Batch

/-- What the sources of a batch have in common. -/
structure Batch where
  /-- From a routine name to the name of its wrapper method. -/
  policy : Option (String → String)
  /-- Configured replacement values, under names as they were written. -/
  configured : OrderedMap Text Text
  catalog : Catalog (Option Text)
  /-- The file that the metadata is written to. -/
  metadataPath : Option Path

namespace Batch

open Routine (Source Metadata)

structure Result where
  /-- The compiled records under the names of their routines. -/
  metadata : OrderedMap String Metadata
  /-- The paths of the sources that were not loaded, in the order in which they failed. -/
  failedPaths : List String
  deriving Repr

def Result.succeeded (r : Result) : Bool := r.failedPaths.isEmpty

/-- The replacement values of a batch: configured pairs override column types. -/
def replacePairs (batch : Batch) : Placeholder.Pairs :=
  batch.catalog.typePairs.insertMany
    ((Placeholder.normalize batch.configured).entries.map fun (key, value) => (key, some value))

def describe (batch : Batch) (path : String) : Source := .ofPath batch.policy path

def batchLog : String := "loader.batch_loader"

/-- What is reported about a source that was not loaded. -/
def failureReports (source : Source) (failure : Routine.LoadFailure) : List Report :=
  [.debug batchLog s!"Failed to load {source.path}: {failure.kind}",
    .diagnostic (.errorList failure.message [Routine.failureNotice source.path])]

variable {σ : Type} [Host σ]

/-- Loads sources one after the other, adding to a result. -/
def loadEach (pairs : Placeholder.Pairs) :
    List Source → Result → Task σ Routine.LoadFailure Result
  | [], result => pure result
  | source :: sources, result => do
    match ← Task.outcome (Routine.load pairs source) with
    | .ok record =>
      loadEach pairs sources
        { result with metadata := result.metadata.insert source.routineName record }
    | .error failure =>
      if failure.isLocal then
        Task.reportAll (failureReports source failure)
        loadEach pairs sources
          ⟨result.metadata.erase source.routineName, result.failedPaths ++ [source.path]⟩
      else throw failure

/-- Sources in the order of their routine names; equal names keep their order. -/
def inNameOrder (sources : List Source) : List Source :=
  sources.mergeSort fun a b => !decide (b.routineName < a.routineName)

/-- The sources that do not clash and the paths of those that do, which are reported. -/
def withoutClashes {ε : Type} (sources : List Source) : Task σ ε (List Source × List String) := do
  Task.reportAll ((clashReports sources).map .diagnostic)
  return separate sources

/-- Compiles sources that do not clash, given in any order; those that clash have failed. -/
def compile (batch : Batch) (remaining : List Source) (conflicting : List String) :
    Task σ Routine.LoadFailure Result := do
  let result ← loadEach batch.replacePairs (inNameOrder remaining) ⟨∅, conflicting⟩
  Task.report (.info batchLog
    s!"Loaded {result.metadata.size} routine(s), {result.failedPaths.length} failed")
  return result

/-- Compiles the sources of a batch, given in any order. -/
def run (batch : Batch) (sources : List Source) : Task σ Routine.LoadFailure Result := do
  let (remaining, conflicting) ← withoutClashes sources
  batch.compile remaining conflicting

end Batch

end StoredRoutine
