import StoredRoutine.Batch.Load
import StoredRoutine.CommandLine.Arguments
import StoredRoutine.CommandLine.Course
import StoredRoutine.Settings

/-!
A run of the program: settings are taken from the command line before the environment, the scratch
database is opened, the batch is loaded, and an exit code tells whether every routine was loaded. The
user may interrupt it after any step.
-/
namespace StoredRoutine.CommandLine

/-- What a run depends on besides its arguments and its session. -/
structure Platform where
  environment : Environment
  reader : EnvFile.Reader
  importer : Importer

/-- Why a run ended early. -/
inductive Failure where
  | settings (failure : Settings.Missing)
  | missingInitScript (path : String)
  | placeholders (failure : EnvFile.ReadFailure)
  | logging (failure : Log.SetupFailure)
  | access (failure : AccessFailure)
  | scratch (failure : Scratch.OpenFailure)
  /-- The file of a volatile scratch database could not be removed. -/
  | closing (failure : AccessFailure)
  | batch (failure : Batch.Failure)
  /-- The columns of the scratch database could not be told. -/
  | catalog (failure : Scratch.Failure)
  /-- There is no such policy, or it has no method name for a routine. -/
  | naming (fault : NamePolicy.Fault)
  | interrupted
  deriving Repr

namespace Failure

def message : Failure → String
  | settings failure => failure.message
  | missingInitScript path => s!"Init script not found: '{path}'"
  | placeholders failure => failure.message
  | logging failure => failure.message
  | access failure => failure.message
  | scratch failure => failure.message
  | closing failure => failure.message
  | batch failure => failure.message
  | catalog failure => failure.message
  | naming fault => fault.message
  | interrupted => ""

instance : Cause Failure where
  message := message
  kind
    | settings failure => Cause.kind failure
    | missingInitScript _ => .configuration
    | placeholders failure => Cause.kind failure
    | logging failure => Cause.kind failure
    | access failure => failure.kind
    | scratch failure => Cause.kind failure
    | closing failure => failure.kind
    | batch failure => Cause.kind failure
    | catalog failure => Cause.kind failure
    | naming fault => Cause.kind fault
    | interrupted => .interrupt
  details
    | scratch failure => Cause.details failure
    | batch failure => Cause.details failure
    | catalog failure => Cause.details failure
    | _ => []

/-- What a run that is on its guard logs about a failure, and the exit code that it ends with. There is
an answer to failures of some kinds only. -/
def answer? (f : Failure) : Option (Log.Level × String × Nat) :=
  match Cause.kind f with
  | .configuration => some (.error, s!"❌ Configuration error: {f.message}", 1)
  | .statement =>
    some (.error, s!"❌ Unable to initialize the scratch database: {f.message}", 1)
  | .serialization => some (.error, s!"❌ Unable to write the metadata file: {f.message}", 1)
  | .interrupt => some (.warning, "⚠️  Operation interrupted by user", 130)
  | _ => none

end Failure

def mainLog : String := "main"

/-- What a run works with, after the command line was put before the settings. -/
structure Plan where
  metadataPath : Option String
  sourcePattern : Option String
  sourceRoot : Path
  initScript : Option String
  scratchDatabase : Option String
  volatile : Bool
  configured : OrderedMap Text Text
  policy : Option NamePolicy

abbrev Work (η α : Type) := Task (Course η) Failure α

variable {η : Type}

/-- The naming policy at a path, if one is given. -/
def findPolicy (importer : Importer) (path : Option String) : Work η (Option NamePolicy) :=
  Task.mapError .naming (NamePolicy.findConfigured importer (path.getD ""))

/-- A text that counts only if it is not empty. -/
def nonempty (s : Option String) : Option String := s.filter (! ·.isEmpty)

/-- What is given with an option; an option without value is like one with an empty text. -/
def Given.text (g : Given) : Option String := g.map (·.getD "")

def readPlaceholders (platform : Platform) (path : String) : Work η (OrderedMap Text Text) :=
  Task.mapError .placeholders (EnvFile.readValues platform.reader platform.environment path)

def plan (platform : Platform) (settings : Settings) (a : Arguments) : Work η Plan := do
  let given ← (nonempty a.placeholders.text).mapM (readPlaceholders platform)
  let policy ← findPolicy platform.importer a.policy.text
  let configured ← match given with
    | some values => pure values
    | none =>
      Task.mapError .placeholders
        (settings.replacementValues platform.reader platform.environment)
  let policy ← match policy with
    | some p => pure (some p)
    | none => findPolicy platform.importer settings.policyPath
  return {
    metadataPath := a.metadata.text <|> settings.metadataPath.map (·.toString)
    sourcePattern := a.sources.text <|> settings.sourcePattern
    sourceRoot := settings.sourceRoot
    initScript := a.initScript.text <|> settings.initScript.map (·.toString)
    scratchDatabase := settings.scratchDatabase.map (·.toString)
    volatile := settings.volatile
    configured, policy }

namespace Plan

/-- Checks that nothing mandatory is missing. Sources that are listed need no pattern. -/
def validate (p : Plan) (paths : List String) : Work η Unit := do
  Task.ofExcept ((Settings.validate (nonempty p.metadataPath).isSome
    ((nonempty p.sourcePattern).isSome || !paths.isEmpty)).mapError .settings)
  match nonempty p.initScript with
  | none => pure ()
  | some script =>
    let there ← Task.ofExcept (((← Task.files).hasFile (← Task.directory)
      (Path.ofString script).toString).mapError (.access ∘ .os))
    if !there then throw (.missingInitScript script)

/-- The batch of a plan, which describes its sources itself: its policy may do more than name
them. -/
def batch (p : Plan) (catalog : Catalog (Option Text)) : Batch where
  policy := none
  configured := p.configured
  catalog := catalog
  metadataPath := p.metadataPath.map .ofString

/-- The source at a path, with what the policy makes of its name. -/
def describe (p : Plan) (path : String) : Work η (Routine.Source × Option NamePolicy.Result) := do
  let source := Routine.Source.ofPath none path
  match p.policy with
  | none => return (source, none)
  | some policy =>
    return (source,
      some (← Task.mapError (.naming ∘ .raised) (Task.lent (policy.apply source.routineName))))

/-- A source whose method name is what the policy made of its name. -/
def withMethod (source : Routine.Source) (result : Option NamePolicy.Result) :
    Except Raised Routine.Source := do
  match result with
  | none => return source
  | some result => return { source with methodName := ← result.methodName }

/-- The sources of a plan that are there, and the paths that are not. Sources can be told apart by
their method names only after all of them have one. -/
def sources (p : Plan) (paths : List String) :
    Work η (List Routine.Source × List String) := do
  let (described, missing) ←
    if paths.isEmpty then do
      pure (← Batch.ofPattern (.batch ∘ .pattern) p.describe (p.sourcePattern.getD "")
        p.sourceRoot.toString, [])
    else Batch.ofListed p.describe paths
  let sources ← Task.ofExcept
    ((described.mapM fun (source, result) => withMethod source result).mapError
      (.naming ∘ .raised))
  return (sources, missing)

/-- What the path of a file is called if there may be none. -/
def shown (path : Option String) : String := path.getD "None"

variable [Scratch.Engine η]

/-- The batch of a plan with the columns of a scratch database. -/
def batchOver (p : Plan) (scratch : Scratch η) : Work η Batch := do
  let (catalog, _) ← scratch.perform Scratch.Database.catalog
  return p.batch ((← Task.ofExcept (catalog.mapError .catalog)).mapTypes Value.asType)

/-- Loads the batch of a plan with an open scratch database. -/
def load (p : Plan) (paths : List String) (scratch : Scratch η) : Work η Batch.Result := do
  let metadataPath := shown (p.metadataPath.map fun path => (Path.ofString path).toString)
  Task.report (.debug Batch.batchLog s!"Initialized BatchLoader (metadata: {metadataPath})")
  Batch.loadFound .batch (p.sources paths) (p.batchOver scratch)

end Plan

/-- From now on a scratch database is closed however the run ends. -/
def enter (scratch : Scratch η) : Work η Unit :=
  Task.change fun c => c.take .program { c.now with scratch := some scratch }

variable [Scratch.Engine η]

/-- Closes the scratch database at hand. -/
def exit : Work η Unit := do
  match ← Task.look fun c => c.now.scratch with
  | none => pure ()
  | some scratch =>
    Task.change fun c => c.take .program { c.now with scratch := none }
    Task.mapError .closing scratch.close

/-- Work with a scratch database, which is closed whatever happens. -/
def within {α : Type} (scratch : Scratch η) (work : Work η α) : Work η α := do
  enter scratch
  let outcome ← Task.outcome work
  exit
  Task.ofExcept outcome

/-- Runs a plan. -/
def Plan.run (p : Plan) (paths : List String) : Work η Batch.Result := do
  p.validate paths
  Task.diagnose (.title "Loader")
  let scratch ← Task.mapError .scratch
    (Scratch.openAt p.scratchDatabase (nonempty p.initScript) p.volatile)
  let result ← within scratch (p.load paths scratch)
  Task.report (.info mainLog s!"Metadata file: {Plan.shown p.metadataPath}")
  return result

/-- Logs to a file too if one is given, and in full if that is asked for. -/
def setUpLogging (settings : Settings) (a : Arguments) : Work η Unit := do
  match nonempty a.logFile.text with
  | some file =>
    Task.mapError .access settings.makeDirectories
    Task.mapError .logging (Log.setup {
      level := .string (if a.verbose then "DEBUG" else "INFO").toList
      file := .string file.toList
      directory := .string settings.logsDirectory.toString.toList })
  | none => if a.verbose then Log.change (·.setAllLevels .debug)

/-- How a run ends: with an exit code, or with a failure that nobody foresaw. -/
inductive Ending where
  | exitCode (n : Nat)
  | stopped (s : Stop)
  | failed (f : Failure)

def logMain (level : Log.Level) (message : String) : Work η Unit :=
  Task.report (.record ⟨mainLog, level, message⟩)

/-- The exit code of a run that loaded its batch. -/
def conclude (result : Batch.Result) : Work η Nat := do
  if result.succeeded then
    logMain .info s!"✅ Loaded {result.metadata.size} routine(s)"
    return 0
  else
    logMain .error s!"❌ {result.failedPaths.length} routine(s) not loaded"
    return 1

def guard : Work η Unit :=
  Task.change fun c => c.take .program { c.now with isGuarded := true }

def unguard : Work η Unit :=
  Task.change fun c => c.take .program { c.now with isGuarded := false }

/-- The end of a run that failed: if it is on its guard and has an answer, it logs that, no longer on
its guard, and ends with an exit code. -/
def settle (f : Failure) : Work η Nat := do
  match ← Task.look (·.now.isGuarded), f.answer? with
  | true, some (level, message, code) =>
    unguard
    logMain level message
    return code
  | _, _ => throw f

/-- Runs the program on its guard. -/
def attempt (platform : Platform) (settings : Settings) (a : Arguments) : Work η Nat := do
  guard
  match ← Task.outcome (do
    let p ← plan platform settings a
    conclude (← p.run a.paths)) with
  | .ok code => return code
  | .error f => settle f

/-- Runs the program on arguments that were accepted. -/
def runAll (platform : Platform) (a : Arguments) : Work η Nat := do
  let settings := Settings.ofEnvironment (← Task.directory) platform.environment
  setUpLogging settings a
  attempt platform settings a

/-- What a run does that is interrupted. -/
def interrupt : Work η Nat := do
  match ← Task.outcome exit with
  | .ok () => settle .interrupted
  | .error f => settle f

/-- The run of a task that the user interrupts after some number of steps, unless it takes fewer. -/
def interruptible (work : Work η Nat) : Option Nat → Work η Nat
  | none => work
  | some n => fun c =>
    let (outcome, last) := work c
    if n < last.steps.length - c.steps.length then
      interrupt (last.upTo (c.steps.length + n))
    else (outcome, last)

def Ending.ofOutcome : Except Failure Nat → Ending
  | .ok code => .exitCode code
  | .error f => .failed f

/-- Runs the program, which the user may interrupt after some number of steps. -/
def run (platform : Platform) (arguments : List String) (interrupt : Option Nat) (s : Session) :
    Ending × Course η :=
  match Arguments.parse arguments with
  | .error stop => (.stopped stop, .start s)
  | .ok a =>
    let (outcome, c) := interruptible (runAll platform a) interrupt (.start s)
    (.ofOutcome outcome, c)

/-- Runs the program as a part of something else. -/
def runInside (η : Type) [Scratch.Engine η] (platform : Platform) (a : Arguments) :
    Task Session Failure Nat := fun s =>
  let (outcome, c) := (runAll platform a : Work η Nat) (.start s)
  (outcome, c.now.session)

/-- The session in which the program starts. -/
def initialSession (files : FileTree) (directory : Place) : Session :=
  (Log.setupIfNeeded ⟨files, directory, .initial, ""⟩).2

end StoredRoutine.CommandLine
