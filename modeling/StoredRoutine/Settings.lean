import StoredRoutine.EnvFile.Reading
import StoredRoutine.Text.CaseMapping

/-!
The settings of the program, from variables of its environment. Relative paths are seen from the
root of the project, and blank values count as missing.
-/
namespace StoredRoutine

structure Settings where
  projectRoot : Path
  logsDirectory : Path
  metadataPath : Option Path
  /-- The directory that the source pattern is relative to. -/
  sourceRoot : Path
  sourcePattern : Option String
  /-- Where the naming policy is found. -/
  policyPath : Option String
  placeholdersFile : Option Path
  initScript : Option Path
  scratchDatabase : Option Path
  volatile : Bool
  deriving DecidableEq, Repr

namespace Settings

def lookUp (environment : Environment) (name : String) : Option Text :=
  environment.get? name.toList

/-- A value without the blanks around it, if anything is left. -/
def present? (v : Text) : Option String :=
  if v.allBlank then none else some (String.ofList v.trim)

def optional (environment : Environment) (name : String) : Option String :=
  (lookUp environment name).bind present?

def trueValues : List String := ["1", "true", "yes", "on"]

def flag (environment : Environment) (name : String) : Bool :=
  (optional environment name).any fun v => trueValues.any (·.toList == Text.lower v.toList)

def ofEnvironment (directory : Place) (environment : Environment) : Settings :=
  let given (name standard : String) : Text :=
    (lookUp environment name).getD standard.toList
  let root := (Path.ofString (String.ofList (given "LOADER_PROJECT_ROOT" ""))).resolve directory
  let path (v : String) : Path := root.join (.ofString v)
  { projectRoot := root
    logsDirectory := path (String.ofList (given "LOADER_LOGS_DIR" "logs"))
    metadataPath := (present? (given "LOADER_METADATA" "etc/routines.json")).map path
    sourceRoot := ((optional environment "LOADER_SOURCE_ROOT").map path).getD root
    sourcePattern := present? (given "LOADER_SOURCES" "lib/psql/**/*.psql")
    policyPath := optional environment "LOADER_MANGLER"
    placeholdersFile := (optional environment "LOADER_PLACEHOLDERS").map path
    initScript := (optional environment "LOADER_INIT_SCRIPT").map path
    scratchDatabase := (optional environment "LOADER_SCRATCH_DB").map path
    volatile := flag environment "LOADER_SCRATCH_VOLATILE" }

/-- The settings that cannot be done without, by what they are and where they come from. -/
def missing (hasMetadata hasSources : Bool) : List String :=
  (if hasMetadata then [] else ["Metadata file (--metadata or LOADER_METADATA)"]) ++
    if hasSources then [] else ["Source pattern (--sources or LOADER_SOURCES)"]

/-- Mandatory settings that are missing. -/
structure Missing where
  names : List String
  deriving DecidableEq, Repr

def Missing.message (m : Missing) : String :=
  "Missing required configuration: " ++ ", ".intercalate m.names ++
    ". Please check your .env file."

instance : Cause Missing where
  message := Missing.message
  kind _ := .configuration

/-- Nothing if all mandatory settings are there, else what is missing. -/
def validate (hasMetadata hasSources : Bool) : Except Missing Unit :=
  match missing hasMetadata hasSources with
  | [] => .ok ()
  | names => .error ⟨names⟩

variable {σ : Type} [Host σ]

/-- The configured replacement values. -/
def replacementValues (s : Settings) (reader : EnvFile.Reader) (environment : Environment) :
    Task σ EnvFile.ReadFailure (OrderedMap Text Text) :=
  match s.placeholdersFile with
  | none => pure ∅
  | some path => EnvFile.readValues reader environment path.toString

/-- Makes the directory of the log files. -/
def makeDirectories (s : Settings) : Task σ AccessFailure Unit :=
  Task.withFiles fun files directory => files.makeDirectories directory s.logsDirectory

end Settings

end StoredRoutine
