import StoredRoutine.FileTree.Access
import StoredRoutine.Log.Logging
import StoredRoutine.Task
import StoredRoutine.Text.CaseMapping

/-!
Setting up logging: levels by name, a console handler, and a log file in a directory that is made
if it is missing. Steps that were done before a failure stay done.
-/
namespace StoredRoutine.Log

/-- A state in which logging is set up. -/
class Logs (σ : Type) where
  logging : σ → Logging
  setLogging : Logging → σ → σ

/-- Why a value is no path. -/
inductive PathFault where
  | notPath (type : String)
  | binary
  /-- Nothing but a text can be put after the path of a directory. -/
  | notName (type : String)
  deriving DecidableEq, Repr

def PathFault.message : PathFault → String
  | .notPath type => s!"expected str, bytes or os.PathLike object, not {type}"
  | .binary =>
    "argument should be a str object or an os.PathLike object returning str, not <class 'bytes'>"
  | .notName type => s!"unsupported operand type(s) for /: 'PosixPath' and '{type}'"

inductive SetupFailure where
  | level (failure : LevelFault)
  | path (fault : PathFault)
  | access (failure : AccessFailure)
  deriving DecidableEq, Repr

def SetupFailure.message : SetupFailure → String
  | .level failure => failure.message
  | .path fault => fault.message
  | .access failure => failure.message

instance : Cause SetupFailure where
  message := SetupFailure.message
  kind
    | .level failure => Cause.kind failure
    | .path _ => .type
    | .access failure => failure.kind

/-- How logging shall be set up. The options may be any values; levels should be names, and file and
directory texts. -/
structure Options where
  level : Json := .string "INFO".toList
  /-- The name of a log file; there is no log file if it is nothing. -/
  file : Json := .null
  /-- The directory of the log file; a standard one if it is nothing. -/
  directory : Json := .null
  console : Bool := true
  colors : Bool := true
  libraryLevel : Json := .string "WARNING".toList

/-- The loggers of libraries, which have a level of their own. -/
def libraryLoggers : List String := ["sqlalchemy"]

/-- Opens a file for appending, making it if it is missing. -/
def openLog (files : FileTree) (directory : Place) (path : Path) :
    FileTree × Except AccessFailure Place :=
  let shown := path.absolute directory
  let path := path.resolve directory
  let fail (e : OsError) := (files, Except.error (.os ⟨e, shown.toString, none⟩))
  if path.toString.contains '\x00' then (files, .error .nulByte)
  else match files.walk [] path.parts.dropLast with
    | .error e => fail e
    | .ok above =>
      match files.get? above, files.get? path.parts with
      | some .directory, none =>
        if FileTree.isTooLong path.name then fail .nameTooLong
        else (files.put path.parts (.file []), .ok path.parts)
      | some .directory, some (.file _) => (files, .ok path.parts)
      | some .directory, some .directory => fail .isDirectory
      | _, _ => fail .notDirectory

/-- The directory of the log file. -/
def Options.directoryPath (o : Options) : Except PathFault Path :=
  if o.directory.isNothing then .ok (.ofString "logs")
  else match o.directory with
    | .scalar (.text t) => .ok (.ofString (String.ofList t))
    | .scalar (.binary _) => .error .binary
    | j => .error (.notPath j.typeName)

/-- The path of the log file in its directory. -/
def Options.pathIn (o : Options) (directory : Path) : Except PathFault Path :=
  match o.file with
  | .scalar (.text t) => .ok (directory.join (.ofString (String.ofList t)))
  | j => .error (.notName j.typeName)

variable {σ : Type} [Host σ] [Logs σ] {ε : Type}

def change (f : Logging → Logging) : Task σ ε Unit :=
  Task.change fun s => Logs.setLogging (f (Logs.logging s)) s

def addHandler (h : Handler) : Task σ ε Unit :=
  change fun l => { l with handlers := l.handlers ++ [h] }

def addFileHandler (o : Options) (level : Level) : Task σ SetupFailure Unit := do
  let directory ← Task.ofExcept (o.directoryPath.mapError .path)
  Task.mapError .access (Task.withFiles fun files here => files.makeDirectories here directory)
  let path ← Task.ofExcept ((o.pathIn directory).mapError .path)
  let place ← Task.mapError .access (Task.withFiles fun files here => openLog files here path)
  addHandler ⟨.file place, level, .plain⟩

def setup (o : Options) : Task σ SetupFailure Unit := do
  let level ← Task.ofExcept ((Level.namedBy o.level).mapError .level)
  change fun l => { l with rootLevel := level, handlers := [] }
  if o.console then
    addHandler ⟨.console, level, if o.colors then .console else .plain⟩
  if !o.file.isNothing then
    addFileHandler o level
  let libraryLevel ← Task.ofExcept ((Level.namedBy o.libraryLevel).mapError .level)
  change fun l => libraryLoggers.foldl (·.setLevel · libraryLevel) l

/-- Sets up logging as at the start of the program, unless there is a handler already. -/
def setupIfNeeded : Task σ SetupFailure Unit := do
  if (← Task.look fun s : σ => (Logs.logging s).handlers.isEmpty) then
    setup {}

/-- A logger as it is shown: name, own level, effective level. -/
def describe (l : Logging) (name : String) : String × Level × Level :=
  (if isRoot name then rootName else name, l.ownLevel name, l.effectiveLevel name)

/-- Asks for a logger, and gives it a level if one is wanted. -/
def configure (name : String) (level : Option Json) : Task σ LevelFault Unit := do
  change fun l => l.withLogger name
  match level with
  | none => pure ()
  | some level =>
    let level ← Task.ofExcept (Level.namedBy level)
    change fun l => l.setLevel name level

end StoredRoutine.Log
