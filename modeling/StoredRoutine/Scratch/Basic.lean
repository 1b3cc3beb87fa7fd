import StoredRoutine.FileTree.Access
import StoredRoutine.Scratch.Database
import StoredRoutine.Text.Basic

/-!
The life of a scratch database: it is kept in memory or in a file, it may be seeded by a script
when it is new, and a volatile one takes its file along when it is closed. All of this is the same
whatever engine makes the connections.
-/
namespace StoredRoutine

structure Scratch (η : Type) where
  database : Scratch.Database η
  /-- Where a database lies that was opened by a path. -/
  path : Option Path
  volatile : Bool

namespace Scratch

/-- A state in which an engine works: it sees what each call leaves, which is a connection, unless
there is none, and the files. -/
class Site (σ η : Type) where
  attend : Option η → FileTree → σ → σ

instance (η : Type) : Site Workspace η where
  attend _ files w := { w with files }

inductive OpenFailure where
  | emptyPath
  | access (failure : AccessFailure)
  /-- There is no connection. -/
  | raised (fault : Raised)
  | seeding (failure : Failure)
  deriving DecidableEq, Repr

def OpenFailure.message : OpenFailure → String
  | .emptyPath => "Expecting a non empty path."
  | .access failure => failure.message
  | .raised fault => fault.message
  | .seeding failure => failure.message

instance : Cause OpenFailure where
  message := OpenFailure.message
  kind
    | .emptyPath => .value
    | .access failure => failure.kind
    | .raised fault => fault.kind
    | .seeding failure => Cause.kind failure
  details
    | .seeding failure => Cause.details failure
    | _ => []

def databaseLog : String := "utils.database_utils"

variable {σ η : Type} [Host σ] [Engine η] [Site σ η] {ε : Type}

def attend (live : Live η) : Task σ ε Unit :=
  Task.change (Site.attend (some live.handle) live.files)

/-- Lets the state see what calls leave, one after the other. -/
def attendAll : List (Live η) → Task σ ε Unit
  | [] => pure ()
  | live :: lives => do
    attend live
    attendAll lives

/-- Work on a scratch database, call by call. -/
def perform {α : Type} (work : Database.Work (Filmed (Live η)) α) (scratch : Scratch η) :
    Task σ ε (Except Failure α × Scratch η) := do
  let live : Live η := ⟨scratch.database.connection, ← Task.files⟩
  let (answer, db) := work ⟨.begin live, scratch.database.isOpen⟩
  attendAll db.connection.frames
  return (answer, { scratch with database := ⟨db.connection.now.handle, db.isOpen⟩ })

/-- Removes the file of a volatile database, unless it is gone. -/
def removeFile (scratch : Scratch η) : Task σ AccessFailure Unit := do
  match scratch.path with
  | none => pure ()
  | some path =>
    if scratch.volatile then
      match (← Task.files).get? path.parts with
      | none => pure ()
      | some .directory => throw (.os ⟨.isDirectory, path.toString, none⟩)
      | some (.file _) =>
        Task.withFiles fun files _ => (files.remove path.parts, .ok ())
        Task.report (.debug databaseLog s!"Removed volatile scratch database {path}")

/-- Closes a scratch database, unless it is closed already; the file of a volatile one is removed. -/
def close (scratch : Scratch η) : Task σ AccessFailure Unit := do
  if scratch.database.isOpen then
    attend (Connection.close (⟨scratch.database.connection, ← Task.files⟩ : Live η))
    scratch.removeFile

/-- A scratch database that was closed. -/
def closed (scratch : Scratch η) : Scratch η :=
  { scratch with database.isOpen := false }

/-- The text of a script, with all its line breaks as line feeds. -/
def readScript (path : String) : Task σ AccessFailure Text := do
  let files ← Task.files
  let text ← Task.ofExcept (files.readUtf8 (← Task.directory) (Path.ofString path).toString)
  return text.unifyBreaks

/-- An attempt to open a database that was given up: why, and the database as it is left, if one was
connected. -/
structure Abandoned (η : Type) where
  failure : OpenFailure
  left : Option (Scratch η)

/-- Runs the script that seeds a new database. If the database refuses a statement, it is closed; if
the script cannot be read, or anything else goes wrong, the database is left open. -/
def seed (path : String) (scratch : Scratch η) : Task σ (Abandoned η) (Scratch η) := do
  let script ← Task.mapError (fun f => ⟨.access f, some scratch⟩) (readScript path)
  match ← scratch.perform (Database.executeScript script) with
  | (.ok count, scratch) =>
    Task.report (.debug databaseLog s!"Executed {count} statement(s) against scratch database")
    return scratch
  | (.error (.statement failure), scratch) =>
    Task.mapError (fun f => ⟨.access f, some scratch.closed⟩) scratch.close
    throw ⟨.seeding (.statement failure), some scratch.closed⟩
  | (.error failure, scratch) => throw ⟨.seeding failure, some scratch⟩

def seedIfAny (script : Option String) (scratch : Scratch η) :
    Task σ (Abandoned η) (Scratch η) :=
  match script with
  | some path => scratch.seed path
  | none => pure scratch

/-- A connection to the database of a path, or to a new one in memory. -/
def connect (path : Option Path) : Task σ OpenFailure η := fun s =>
  let (answer, files) := Engine.connect path (Host.directory s) (Host.files s)
  (answer.mapError .raised, Site.attend answer.toOption files s)

/-- Connects to the database of a file, and tells whether that file is new. A volatile database
always starts with a new file. -/
def connectFile (path : String) (volatile : Bool) : Task σ OpenFailure (Scratch η × Bool) := do
  let path := Path.ofString path
  let there ← Task.ofExcept
    (((← Task.files).hasFile (← Task.directory) path.toString).mapError (.access ∘ .os))
  if volatile && there then
    let place := path.resolve (← Task.directory)
    Task.withFiles fun files _ => (files.remove place.parts, .ok ())
  let connection ← connect (some path)
  let place := path.resolve (← Task.directory)
  Task.report (.debug databaseLog s!"Opened scratch database {place}")
  return (⟨⟨connection, true⟩, some place, volatile⟩, volatile || !there)

/-- Opens the database of a file, which is seeded only if the file is new. -/
def openFile (path : String) (script : Option String) (volatile : Bool) :
    Task σ (Abandoned η) (Scratch η) := do
  let (scratch, isNew) ← Task.mapError (⟨·, none⟩) (connectFile path volatile)
  if isNew then scratch.seedIfAny script else return scratch

/-- Opens a database in memory, which is always new. -/
def openMemory (script : Option String) : Task σ (Abandoned η) (Scratch η) := do
  let connection ← Task.mapError (⟨·, none⟩) (connect none)
  Task.report (.debug databaseLog "Opened in-memory scratch database")
  seedIfAny script ⟨⟨connection, true⟩, none, true⟩

/-- An attempt to open a scratch database, in memory if no path is given. -/
def attemptAt (path script : Option String) (volatile : Bool) :
    Task σ (Abandoned η) (Scratch η) :=
  match path with
  | none => openMemory script
  | some path => if path.isEmpty then throw ⟨.emptyPath, none⟩ else openFile path script volatile

/-- Opens a scratch database, in memory if no path is given. -/
def openAt (path script : Option String) (volatile : Bool) : Task σ OpenFailure (Scratch η) :=
  Task.mapError (·.failure) (attemptAt path script volatile)

end Scratch

end StoredRoutine
