import StoredRoutine.Encoding
import StoredRoutine.Log.Setup

/-!
A state for work whose reports are logged at once: what a record gives goes to the console and to
log files, which are files of the tree like any other.
-/
namespace StoredRoutine

structure Session where
  files : FileTree
  directory : Place
  logging : Log.Logging
  /-- What has been written to the console. -/
  console : String

namespace Session

/-- A text written to the end of a file. -/
def append (files : FileTree) (place : Place) (text : String) : FileTree :=
  match files.get? place with
  | some (.file content) => files.put place (.file (content ++ Utf8.encode text.toList))
  | _ => files

def write (s : Session) : Log.Target × String → Session
  | (.console, text) => { s with console := s.console ++ text }
  | (.file place, text) => { s with files := append s.files place text }
  | (.detached, _) => s

def log (s : Session) (r : Log.Record) : Session :=
  (s.logging.lines r).foldl write { s with logging := s.logging.withLogger r.logger }

def sinkLog : String := "logs.diagnostics"

/-- The records that a report gives. -/
def records : Report → List Log.Record
  | .record r => [r]
  | .diagnostic d => d.logLines.map fun (level, line) => ⟨sinkLog, level, line⟩

def report (s : Session) (r : Report) : Session := (records r).foldl log s

/-- A handler loses its file when another file takes that place. -/
def keepTarget (old new : FileTree) (h : Log.Handler) : Log.Handler :=
  match h.target with
  | .file place => if old.get? place = new.get? place then h else { h with target := .detached }
  | _ => h

def setFiles (s : Session) (files : FileTree) : Session :=
  { s with
    files
    logging := { s.logging with handlers := s.logging.handlers.map (keepTarget s.files files) } }

instance : Host Session where
  files := Session.files
  setFiles files s := s.setFiles files
  directory := Session.directory
  report r s := s.report r

instance : Log.Logs Session where
  logging := Session.logging
  setLogging logging s := { s with logging }

end Session

end StoredRoutine
