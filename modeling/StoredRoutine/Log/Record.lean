import StoredRoutine.Cause
import StoredRoutine.Json.Basic
import StoredRoutine.Text.CaseMapping

/-!
Log records, and what the program reports while it works: messages to the user, which can also be
written as log records, and log records proper.
-/
namespace StoredRoutine

/-!
What the program tells its user while it works, as structured messages; how a message is laid out
is decided where it is shown.
-/

inductive Diagnostic where
  | title (text : String)
  | note (text : String)
  | text (lines : List String)
  | listing (items : List String)
  | warningList (title : String) (items : List String)
  | errorList (title : String) (items : List String)
  deriving DecidableEq, Repr

/-!
Severity levels of log records: numbers, a few of which have names. A level may be asked for by a
value: by its number, or by its name.
-/

namespace Log

abbrev Level := Int

/-- A value that is asked for as a level is none. -/
inductive LevelFault where
  | unknownName (name : String)
  /-- Only text has an upper case. -/
  | notText (type : String)
  /-- A text, as messages show it, that is no name of a level. -/
  | unknownLevel (shown : String)
  /-- A value, as messages show it, that is neither a number nor a text. -/
  | unsuitable (shown : String)
  deriving DecidableEq, Repr

def LevelFault.message : LevelFault → String
  | .unknownName name => s!"module 'logging' has no attribute '{name}'"
  | .notText type => s!"'{type}' object has no attribute 'upper'"
  | .unknownLevel shown => "Unknown level: " ++ shown
  | .unsuitable shown => "Level not an integer or a valid string: " ++ shown

instance : Cause LevelFault where
  message := LevelFault.message
  kind
    | .unknownName _ | .notText _ => .member
    | .unknownLevel _ => .value
    | .unsuitable _ => .type

namespace Level

def notSet : Level := 0
def debug : Level := 10
def info : Level := 20
def warning : Level := 30
def error : Level := 40
def critical : Level := 50

def names : List (Level × String) :=
  [(notSet, "NOTSET"), (debug, "DEBUG"), (info, "INFO"), (warning, "WARNING"), (error, "ERROR"),
    (critical, "CRITICAL")]

/-- The name under which a level is shown. -/
def name (level : Level) : String := (names.lookup level).getD s!"Level {level}"

/-- Two levels that may be asked for by another name. -/
def otherNames : List (Level × String) := [(warning, "WARN"), (critical, "FATAL")]

/-- The level with a name in upper case. -/
def ofName? (s : String) : Option Level :=
  ((names ++ otherNames).find? (·.2 == s)).map Prod.fst

/-- The level that a value is. -/
def ofJson : Json → Except LevelFault Level
  | .scalar (.integer n) => .ok n
  | .scalar (.boolean b) => .ok (if b then 1 else 0)
  | .scalar (.text t) =>
    match ofName? (String.ofList t) with
    | some level => .ok level
    | none => .error (.unknownLevel (String.ofList (Text.quoted t)))
  | j => .error (.unsuitable (String.ofList j.inspected))

/-- The standard line of a style of formats. -/
def styleText (mark style line : String) : String :=
  s!"'{mark}': (<class 'logging.{style}'>, '{line}')"

/-- Names of settings that are no levels, and what asking for them as a level gives. -/
def otherSettings : List (String × LevelFault) :=
  let line := "%(levelname)s:%(name)s:%(message)s"
  let styles := ", ".intercalate [styleText "%" "PercentStyle" line,
    styleText "\x7b" "StrFormatStyle" "\x7blevelname\x7d:\x7bname\x7d:\x7bmessage\x7d",
    styleText "$" "StringTemplateStyle" "$\x7blevelname\x7d:$\x7bname\x7d:$\x7bmessage\x7d"]
  [("BASIC_FORMAT", .unknownLevel ("'" ++ line ++ "'")),
    ("_STYLES", .unsuitable ("\x7b" ++ styles ++ "\x7d"))]

/-- The level with a name in any case. -/
def named (s : String) : Except LevelFault Level :=
  let name := String.ofList (Text.upper s.toList)
  match ofName? name, otherSettings.lookup name with
  | some level, _ => .ok level
  | none, some fault => .error fault
  | none, none => .error (.unknownName name)

/-- The level that a value names. -/
def namedBy : Json → Except LevelFault Level
  | .scalar (.text t) => named (String.ofList t)
  | j => .error (.notText j.typeName)

@[simp] theorem name_debug : debug.name = "DEBUG" := by decide
@[simp] theorem ofName?_debug : ofName? "DEBUG" = some debug := by decide

end Level

structure Record where
  logger : String
  level : Level
  message : String
  deriving DecidableEq, Repr

end Log

inductive Report where
  | diagnostic (d : Diagnostic)
  | record (r : Log.Record)
  deriving DecidableEq, Repr

namespace Diagnostic

def item (s : String) : String := " * " ++ s

/-- A message as log lines, one a record: lists of warnings and of errors keep their severity. -/
def logLines : Diagnostic → List (Log.Level × String)
  | title t => [rule, t, rule].map (.info, ·)
  | note t => [(.info, t)]
  | text lines => lines.map (.info, ·)
  | listing items => items.map fun i => (.info, item i)
  | warningList t items => (t :: items.map item).map (.warning, ·)
  | errorList t items => (t :: items.map item).map (.error, ·)
where
  rule : String := "".pushn '=' 60

end Diagnostic

namespace Report

def debug (logger message : String) : Report := .record ⟨logger, .debug, message⟩
def info (logger message : String) : Report := .record ⟨logger, .info, message⟩

/-- The messages to the user among some reports. -/
def diagnostics (reports : List Report) : List Diagnostic :=
  reports.filterMap fun
    | .diagnostic d => some d
    | .record _ => none

end Report

end StoredRoutine
