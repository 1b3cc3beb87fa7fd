import StoredRoutine.FileTree.Basic
import StoredRoutine.Log.Record
import StoredRoutine.Log.Template
import StoredRoutine.OrderedMap

/-!
From a log record to the handlers that write it, and to the lines that they write.
-/
namespace StoredRoutine.Log

/-!
The text of a log record. A format shows the fields of a record; its time is its date format in
angle brackets. For a console the name of the level is colored and a symbol stands for it.
-/

structure Formatter where
  colored : Bool
  format : String
  dateFormat : Option String
  deriving DecidableEq, Repr

namespace Formatter

def escape : String := String.singleton (Char.ofNat 27)

/-- The color of a level, by its name. -/
def colors : List (String × String) :=
  [("DEBUG", "[36m"), ("INFO", "[32m"), ("WARNING", "[33m"), ("ERROR", "[31m"),
    ("CRITICAL", "[35m"), ("RESET", "[0m")].map fun (name, code) => (name, escape ++ code)

def resetColor : String := (colors.lookup "RESET").getD ""

/-- The symbol of a level, by its name. -/
def symbols : List (String × String) :=
  [("DEBUG", "🔍"), ("INFO", "ℹ️ "), ("WARNING", "⚠️ "), ("ERROR", "❌"), ("CRITICAL", "🔥")]

def symbol (levelName : String) : String := (symbols.lookup levelName).getD ""

/-- The name of a level in its color, if it has one. -/
def colorLevel (levelName : String) : String :=
  match colors.lookup levelName with
  | some color => color ++ levelName ++ resetColor
  | none => levelName

def time (f : Formatter) : String := "<" ++ f.dateFormat.getD "None" ++ ">"

/-- Fields that tell where a record comes from, which is not known. -/
def unknownOrigin : List (String × Json) :=
  [("lineno", .number 0)] ++
    ["filename", "module", "pathname"].map (fun name => (name, .string [])) ++
    ["args", "exc_info", "exc_text", "funcName", "stack_info"].map fun name => (name, .null)

/-- The fields of a record whose level is shown under a name. -/
def fields (f : Formatter) (r : Record) (levelName : String) : List (Text × Json) :=
  let shownLevel := if f.colored then colorLevel levelName else levelName
  let texts := [("name", r.logger), ("msg", r.message), ("message", r.message),
    ("levelname", shownLevel), ("asctime", f.time), ("threadName", "MainThread"),
    ("processName", "MainProcess")] ++ if f.colored then [("emoji", symbol levelName)] else []
  texts.map (fun (name, s) => (name.toList, Json.string s.toList)) ++
    ("levelno".toList, Json.number r.level) ::
      unknownOrigin.map fun (name, j) => (name.toList, j)

/-- The format that shows the message alone. -/
def messageOnly : Text := "%(message)s".toList

/-- The format in use: an empty one shows the message. -/
def template (f : Formatter) : Text :=
  if f.format.isEmpty then messageOnly else f.format.toList

/-- The text of a record whose level is shown under a name. -/
def textNamed (f : Formatter) (r : Record) (levelName : String) : Except Template.Fault String := do
  if !Template.isFormat f.template then
    throw (.noDirective f.template)
  return String.ofList (← Template.render f.template (f.fields r levelName))

def text (f : Formatter) (r : Record) : Except Template.Fault String := f.textNamed r r.level.name

def standardFormat : String := "%(asctime)s - %(name)s - %(levelname)s - %(message)s"

def standardDateFormat : String := "%Y-%m-%d %H:%M:%S"

/-- The formatter of log files, and of a console without colors. -/
def plain : Formatter := ⟨false, standardFormat, some standardDateFormat⟩

/-- The formatter of a console with colors. -/
def console : Formatter := ⟨true, "%(emoji)s " ++ standardFormat, some standardDateFormat⟩

end Formatter

/-!
Who receives which log records. Loggers have dotted names and come into being when they are first
asked for; each has a logger above it, in the end the root. A logger without a level of its own
takes that of the nearest one above it that has one; a handler takes the records from its own
level on.
-/

inductive Target where
  | console
  | file (place : Place)
  /-- A log file whose name was given to another file; nobody sees what it receives. -/
  | detached
  deriving DecidableEq, Repr

structure Handler where
  target : Target
  level : Level
  formatter : Formatter
  deriving DecidableEq, Repr

structure Logger where
  level : Level
  /-- The logger above, if that is not the root. -/
  parent : Option String
  deriving DecidableEq, Repr

def rootName : String := "root"

/-- The root goes by two names. -/
def isRoot (name : String) : Bool := name.isEmpty || name == rootName

def Logger.parentName (g : Logger) : String := g.parent.getD rootName

structure Logging where
  rootLevel : Level
  loggers : OrderedMap String Logger
  /-- Names without a logger, with the loggers that looked for one there. -/
  waiting : OrderedMap String (List String)
  handlers : List Handler
  deriving Repr

/-- The names above a dotted name, nearest first; the name is given from its end. The character
before a dot belongs to the name above it, also when it is a dot. -/
def namesAbove : Text → List String
  | [] => []
  | c :: t =>
    if c = '.' then
      match t with
      | [] => []
      | d :: t' => String.ofList (d :: t').reverse :: namesAbove t'
    else namesAbove t

namespace Logging

/-- Finds the logger above a new one; names without a logger remember the new one. -/
def findAbove (loggers : OrderedMap String Logger) (name : String) :
    List String → OrderedMap String (List String) →
      Option String × OrderedMap String (List String)
  | [], waiting => (none, waiting)
  | above :: more, waiting =>
    if loggers.contains above then (some above, waiting)
    else findAbove loggers name more
      (waiting.insert above ((waiting.get? above).getD [] ++ [name]))

/-- A waiting logger is put below a new one, unless the name above it starts like the new one. -/
def adopt (name : String) (loggers : OrderedMap String Logger) (child : String) :
    OrderedMap String Logger :=
  match loggers.get? child with
  | some g =>
    if name.toList.isPrefixOf g.parentName.toList then loggers
    else loggers.insert child { g with parent := some name }
  | none => loggers

/-- Makes a logger, unless there is one. -/
def withLogger (l : Logging) (name : String) : Logging :=
  if isRoot name || l.loggers.contains name then l
  else
    let (parent, waiting) :=
      findAbove l.loggers name (namesAbove name.toList.reverse) (l.waiting.erase name)
    let loggers := ((l.waiting.get? name).getD []).foldl (adopt name) l.loggers
    { l with loggers := loggers.insert name ⟨.notSet, parent⟩, waiting }

/-- Gives a logger a level of its own. -/
def setLevel (l : Logging) (name : String) (level : Level) : Logging :=
  if isRoot name then { l with rootLevel := level }
  else
    let l := l.withLogger name
    match l.loggers.get? name with
    | some g => { l with loggers := l.loggers.insert name { g with level } }
    | none => l

/-- Logging before anything is set up. -/
def initial : Logging := setLevel ⟨.warning, ∅, ∅, []⟩ "sqlalchemy" .warning

def ownLevel (l : Logging) (name : String) : Level :=
  if isRoot name then l.rootLevel else ((l.loggers.get? name).map (·.level)).getD .notSet

/-- The level of a logger or of the nearest one with a level above it, at most `fuel` loggers
up. -/
def levelFrom (l : Logging) : Nat → String → Level
  | 0, _ => l.rootLevel
  | fuel + 1, name =>
    match l.loggers.get? name with
    | none => l.rootLevel
    | some g =>
      if g.level ≠ .notSet then g.level
      else match g.parent with
        | none => l.rootLevel
        | some parent => l.levelFrom fuel parent

def effectiveLevel (l : Logging) (name : String) : Level :=
  let l := l.withLogger name
  if isRoot name then l.rootLevel else l.levelFrom l.loggers.size name

/-- Whether a logger lets records of a level pass. Levels up to zero never pass. -/
def isEnabled (l : Logging) (name : String) (level : Level) : Bool :=
  0 < level && l.effectiveLevel name ≤ level

/-- The line that a record gives, if its format has a text for it. -/
def Handler.line? (h : Handler) (r : Record) : Option (Target × String) :=
  match h.formatter.text r with
  | .ok text => some (h.target, text ++ "\n")
  | .error _ => none

/-- The lines that a record gives, each for the target of a handler. -/
def lines (l : Logging) (r : Record) : List (Target × String) :=
  if l.isEnabled r.logger r.level then
    (l.handlers.filter (·.level ≤ r.level)).filterMap (Handler.line? · r)
  else []

/-- Root and all handlers take records from a level on. -/
def setAllLevels (l : Logging) (level : Level) : Logging :=
  { l with rootLevel := level, handlers := l.handlers.map ({ · with level }) }

end Logging

end StoredRoutine.Log
