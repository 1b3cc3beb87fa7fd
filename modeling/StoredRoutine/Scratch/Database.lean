import StoredRoutine.Literal
import StoredRoutine.Placeholder
import StoredRoutine.Scratch.Connection
import StoredRoutine.Script
import StoredRoutine.Task
import StoredRoutine.Text.CaseMapping
import StoredRoutine.Text.Word

/-!
Work on a scratch database over any connection. A statement that the database refuses undoes what
was not yet committed; a single statement, a query and a script each end with a commit.
-/
namespace StoredRoutine.Scratch

/-!
Identifiers in SQL statements. A name is put in double quotes if it could not be read back without
them: a reserved word, a name that is not all in lower case, or one with characters of other kinds.
-/

def reservedWords : List String := [
  "add", "after", "all", "alter", "analyze", "and", "as", "asc", "attach", "autoincrement",
  "before", "begin", "between", "by", "cascade", "case", "cast", "check", "collate", "column",
  "commit", "conflict", "constraint", "create", "cross", "current_date", "current_time",
  "current_timestamp", "database", "default", "deferrable", "deferred", "delete", "desc", "detach",
  "distinct", "drop", "each", "else", "end", "escape", "except", "exclusive", "exists", "explain",
  "fail", "false", "for", "foreign", "from", "full", "glob", "group", "having", "if", "ignore",
  "immediate", "in", "index", "indexed", "initially", "inner", "insert", "instead", "intersect",
  "into", "is", "isnull", "join", "key", "left", "like", "limit", "match", "natural", "not",
  "notnull", "null", "of", "offset", "on", "or", "order", "outer", "plan", "pragma", "primary",
  "query", "raise", "references", "reindex", "rename", "replace", "restrict", "right", "rollback",
  "row", "select", "set", "table", "temp", "temporary", "then", "to", "transaction", "trigger",
  "true", "union", "unique", "update", "using", "vacuum", "values", "view", "virtual", "when",
  "where"]

/-- A character that an identifier may have without quotes, whatever its case. -/
def isPlain (c : Char) : Bool := isNamePart (caseless c) || c == '$'

/-- Whether a name has plain characters only; one line feed at its end does not count. -/
def allPlain (name : Text) : Bool :=
  let body := if name.getLast? = some '\n' then name.dropLast else name
  !body.isEmpty && body.all isPlain

def needsQuotes (name : Text) : Bool :=
  reservedWords.any (·.toList == name.lower) || !allPlain name ||
    name.head?.any (fun c => isAsciiDigit c || c == '$') || name.lower != name

def quoteIdentifier (name : Text) : Text :=
  if needsQuotes name then '"' :: name.double '"' ++ ['"'] else name

/-!
Why work on a scratch database fails.
-/

/-- A statement that the database refused. -/
structure StatementFailure where
  /-- What the database said. -/
  text : String
  statement : Text
  /-- The line of the statement in its script, if it comes from one. -/
  line : Option Int
  deriving DecidableEq, Repr

/-- What the user reads about a statement, with its line as it is shown. -/
def statementMessage (text : String) : Option String → String
  | none => text
  | some line => s!"{text}, at line {line}."

def StatementFailure.message (f : StatementFailure) : String :=
  statementMessage f.text (f.line.map toString)

/-- A query that selected another number of rows than it may. -/
structure CountFailure where
  expected : List Int
  actual : Int
  query : Text
  deriving DecidableEq, Repr

/-- What the user reads about a query, with numbers as they are shown. -/
def countMessage (expected : List String) (actual : String) : String :=
  let expected := " or ".intercalate expected
  s!"Wrong number of rows selected. Expected: {expected}. Actual: {actual}."

def CountFailure.message (f : CountFailure) : String :=
  countMessage (f.expected.map toString) (toString f.actual)

inductive Failure where
  | closed
  /-- What the database said was no answer to a statement. -/
  | raised (fault : Raised)
  | statement (failure : StatementFailure)
  | count (failure : CountFailure)
  /-- A row without columns was asked for its first value. -/
  | noColumn
  | missingColumn (name : String)
  | notInteger (fault : Literal.Fault)
  deriving DecidableEq, Repr

def Failure.message : Failure → String
  | .closed => "Scratch database is closed"
  | .raised fault => fault.message
  | .statement failure => failure.message
  | .count failure => failure.message
  | .noColumn => ""
  | .missingColumn name => quotedString name
  | .notInteger fault => fault.message

def StatementFailure.details (f : StatementFailure) : List (String × Json) :=
  [("statement", .string f.statement), ("line", (f.line.map Json.number).getD .null)]

def CountFailure.details (f : CountFailure) : List (String × Json) :=
  [("expected", .array (f.expected.map .number)), ("actual", .number f.actual),
    ("query", .string f.query)]

instance : Cause Failure where
  message := Failure.message
  kind
    | .closed => .state
    | .raised fault => fault.kind
    | .statement _ => .statement
    | .count _ => .count
    | .noColumn => .exhausted
    | .missingColumn _ => .key
    | .notInteger fault => Cause.kind fault
  details
    | .statement f => f.details
    | .count f => f.details
    | _ => []

structure Database (κ : Type) where
  connection : κ
  isOpen : Bool
  deriving Repr

namespace Database

variable {κ : Type} [Connection κ]

abbrev Work (κ α : Type) := Task (Database κ) Failure α

/-- Work on the connection of an open database. -/
def onConnection {α : Type} (f : κ → Except Failure α × κ) : Work κ α := fun db =>
  if db.isOpen then
    let (answer, connection) := f db.connection
    (answer, { db with connection })
  else (.error .closed, db)

/-- The end of a statement that the database refused: what was not committed is undone. -/
def refuse (failure : StatementFailure) (c : κ) : Except Failure (List Row) × κ :=
  match Connection.rollback c with
  | (.ok (), c) => (.error (.statement failure), c)
  | (.error fault, c) => (.error (.raised fault), c)

/-- Executes a statement, undoing what was not committed if the database refuses it. -/
def send (statement : Text) : Work κ (List Row) := onConnection fun c =>
  match Connection.execute statement c with
  | (.ok rows, c) => (.ok rows, c)
  | (.error (.refused text), c) => refuse ⟨text, statement.trim, none⟩ c
  | (.error (.raised fault), c) => (.error (.raised fault), c)

def commit : Work κ Unit := onConnection fun c =>
  let (answer, c) := Connection.commit c
  (answer.mapError .raised, c)

/-- Executes a statement whose rows are of no interest. -/
def execute (statement : Text) : Work κ Unit := do
  let _ ← send statement
  commit

/-- A statement of a script, whose failure tells the line it starts on. -/
def sendFrom (statement : Script.Statement) : Work κ (List Row) :=
  Task.mapError (fun
    | .statement f => .statement ⟨f.message, statement.text, some statement.line⟩
    | f => f) (send statement.text)

def sendEach : List Script.Statement → Work κ Unit
  | [] => pure ()
  | s :: ss => do
    let _ ← sendFrom s
    sendEach ss

/-- Executes the statements of a script up to the first that fails, and tells how many. -/
def executeScript (script : Text) : Work κ Nat := do
  let statements := Script.statements script
  sendEach statements
  commit
  return statements.length

def rows (query : Text) : Work κ (List Row) := do
  let rows ← send query
  commit
  return rows

/-- The row of a query that may select none. -/
def row? (query : Text) : Work κ (Option Row) := do
  match ← rows query with
  | [] => return none
  | [row] => return some row
  | rows => throw (.count ⟨[0, 1], rows.length, query⟩)

/-- The row of a query that selects exactly one. -/
def row (query : Text) : Work κ Row := do
  match ← rows query with
  | [row] => return row
  | rows => throw (.count ⟨[1], rows.length, query⟩)

def firstValue (row : Row) : Except Failure Value :=
  match row.entries with
  | [] => .error .noColumn
  | (_, v) :: _ => .ok v

/-- The first value of the row of a query that may select none. -/
def value? (query : Text) : Work κ (Option Value) := do
  match ← row? query with
  | none => return none
  | some row => return some (← Task.ofExcept (firstValue row))

def value (query : Text) : Work κ Value := do
  Task.ofExcept (firstValue (← row query))

def lastInsertId : Work κ Int := do
  let v ← value "select last_insert_rowid()".toList
  Task.ofExcept ((Literal.toInteger v).mapError .notInteger)

/-- The names of all tables in ascending order. -/
def tables : Work κ (List Text) :=
  onConnection fun c =>
    let (answer, c) := Connection.tables c
    ((answer.map Text.sort).mapError .raised, c)

structure Column where
  name : Value
  type : Value
  deriving DecidableEq, Repr

def column (row : Row) (name : String) : Except Failure Value :=
  match row.get? name.toList with
  | some v => .ok v
  | none => .error (.missingColumn name)

/-- The columns of a table with their declared types. -/
def columns (table : Text) : Work κ (List Column) := do
  let described ← rows ("pragma table_info(".toList ++ quoteIdentifier table ++ [')'])
  Task.ofExcept (described.mapM fun row => do
    return ⟨← column row "name", ← column row "type"⟩)

/-- All tables with their columns; a column name that is no text is put as messages show it. -/
def catalog : Work κ (Catalog Value) := do
  (← tables).mapM fun table => do
    return (table, (← columns table).map fun c => (c.name.shown, c.type))

/-- Closes a database; one that is closed stays as it is. -/
def close (db : Database κ) : Database κ :=
  if db.isOpen then ⟨Connection.close db.connection, false⟩ else db

end Database

end StoredRoutine.Scratch
