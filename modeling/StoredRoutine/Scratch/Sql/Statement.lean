import StoredRoutine.Binary64
import StoredRoutine.Json.Basic
import StoredRoutine.Scratch.Sql.Token

/-!
The statements that the embedded database understands, and readers that make them from tokens.
-/
namespace StoredRoutine.Scratch.Sql

/-- A clause in the definition of a table. Those that speak of the values of a column come after
it. -/
inductive Clause where
  /-- A column with its declared type, which may be empty. -/
  | column (name type : Text)
  /-- There is always a value. -/
  | required
  /-- The value where none is given, as it is written. -/
  | standard (written : Text)
  /-- The order of texts. -/
  | collation (name : Text)
  /-- No two rows have the same values in some columns. -/
  | unique (columns : List Text)
  /-- Some columns tell the rows apart, perhaps in descending order; their values may be counted. -/
  | primary (columns : List Text) (descending counted : Bool)
  /-- The values of some columns refer to other rows, of which nothing is asked. -/
  | reference (columns : List Text)
  /-- A word after the closing parenthesis, as it is written. -/
  | option (written : Text)
  deriving DecidableEq, Repr

/-- A value that is inserted. -/
inductive Expression where
  | literal (v : Value)
  /-- A column, of which there are none where values are inserted. -/
  | column (name : Text)
  deriving DecidableEq, Repr

/-- How a statement speaks of a table. Names are known as they are written, with quotes if they have
them. -/
structure Target where
  /-- The part of the database that the table is said to be in. -/
  schema : Option Text
  name : Text
  /-- Another name for the table, without quotes. -/
  otherName : Option Text := none
  deriving DecidableEq, Repr

namespace Target

/-- The part of a database that holds the tables. -/
def main : Text := "main".toList

/-- The part that holds no tables, if a target is said to be in such a part. -/
def elsewhere? (t : Target) : Option Text := t.schema.filter fun s => !isSame (bare s) main

/-- The name of a target with its part, without quotes. -/
def fullName (t : Target) : Text :=
  ((t.schema.map fun s => bare s ++ ['.']).getD []) ++ bare t.name

/-- How messages call a table that there is. -/
def called (t : Target) : Text := t.otherName.getD t.fullName

end Target

inductive Statement where
  | nothing
  /-- A table may be made only if it is missing. -/
  | createTable (table : Target) (ifMissing : Bool) (clauses : List Clause)
  /-- Rows have values for all columns in order, or for some columns by their names. -/
  | insert (table : Target) (columns : Option (List Text)) (rows : List (List Expression))
  | selectAll (table : Target)
  /-- The heading is the expression as it is written, or a name for it. -/
  | countAll (heading : Text) (table : Target)
  | lastInsertId (heading : Text)
  | describe (table : Text)
  deriving DecidableEq, Repr

/-- Why a text is no statement. -/
inductive SyntaxFault where
  | unexpected (token : Text)
  | unrecognized (characters : Text)
  | incomplete
  deriving DecidableEq, Repr

def SyntaxFault.message : SyntaxFault → String
  | .unexpected token => s!"near \"{String.ofList token}\": syntax error"
  | .unrecognized characters => s!"unrecognized token: \"{String.ofList characters}\""
  | .incomplete => "incomplete input"

/-- Whether a whole number has 64 bits. -/
def fitsWord (n : Int) : Bool := -(Binary64.twoPow 63 : Int) ≤ n && n < Binary64.twoPow 63

/-!
Readers of tokens. A reader stops at the first token that does not fit.
-/

abbrev Reader (α : Type) := StateT (List Token) (Except SyntaxFault) α

namespace Reader

/-- The fault at the first of some tokens. -/
def faultAt : List Token → SyntaxFault
  | [] => .incomplete
  | t :: _ => if t.kind = .unknown then .unrecognized t.text else .unexpected t.text

def refuse {α : Type} : Reader α := fun ts => .error (faultAt ts)

/-- The next token, if it is of some sort. -/
def tokenIf? (accepts : Token → Bool) : Reader (Option Token) := fun ts =>
  match ts with
  | [] => .ok (none, [])
  | t :: rest => .ok (if accepts t then (some t, rest) else (none, t :: rest))

/-- The next token, which must be of some sort. -/
def token (accepts : Token → Bool) : Reader Token := do
  match ← tokenIf? accepts with
  | some t => return t
  | none => refuse

def sign (c : Char) : Reader Token := token (·.isSign c)

def word (w : String) : Reader Token := token (·.isWord w)

def name : Reader Text := return bare (← token Token.isName).text

def target : Reader Target := do
  let first ← token Token.isName
  if (← tokenIf? (·.isSign '.')).isNone then return { schema := none, name := first.text }
  return { schema := some first.text, name := (← token Token.isName).text }

/-- Another name for what comes before it, after `as` or alone. -/
def alias? : Reader (Option Text) := do
  if (← tokenIf? (·.isWord "as")).isSome then return some (← name)
  return (← tokenIf? Token.isTypeWord).map (bare ·.text)

/-- Nothing more than a semicolon. -/
def finish : Reader Unit := fun ts =>
  if ts.all (·.isSign ';') then .ok ((), ts) else .error (faultAt ts)

/-- A number that may have a sign. -/
def signedNumber : Reader Unit := do
  let _ ← tokenIf? fun t => t.isSign '+' || t.isSign '-'
  let _ ← token (·.kind = .number)

/-- Readings between parentheses, with commas between them. The first argument bounds their
number. -/
def commaSeparated {α : Type} (one : Reader α) : Nat → Reader (List α)
  | 0 => refuse
  | n + 1 => do
    let a ← one
    if (← tokenIf? (·.isSign ',')).isSome then return a :: (← commaSeparated one n)
    let _ ← sign ')'
    return [a]

/-- A list in parentheses, which is not empty. -/
def inParentheses {α : Type} (one : Reader α) : Reader (List α) := do
  let _ ← sign '('
  commaSeparated one (← get).length

end Reader

end StoredRoutine.Scratch.Sql
