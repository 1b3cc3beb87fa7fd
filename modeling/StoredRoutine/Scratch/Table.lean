import StoredRoutine.Decimal
import StoredRoutine.Json.Basic
import StoredRoutine.Scratch.Connection
import StoredRoutine.Scratch.Sql.Reading
import StoredRoutine.Scratch.Sql.Statement

/-!
The tables of an embedded database with their rows. A table is made from the clauses of its
definition, and takes a row only if the row keeps its rules.
-/
namespace StoredRoutine.Scratch

/-!
The form of values that a column prefers, which follows from its declared type: a number in a text
column becomes its text, and a text that writes a number becomes that number in a numeric column.
-/

inductive Affinity where
  | integer
  | text
  | asIs
  | real
  | numeric
  deriving DecidableEq, Repr

namespace Affinity

/-- Whether a word occurs in a text. -/
def occurs (word : Text) : Text → Bool
  | [] => word.isEmpty
  | c :: t => (Text.after? word (c :: t)).isSome || occurs word t

/-- The affinity of a declared type, by the words that occur in it. -/
def ofType (type : Text) : Affinity :=
  let mentions (words : List String) := words.any fun w => occurs w.toList (Sql.fold type)
  if mentions ["int"] then integer
  else if mentions ["char", "clob", "text"] then text
  else if type.isEmpty || mentions ["blob"] then asIs
  else if mentions ["real", "floa", "doub"] then real
  else numeric

/-- A character of a written number, or a blank around it. -/
def isNumeral (c : Char) : Bool :=
  isAsciiDigit c || c == '+' || c == '-' || c == '.' || c == 'e' || c == 'E' ||
    (9 ≤ c.toNat && c.toNat ≤ 13) || c == ' '

/-- A number, as a whole number if it is one whose next neighbours have 64 bits too. -/
def settled (x : Binary64) : Value :=
  match x with
  | .finite negative m e =>
    let n := Binary64.truncate negative m e
    let whole := m = 0 || Binary64.ofInt? n = some x
    if whole && n.natAbs < Binary64.twoPow 63 then .integer n else .real x
  | x => .real x

/-- The number that a text writes, if it writes one. -/
def number? (t : Text) : Option Value :=
  if t.all isNumeral then
    match (Decimal.integer? t).filter Sql.fitsWord with
    | some n => some (.integer n)
    | none => (Decimal.float? t).map settled
  else none

/-- A number as a floating point number. -/
def widened : Value → Value
  | .integer n => ((Binary64.ofInt? n).map .real).getD (.integer n)
  | v => v

/-- How a floating point number is put into a text column. -/
def realText : Binary64 → Text
  | .nan => []
  | .infinite negative => (if negative then "-Inf" else "Inf").toList
  | .finite negative m e =>
    let (num, den) := Binary64.scale m 1 (-e)
    let t := Decimal.generalText ⟨false, true⟩ 15 num den
    if negative && m ≠ 0 then '-' :: t else t

def apply (a : Affinity) (v : Value) : Value :=
  match a, v with
  | text, .integer n => .text (toString n).toList
  | text, .real x => .text (realText x)
  | integer, .text t | numeric, .text t => (number? t).getD v
  | integer, .real x | numeric, .real x => settled x
  | real, .text t => ((number? t).map widened).getD v
  | real, .integer n => widened (.integer n)
  | real, .real x => widened (settled x)
  | _, v => v

end Affinity

/-!
Why the embedded database refuses a text.
-/

inductive Refusal where
  | nullCharacter
  | unreadable (fault : Sql.SyntaxFault)
  /-- The file does not hold a database. -/
  | noDatabase
  /-- The part of the database is known as it is written. -/
  | noSchema (written : Text)
  | reservedName (name : Text)
  /-- The table is known as it is written. -/
  | tableExists (written : Text)
  | columnExists (name : Text)
  | noTable (name : Text)
  | noColumn (name : Text)
  /-- A column that refers to rows is none of the table. -/
  | noOwnColumn (name : Text)
  | noCollation (name : Text)
  | primaryExists (table : Text)
  /-- Values are counted only where they are ids of rows. -/
  | uncountable
  /-- The option is known as it is written. -/
  | unknownOption (written : Text)
  /-- An id of a row is no whole number. -/
  | mismatch
  /-- A column by its full name has no value. -/
  | missingValue (column : List Text)
  /-- Some columns by their full names have the values of another row. -/
  | repeatedValue (columns : List Text)
  /-- Inserted rows have more values or fewer than others. -/
  | widths
  /-- An insertion names a column that there is not. -/
  | noNamedColumn (table column : Text)
  /-- An insertion has more values or fewer than it names columns. -/
  | namedCount (columns values : Nat)
  | valueCount (table : Text) (columns values : Nat)
  /-- Something follows the statement. -/
  | furtherText
  /-- The file has lost its name, so that nobody would find what is written to it. -/
  | namelessFile
  /-- An empty file has lost its name, and no other file has it. -/
  | noFile
  deriving DecidableEq, Repr

/-- Names with commas between them. -/
def listed (names : List Text) : String := ", ".intercalate (names.map String.ofList)

def Refusal.message : Refusal → String
  | .nullCharacter => "the query contains a null character"
  | .unreadable fault => fault.message
  | .noDatabase => "file is not a database"
  | .noSchema written => s!"unknown database {String.ofList written}"
  | .reservedName name => s!"object name reserved for internal use: {String.ofList name}"
  | .tableExists written => s!"table {String.ofList written} already exists"
  | .columnExists name => s!"duplicate column name: {String.ofList name}"
  | .noTable name => s!"no such table: {String.ofList name}"
  | .noColumn name => s!"no such column: {String.ofList name}"
  | .noOwnColumn name => s!"unknown column \"{String.ofList name}\" in foreign key definition"
  | .noCollation name => s!"no such collation sequence: {String.ofList name}"
  | .primaryExists table =>
    s!"table \"{String.ofList table}\" has more than one primary key"
  | .uncountable => "AUTOINCREMENT is only allowed on an INTEGER PRIMARY KEY"
  | .unknownOption written => s!"unknown table option: {String.ofList written}"
  | .mismatch => "datatype mismatch"
  | .missingValue column => s!"NOT NULL constraint failed: {listed column}"
  | .repeatedValue columns => s!"UNIQUE constraint failed: {listed columns}"
  | .widths => "all VALUES must have the same number of terms"
  | .noNamedColumn table column =>
    s!"table {String.ofList table} has no column named {String.ofList column}"
  | .namedCount columns values => s!"{values} values for {columns} columns"
  | .valueCount table columns values =>
    s!"table {String.ofList table} has {columns} columns but {values} values were supplied"
  | .furtherText => "You can only execute one statement at a time."
  | .namelessFile => "attempt to write a readonly database"
  | .noFile => "disk I/O error"

open Sql (Clause isSame)

/-- Which texts are the same where no value may stand twice. -/
inductive Collation where
  | binary
  /-- ASCII letters count in either case. -/
  | caseless
  /-- Spaces at the end do not count. -/
  | trimmed
  deriving DecidableEq, Repr

namespace Collation

def all : List Collation := [binary, caseless, trimmed]

def name : Collation → String
  | binary => "BINARY"
  | caseless => "NOCASE"
  | trimmed => "RTRIM"

def ofName? (name : Text) : Option Collation := all.find? fun c => isSame c.name.toList name

/-- What counts of a text. -/
def key : Collation → Text → Text
  | binary, t => t
  | caseless, t => Sql.fold t
  | trimmed, t => (t.reverse.dropWhile (· = ' ')).reverse

/-- Whether two values are the same. Numbers are by their size, and nothing is the same as a null. -/
def isSame (c : Collation) : Value → Value → Bool
  | .null, _ => false
  | .text a, .text b => c.key a = c.key b
  | a, b => whole a = whole b
where
  whole : Value → Value
    | .real x => Affinity.settled x
    | v => v

end Collation

structure Column where
  name : Text
  /-- The declared type, which may be empty. -/
  type : Text
  /-- Whether there is always a value. -/
  required : Bool := false
  /-- The value where none is given, as it is written. -/
  standard : Option Text := none
  collation : Collation := .binary
  /-- Its number among the columns that tell the rows apart, which counts from one. -/
  primary : Nat := 0
  deriving DecidableEq, Repr

structure Table where
  name : Text
  columns : List Column
  /-- The columns whose values no two rows share, the last rule first. -/
  distinct : List (List Nat)
  /-- The column of the ids of the rows, if there is one. -/
  key : Option Nat
  /-- The rows in the order of their ids, which count from one if no column has them. -/
  rows : List (List Value)
  deriving DecidableEq, Repr

namespace Table

/-- Where a column stands. -/
def index (t : Table) (name : Text) : Except Refusal Nat :=
  match t.columns.findIdx? (isSame name ·.name) with
  | some i => .ok i
  | none => .error (.noColumn name)

/-- Where columns stand that an insertion names. -/
def places (t : Table) (called : Text) (names : List Text) : Except Refusal (List Nat) :=
  names.mapM fun name => (t.index name).mapError fun _ => .noNamedColumn called name

/-- Values for some columns as a row; the other columns have the values that stand where none is
given. -/
def spread (t : Table) (places : List Nat) (values : List Value) : List Value :=
  t.columns.mapIdx fun i c =>
    match (places.zip values).find? (·.1 = i), c.standard with
    | some (_, v), _ => v
    | none, some written => Sql.Reader.standardValue written
    | none, none => .null

/-- The table with its last column changed. -/
def withLast (t : Table) (change : Column → Column) : Table :=
  { t with columns := t.columns.modify (t.columns.length - 1) change }

/-- The columns of which some, by their places, are told to be primary. -/
def numbered (columns : List Column) (places : List Nat) : List Column :=
  columns.mapIdx fun i c => { c with primary := ((places.idxOf? i).map (· + 1)).getD 0 }

/-- Whether the values of a column are ids of rows if it is primary. -/
def holdsIds (c : Column) : Bool := isSame c.type "INTEGER".toList

/-- The table with one more clause. -/
def add (t : Table) : Clause → Except Refusal Table
  | .column name type =>
    if t.columns.any (isSame name ·.name) then .error (.columnExists name)
    else .ok { t with columns := t.columns ++ [⟨name, type, false, none, .binary, 0⟩] }
  | .required => .ok (t.withLast ({ · with required := true }))
  | .standard written => .ok (t.withLast ({ · with standard := some written }))
  | .collation name =>
    match Collation.ofName? name with
    | some collation => .ok (t.withLast ({ · with collation }))
    | none => .error (.noCollation name)
  | .unique names => do return { t with distinct := (← names.mapM t.index) :: t.distinct }
  | .primary names descending counted => do
    if t.columns.any (·.primary ≠ 0) then throw (.primaryExists t.name)
    let places ← names.mapM t.index
    let t := { t with columns := numbered t.columns places }
    match places with
    | [i] =>
      if t.columns[i]?.any holdsIds && !descending then return { t with key := some i }
      else if counted then throw .uncountable
      else return { t with distinct := [i] :: t.distinct }
    | _ => return { t with distinct := places :: t.distinct }
  | .reference names => do
    let _ ← names.mapM fun name => (t.index name).mapError fun _ => .noOwnColumn name
    return t
  | .option written => .error (.unknownOption written)

/-- The table that a definition makes. -/
def define (name : Text) (clauses : List Clause) : Except Refusal Table :=
  clauses.foldlM add ⟨name, [], [], none, []⟩

/-- A row of values with the names of their columns. -/
def row (t : Table) (values : List Value) : Row := .ofList ((t.columns.map (·.name)).zip values)

/-- How refusals call some columns. -/
def called (t : Table) (places : List Nat) : List Text :=
  places.filterMap fun i => t.columns[i]?.map fun c => t.name ++ '.' :: c.name

/-- The id of the next row. -/
def nextId (t : Table) : Int :=
  match t.key, t.rows.getLast? with
  | some i, some values =>
    match values[i]? with
    | some (.integer n) => n + 1
    | _ => 1
  | _, _ => t.rows.length + 1

/-- The id of a row, and the row with it. -/
def identify (t : Table) (values : List Value) : Except Refusal (Int × List Value) :=
  match t.key with
  | none => .ok (t.nextId, values)
  | some i =>
    match (values[i]?).getD .null with
    | .integer n => .ok (n, values)
    | .null => .ok (t.nextId, values.set i (.integer t.nextId))
    | _ => .error .mismatch

/-- Whether two rows have the same values in some columns. -/
def agree (t : Table) (places : List Nat) (a b : List Value) : Bool :=
  places.all fun i =>
    match t.columns[i]?, a[i]?, b[i]? with
    | some c, some v, some w => c.collation.isSame v w
    | _, _, _ => false

/-- Accepts a row that keeps all rules. -/
def check (t : Table) (values : List Value) : Except Refusal Unit := do
  match (t.columns.zip values).findIdx? fun (c, v) => c.required && v = .null with
  | some i => throw (.missingValue (t.called [i]))
  | none => pure ()
  match (t.key.toList.map ([·]) ++ t.distinct).find? fun is => t.rows.any (t.agree is values) with
  | some places => throw (.repeatedValue (t.called places))
  | none => pure ()

/-- The table with one more row, each value in the form that its column prefers, and the id of the
row. -/
def insert (t : Table) (values : List Value) : Except Refusal (Table × Int) := do
  let affinities := t.columns.map fun c => Affinity.ofType c.type
  let (id, values) ← t.identify (List.zipWith Affinity.apply affinities values)
  t.check values
  let isBefore (row : List Value) : Bool :=
    match t.key.bind (row[·]?) with
    | some (.integer n) => n < id
    | _ => true
  return ({ t with rows := t.rows.takeWhile isBefore ++ values :: t.rows.dropWhile isBefore }, id)

/-- The rows that describe the columns. -/
def description (t : Table) : List Row :=
  t.columns.mapIdx fun i c =>
    .ofList ([("cid", .integer i), ("name", .text c.name), ("type", .text c.type),
      ("notnull", .integer (if c.required then 1 else 0)),
      ("dflt_value", (c.standard.map .text).getD .null), ("pk", .integer c.primary)].map
        fun (key, v) => (key.toList, v))

end Table

end StoredRoutine.Scratch
