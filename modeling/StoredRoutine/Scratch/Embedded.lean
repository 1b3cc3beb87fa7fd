import StoredRoutine.Scratch.Table

/-!
A connection to an embedded database. A statement that changes rows starts a transaction, which a
commit keeps and a rollback undoes; outside a transaction every change is kept at once. The id of
the last inserted row belongs to the connection.
-/
namespace StoredRoutine.Scratch

/-!
The tables of an embedded database, and what statements do to them.
-/

section

open Sql (Clause Expression Target isSame)

structure Store where
  tables : List Table
  deriving DecidableEq, Repr

/-- What a statement that was accepted comes to. -/
structure Outcome where
  /-- The rows that it answers and the store that it leaves, or what stopped it on its way. -/
  result : Except Refusal (List Row × Store)
  /-- The id of the last row that it inserted, also if it was stopped. -/
  insertedId : Option Int := none

namespace Store

def empty : Store := ⟨[]⟩

def find? (s : Store) (name : Text) : Option Table := s.tables.find? (isSame name ·.name)

def add (s : Store) (t : Table) : Store := ⟨s.tables ++ [t]⟩

/-- The store with a table in place of the one of the same name. -/
def replace (s : Store) (t : Table) : Store :=
  ⟨s.tables.map fun u => if u.name = t.name then t else u⟩

/-- The table that a statement speaks of, which may call it by its name in another case. -/
def find (s : Store) (target : Target) : Except Refusal Table :=
  match target.elsewhere?, s.find? (Sql.bare target.name) with
  | none, some t => .ok t
  | _, _ => .error (.noTable target.fullName)

/-- The start of names that belong to the engine. -/
def internal : Text := "sqlite_".toList

/-- Accepts the name of a table under creation. -/
def checkName (target : Target) : Except Refusal Unit := do
  match target.elsewhere? with
  | some schema => throw (.noSchema schema)
  | none => pure ()
  let name := Sql.bare target.name
  if isSame (name.take internal.length) internal then throw (.reservedName name)

/-- The store with a table that is made from a definition, by its name as it is written. If there is
one already it may be left as it is. -/
def create (s : Store) (written : Text) (ifMissing : Bool) (clauses : List Clause) :
    Except Refusal Store := do
  let name := Sql.bare written
  if (s.find? name).isSome then
    if ifMissing then return s else throw (.tableExists written)
  return s.add (← Table.define name clauses)

/-- The value of an expression where no row is at hand. -/
def evaluate : Expression → Except Refusal Value
  | .literal v => .ok v
  | .column name => .error (.noColumn name)

/-- Accepts rows of one width. -/
def checkWidths : List (List Value) → Except Refusal Unit
  | a :: b :: rows => do
    checkWidths (b :: rows)
    if a.length ≠ b.length then throw .widths
  | _ => .ok ()

/-- A table with more rows, up to the first that cannot be inserted, and the id of the last row that
was tried with an id. A hindrance is what keeps any row from being written. -/
def insertEach (hindrance : Option Refusal) (t : Table) (id : Option Int) :
    List (List Value) → Except Refusal Table × Option Int
  | [] => (.ok t, id)
  | values :: rows =>
    match t.insert values, hindrance with
    | .ok (t, id), none => insertEach hindrance t (some id) rows
    | .ok (_, id), some refusal => (.error refusal, some id)
    | .error refusal, _ => (.error refusal, id)

/-- Inserts rows into a table, which have values for all columns or for those that are named. The
last row is looked at first. -/
def insert (s : Store) (hindrance : Option Refusal) (target : Target) (columns : Option (List Text))
    (rows : List (List Expression)) : Except Refusal Outcome := do
  let t ← s.find target
  let places ← columns.mapM (t.places target.called)
  let rows := (← rows.reverse.mapM (·.mapM evaluate)).reverse
  checkWidths rows
  let width := (rows.head?.getD []).length
  match places with
  | none =>
    if width ≠ t.columns.length then
      throw (.valueCount target.called t.columns.length width)
  | some is => if width ≠ is.length then throw (.namedCount is.length width)
  let (t, id) := insertEach hindrance t none
    (rows.map fun values => (places.map (t.spread · values)).getD values)
  return ⟨t.map fun t => ([], s.replace t), id⟩

/-- The row of one number. -/
def single (heading : Text) (n : Int) : List Row := [.ofList [(heading, .integer n)]]

end Store

end

open Sql (Reading)

/-- What has the name of the file that keeps a database. -/
inductive NameHolder where
  | itself
  /-- Another file, which came later. -/
  | another
  | nobody
  deriving DecidableEq, Repr

structure Embedded where
  committed : Store
  current : Store
  /-- Whether the file that keeps the database holds one. -/
  isReadable : Bool
  inTransaction : Bool
  lastInsertId : Int
  /-- Whether the name of the file still leads to the database. -/
  nameHolder : NameHolder := .itself
  deriving Repr

namespace Embedded

def ofStore (s : Store) : Embedded := ⟨s, s, true, false, 0, .itself⟩

/-- A connection to a file that does not hold a database. -/
def unreadable : Embedded := { ofStore .empty with isReadable := false }

def checkReadable (c : Embedded) : Except Refusal Unit :=
  if c.isReadable then .ok () else .error .noDatabase

/-- The store with a table that is made from a definition. -/
def create (c : Embedded) (target : Sql.Target) (ifMissing : Bool) (clauses : List Sql.Clause) :
    Except Refusal Store := do
  Store.checkName target
  c.checkReadable
  c.current.create target.name ifMissing clauses

/-- Accepts a statement that was read. A table under creation is looked at before a fault that
comes after its name. -/
def check (c : Embedded) (r : Reading) : Except Refusal Unit := do
  match r.statement with
  | .createTable table ifMissing clauses =>
    let _ ← c.create table ifMissing clauses
  | _ => pure ()
  match r.fault with
  | some fault => throw (.unreadable fault)
  | none => pure ()

/-- What keeps the connection from writing. A file that holds nothing yet may lose its name to
another one, but not for good. -/
def hindrance? (c : Embedded) : Option Refusal :=
  match c.nameHolder, c.current.tables with
  | .itself, _ | .another, [] => none
  | .nobody, [] => some .noFile
  | _, _ :: _ => some .namelessFile

/-- The outcome of a statement that only selects. -/
def selected (c : Embedded) (rows : List Row) : Outcome := ⟨.ok (rows, c.current), none⟩

/-- The outcome of a statement that leaves a store. -/
def written (c : Embedded) (s : Store) : Outcome :=
  match c.hindrance? with
  | some refusal => if s = c.current then c.selected [] else ⟨.error refusal, none⟩
  | none => ⟨.ok ([], s), none⟩

/-- What an accepted statement does. -/
def run (c : Embedded) : Sql.Statement → Except Refusal Outcome
  | .nothing => .ok (c.selected [])
  | .createTable table ifMissing clauses => do
    return c.written (← c.create table ifMissing clauses)
  | .insert table columns rows => do
    c.checkReadable
    c.current.insert c.hindrance? table columns rows
  | .selectAll table => do
    c.checkReadable
    let t ← c.current.find table
    return c.selected (t.rows.map t.row)
  | .countAll heading table => do
    c.checkReadable
    let t ← c.current.find table
    return c.selected (Store.single heading t.rows.length)
  | .lastInsertId heading => .ok (c.selected (Store.single heading c.lastInsertId))
  | .describe table => do
    c.checkReadable
    return c.selected (((c.current.find? table).map (·.description)).getD [])

/-- What the only statement of a text does. -/
def outcome (c : Embedded) (text : Text) : Except Refusal Outcome := do
  if text.contains '\x00' then throw .nullCharacter
  let (tokens, rest) := Sql.cut text
  let reading := Reading.ofTokens tokens
  c.check reading
  let outcome ← c.run reading.statement
  if !(Sql.skip false .open rest).isEmpty then throw .furtherText
  return outcome

/-- The connection after a text was executed that leaves a store. -/
def after (c : Embedded) (text : Text) (s : Store) : Embedded :=
  let inTransaction := c.inTransaction || Sql.startsChange text
  { c with
    current := s
    committed := if inTransaction then c.committed else s
    inTransaction }

/-- Executes a text. The id of an inserted row is remembered even if the row does not stay. -/
def execute (c : Embedded) (text : Text) : Except Refusal (List Row) × Embedded :=
  match c.outcome text with
  | .error refusal => (.error refusal, c)
  | .ok outcome =>
    let c := { c with lastInsertId := outcome.insertedId.getD c.lastInsertId }
    match outcome.result with
    | .error refusal => (.error refusal, c)
    | .ok (rows, s) => (.ok rows, c.after text s)

/-- The connection after its changes were kept. -/
def commit (c : Embedded) : Embedded := { c with committed := c.current, inTransaction := false }

/-- The connection after its changes were undone. -/
def rollback (c : Embedded) : Embedded := { c with current := c.committed, inTransaction := false }

end Embedded

end StoredRoutine.Scratch
