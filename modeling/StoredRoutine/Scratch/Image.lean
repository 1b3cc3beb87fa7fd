import StoredRoutine.Encoding
import StoredRoutine.FileTree.Access
import StoredRoutine.Json.Reading
import StoredRoutine.Scratch.Connection
import StoredRoutine.Scratch.Embedded

/-!
The content of a database file, and the engine that the program runs with, which keeps its databases
in such files. An empty file is a database without tables; any other starts with a header, which
tells it from files of other kinds.
-/
namespace StoredRoutine.Scratch

def header : Bytes := Utf8.encode "SQLite format 3\x00".toList

/-- A real number by its parts, of which infinity has one and the undefined value none. -/
def realJson : Binary64 → Json
  | .nan => .array []
  | .infinite negative => .array [.scalar (.boolean negative)]
  | .finite negative mantissa exponent =>
    .array [.scalar (.boolean negative), .number mantissa, .number exponent]

/-- A value in a file. Real numbers are kept by their parts, as they may be infinite, and binary data
as the numbers of its bytes. -/
def valueJson : Value → Json
  | .real x => .record [("real", realJson x)]
  | .binary bs => .array (bs.map fun b => .scalar (.integer b.toNat))
  | v => .scalar v

def Column.toJson (c : Column) : Json :=
  .array [.string c.name, .string c.type, .scalar (.boolean c.required), .optional c.standard,
    .string c.collation.name.toList, .number c.primary]

def Table.toJson (t : Table) : Json :=
  .record [("name", .string t.name),
    ("columns", .array (t.columns.map (·.toJson))),
    ("distinct", .array (t.distinct.map fun is => .array (is.map fun (i : Nat) => .number i))),
    ("key", (t.key.map fun (i : Nat) => .number i).getD .null),
    ("rows", .array (t.rows.map fun values => .array (values.map valueJson)))]

def Store.toJson (s : Store) : Json := .array (s.tables.map (·.toJson))

def textOf? : Json → Option Text
  | .scalar (.text t) => some t
  | _ => none

def byteOf? : Json → Option UInt8
  | .scalar (.integer n) => some (.ofNat n.toNat)
  | _ => none

def numberOf? : Json → Option Nat
  | .scalar (.integer n) => some n.toNat
  | _ => none

def columnOf? : Json → Option Column
  | .array [name, type, .scalar (.boolean required), standard, collation, primary] => do
    return ⟨← textOf? name, ← textOf? type, required, textOf? standard,
      ← Collation.ofName? (← textOf? collation), ← numberOf? primary⟩
  | _ => none

def realOf? : Json → Option Binary64
  | .array [] => some .nan
  | .array [.scalar (.boolean negative)] => some (.infinite negative)
  | .array [.scalar (.boolean negative), .scalar (.integer mantissa), .scalar (.integer exponent)] =>
    some (.finite negative mantissa.toNat exponent)
  | _ => none

def valueOf? : Json → Option Value
  | .scalar v => some v
  | .array bytes => (bytes.mapM byteOf?).map .binary
  | .object members => do return .real (← realOf? (← members.lookup "real".toList))

def itemsOf? : Json → Option (List Json)
  | .array items => some items
  | _ => none

def rowOf? (j : Json) : Option (List Value) := do (← itemsOf? j).mapM valueOf?

def Table.ofJson? : Json → Option Table
  | .object members => do
    let member (name : String) := members.lookup name.toList
    let columns ← (← itemsOf? (← member "columns")).mapM columnOf?
    let distinct ← (← itemsOf? (← member "distinct")).mapM fun j => do
      (← itemsOf? j).mapM numberOf?
    let key := numberOf? (← member "key")
    let rows ← (← itemsOf? (← member "rows")).mapM rowOf?
    return ⟨← textOf? (← member "name"), columns, distinct, key, rows⟩
  | _ => none

namespace Store

/-- The content of a file that holds a store. -/
def image (s : Store) : Bytes :=
  if s.tables.isEmpty then []
  else match s.toJson.toText with
    | .ok t => header ++ Utf8.encode t
    | .error _ => header

/-- The store that a file holds. -/
def ofImage? (content : Bytes) : Option Store :=
  if content.isEmpty then some empty
  else if content.take header.length ≠ header then none
  else match Utf8.decode (content.drop header.length) with
    | .ok t => do return ⟨← (← itemsOf? (← Json.read? t)).mapM Table.ofJson?⟩
    | .error _ => none

end Store

/-- The connection to a file with some content. -/
def Embedded.ofImage (content : Bytes) : Embedded :=
  match Store.ofImage? content with
  | some s => .ofStore s
  | none => .unreadable

/-- A connection with the file that keeps its database, if there is one. -/
structure Kept where
  connection : Embedded
  place : Option Place
  /-- The content of the file as the connection left it. -/
  left : Bytes
  deriving Repr

namespace Kept

def inMemory : Kept := ⟨.ofStore .empty, none, []⟩

/-- What has the name of the file now. -/
def nameHolder (k : Kept) (files : FileTree) : NameHolder :=
  match k.place with
  | none => .itself
  | some place =>
    match files.get? place with
    | some (.file content) => if content = k.left then .itself else .another
    | _ => .nobody

/-- The connection as it finds its file. -/
def found (live : Live Kept) : Embedded :=
  { live.handle.connection with nameHolder := live.handle.nameHolder live.files }

/-- What a call leaves: the file keeps what was committed, if it still has its name. -/
def keep (live : Live Kept) (c : Embedded) : Live Kept :=
  match live.handle.place with
  | some place =>
    if (found live).nameHolder = .itself && live.handle.connection.committed != c.committed then
      ⟨⟨c, some place, c.committed.image⟩, live.files.put place (.file c.committed.image)⟩
    else { live with handle := { live.handle with connection := c } }
  | none => { live with handle := { live.handle with connection := c } }

/-- The path that stands for a database in memory. -/
def memoryPath : String := ":memory:"

/-- Whether a file can be at a place, as there is a directory for it. -/
def fits (files : FileTree) (place : Place) : Bool :=
  files.get? place.dropLast = some .directory && files.get? place ≠ some .directory

/-- The connection to a database, whose file is made if it is missing. -/
def connect (path : Option Path) (directory : Place) (files : FileTree) :
    Except Raised Kept × FileTree :=
  match path with
  | none => (.ok inMemory, files)
  | some path =>
    let place := (path.resolve directory).parts
    if path.toString.contains '\x00' then
      (.error ⟨.value, AccessFailure.message .nulByte⟩, files)
    else if path.toString = memoryPath then (.ok inMemory, files)
    else if !fits files place then
      (.error ⟨.foreign "OperationalError",
        "(sqlite3.OperationalError) unable to open database file"⟩, files)
    else match files.get? place with
      | some (.file content) => (.ok ⟨.ofImage content, some place, content⟩, files)
      | _ => (.ok ⟨.ofStore .empty, some place, []⟩, files.put place (.file []))

/-- The query that lists the tables. -/
def listingQuery : String :=
  "SELECT name FROM sqlite_master WHERE type='table' AND name NOT LIKE 'sqlite~_%' " ++
    "ESCAPE '~' ORDER BY name"

/-- The names of all tables cannot be had from a file that holds no database. -/
def tables (c : Embedded) : Except Raised (List Text) :=
  if c.isReadable then .ok (c.current.tables.map (·.name))
  else .error ⟨.foreign "DatabaseError",
    s!"(sqlite3.DatabaseError) {Refusal.noDatabase.message}\n[SQL: {listingQuery}]"⟩

instance : Engine Kept where
  connect := connect
  execute text live :=
    let (answer, c) := (found live).execute text
    (answer.mapError fun refusal => .refused refusal.message, keep live c)
  commit live := (.ok (), keep live (found live).commit)
  rollback live := (.ok (), keep live (found live).rollback)
  close live := keep live (found live).rollback
  tables live := (tables (found live), live)

end Kept

end StoredRoutine.Scratch
