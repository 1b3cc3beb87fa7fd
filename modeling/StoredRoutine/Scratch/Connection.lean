import StoredRoutine.Cause
import StoredRoutine.FileTree.Basic
import StoredRoutine.OrderedMap

/-!
Connections to scratch databases. A connection executes statements, which answer rows or nothing,
and ends transactions. What makes connections is not part of the program: all that is known of it
is how it answers, and that it may do to files whatever it likes. Any connection can be traced,
which keeps what it was asked to do, and filmed, which keeps what it was after every call.
-/
namespace StoredRoutine.Scratch

/-- A selected row: its columns in order. -/
abbrev Row := OrderedMap Text Value

/-- What keeps a statement from being answered. -/
inductive Objection where
  /-- The database refuses the statement, and tells why. -/
  | refused (text : String)
  | raised (fault : Raised)
  deriving DecidableEq, Repr

class Connection (κ : Type) where
  /-- Executes a statement and fetches all of its rows. -/
  execute : Text → κ → Except Objection (List Row) × κ
  commit : κ → Except Raised Unit × κ
  rollback : κ → Except Raised Unit × κ
  /-- Gives up the connection and everything that belongs to it. -/
  close : κ → κ
  /-- The names of all tables. -/
  tables : κ → Except Raised (List Text) × κ

/-- A connection together with the files that it works on. -/
structure Live (η : Type) where
  handle : η
  files : FileTree

/-- What makes connections, given the path of a database file or none for a database in memory, and
the place from which paths are looked up. -/
class Engine (η : Type) extends Connection (Live η) where
  connect : Option Path → Place → FileTree → Except Raised η × FileTree

inductive Event where
  | executed (statement : Text)
  | committed
  | rolledBack
  | closed
  /-- Everything that belongs to the connection was given up. -/
  | disposed
  deriving DecidableEq, Repr

/-- A connection with what it was asked to do. -/
structure Traced (κ : Type) where
  inner : κ
  events : List Event

namespace Traced

variable {κ : Type} [Connection κ]

def record (c : Traced κ) (inner : κ) (events : List Event) : Traced κ :=
  ⟨inner, c.events ++ events⟩

instance : Connection (Traced κ) where
  execute statement c :=
    let (answer, inner) := Connection.execute statement c.inner
    (answer, c.record inner [.executed statement])
  commit c :=
    let (answer, inner) := Connection.commit c.inner
    (answer, c.record inner [.committed])
  rollback c :=
    let (answer, inner) := Connection.rollback c.inner
    (answer, c.record inner [.rolledBack])
  close c := c.record (Connection.close c.inner) [.closed, .disposed]
  tables c :=
    let (answer, inner) := Connection.tables c.inner
    (answer, c.record inner [])

end Traced

/-- A connection with all that it was after its calls so far, the first call first. -/
structure Filmed (κ : Type) where
  now : κ
  frames : List κ

namespace Filmed

variable {κ : Type} [Connection κ]

def begin (c : κ) : Filmed κ := ⟨c, []⟩

def next (c : Filmed κ) (now : κ) : Filmed κ := ⟨now, c.frames ++ [now]⟩

instance : Connection (Filmed κ) where
  execute statement c :=
    let (answer, now) := Connection.execute statement c.now
    (answer, c.next now)
  commit c :=
    let (answer, now) := Connection.commit c.now
    (answer, c.next now)
  rollback c :=
    let (answer, now) := Connection.rollback c.now
    (answer, c.next now)
  close c := c.next (Connection.close c.now)
  tables c :=
    let (answer, now) := Connection.tables c.now
    (answer, c.next now)

end Filmed

end StoredRoutine.Scratch
