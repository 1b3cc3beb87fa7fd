import StoredRoutine.NamePolicy
import StoredRoutine.Scratch.Basic

/-!
The course of a run: where it is at, and every step that it took to get there. Some steps are taken by
the program, and others by what is outside of it, which is the engine of the scratch database and
whatever a naming policy does. A course can be cut after any of its steps, which is what an interrupt
does.
-/
namespace StoredRoutine.CommandLine

inductive Actor where
  | program
  | outside
  deriving DecidableEq, Repr

/-- Where a run is at between two steps. -/
structure Moment (η : Type) where
  session : Session
  /-- Whether the run gives an answer to failures. -/
  isGuarded : Bool
  /-- The scratch database that will be closed however the run ends. -/
  scratch : Option (Scratch η)

structure Step (η : Type) where
  actor : Actor
  before : Moment η
  after : Moment η

structure Course (η : Type) where
  now : Moment η
  /-- The steps so far, the latest first. -/
  steps : List (Step η)

variable {η : Type}

instance : Scratch.Site Session η where
  attend _ files s := s.setFiles files

/-- The moment after a call, which may have changed the connection of the database at hand. -/
def Moment.attend (m : Moment η) (handle : Option η) (files : FileTree) : Moment η where
  session := m.session.setFiles files
  isGuarded := m.isGuarded
  scratch := m.scratch.map fun scratch =>
    { scratch with database.connection := handle.getD scratch.database.connection }

namespace Course

def start (s : Session) : Course η := ⟨⟨s, false, none⟩, []⟩

def take (actor : Actor) (m : Moment η) (c : Course η) : Course η :=
  ⟨m, ⟨actor, c.now, m⟩ :: c.steps⟩

/-- A step of the program that leaves a session. -/
def leave (s : Session) (c : Course η) : Course η := c.take .program { c.now with session := s }

/-- A course without its last steps. -/
def rewind : Nat → Course η → Course η
  | 0, c => c
  | _, ⟨now, []⟩ => ⟨now, []⟩
  | n + 1, ⟨_, step :: steps⟩ => rewind n ⟨step.before, steps⟩

/-- The first steps of a course. -/
def upTo (n : Nat) (c : Course η) : Course η := c.rewind (c.steps.length - n)

instance : Host (Course η) where
  files c := c.now.session.files
  setFiles files c := c.leave (c.now.session.setFiles files)
  directory c := c.now.session.directory
  report r c := c.leave (c.now.session.report r)
  pass files c := (c.leave (c.now.session.setFiles files)).leave c.now.session

instance : Log.Logs (Course η) where
  logging c := c.now.session.logging
  setLogging logging c := c.leave { c.now.session with logging }

instance : Lends (Course η) where
  lend work c :=
    let (answer, s) := work c.now.session
    (answer, c.take .outside { c.now with session := s })

instance : Scratch.Site (Course η) η where
  attend handle files c := c.take .outside (c.now.attend handle files)

end Course

end StoredRoutine.CommandLine
