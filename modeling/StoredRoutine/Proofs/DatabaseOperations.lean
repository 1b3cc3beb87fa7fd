import StoredRoutine.Proofs.Outcome
import StoredRoutine.Scratch.Database

/-!
What an instance of a database is asked to do, apart from being closed. No operation opens or closes
a connection, and on a closed database none does anything; and operations on connections that answer
alike come to the same.
-/
namespace StoredRoutine.Scratch

section Alike

/-- Works on open databases of two kinds that come to the same. -/
def Agree {κ κ' α : Type} (R : κ → κ' → Prop) (work : Database.Work κ α) (work' : Database.Work κ' α) :
    Prop :=
  ∀ c d, R c d → ∃ answer c' d', work ⟨c, true⟩ = (answer, ⟨c', true⟩) ∧
    work' ⟨d, true⟩ = (answer, ⟨d', true⟩) ∧ R c' d'

variable {κ κ' : Type} {R : κ → κ' → Prop} {α β : Type}

theorem Agree.pure (a : α) : Agree R (pure a) (pure a) := fun _ _ h => ⟨_, _, _, rfl, rfl, h⟩

theorem Agree.bind {work : Database.Work κ α} {work' : Database.Work κ' α}
    {next : α → Database.Work κ β} {next' : α → Database.Work κ' β} (hw : Agree R work work')
    (hn : ∀ a, Agree R (next a) (next' a)) : Agree R (work >>= next) (work' >>= next') := by
  intro c d h
  obtain ⟨answer, c', d', hc, hd, h'⟩ := hw c d h
  cases answer with
  | error f =>
    exact ⟨_, _, _, Task.bind_apply_of_error hc, Task.bind_apply_of_error hd, h'⟩
  | ok a =>
    rw [Task.bind_apply_of_ok hc, Task.bind_apply_of_ok hd]
    exact hn a _ _ h'

theorem Agree.mapError {work : Database.Work κ α} {work' : Database.Work κ' α}
    (hw : Agree R work work') (f : Failure → Failure) :
    Agree R (Task.mapError f work : Database.Work κ α) (Task.mapError f work') := by
  intro c d h
  obtain ⟨answer, c', d', hc, hd, h'⟩ := hw c d h
  exact ⟨answer.mapError f, c', d', by rw [Task.mapError_apply, hc],
    by rw [Task.mapError_apply, hd], h'⟩

theorem Agree.onConnection {f : κ → Except Failure α × κ} {g : κ' → Except Failure α × κ'}
    (h : ∀ {c d}, R c d → (f c).1 = (g d).1 ∧ R (f c).2 (g d).2) :
    Agree R (Database.onConnection f) (Database.onConnection g) := by
  intro c d hcd
  refine ⟨(f c).1, (f c).2, (g d).2, rfl, ?_, (h hcd).2⟩
  rw [(h hcd).1]
  rfl

variable [Connection κ] [Connection κ']

/-- Connections of two kinds that answer statements and ends of transactions alike, and stay so. -/
structure Alike (R : κ → κ' → Prop) : Prop where
  execute : ∀ (statement : Text) {c d}, R c d →
    (Connection.execute statement c).1 = (Connection.execute statement d).1 ∧
      R (Connection.execute statement c).2 (Connection.execute statement d).2
  commit : ∀ {c d}, R c d → (Connection.commit c).1 = (Connection.commit d).1 ∧
    R (Connection.commit c).2 (Connection.commit d).2
  rollback : ∀ {c d}, R c d → (Connection.rollback c).1 = (Connection.rollback d).1 ∧
    R (Connection.rollback c).2 (Connection.rollback d).2

namespace Alike

theorem refuse (h : Alike R) (failure : StatementFailure) {c : κ} {d : κ'} (hcd : R c d) :
    (Database.refuse failure c).1 = (Database.refuse failure d).1 ∧
      R (Database.refuse failure c).2 (Database.refuse failure d).2 := by
  obtain ⟨hanswer, hafter⟩ := h.rollback hcd
  rw [Database.refuse, Database.refuse]
  rcases hc : Connection.rollback c with ⟨answer, c'⟩
  rcases hd : Connection.rollback d with ⟨answer', d'⟩
  rw [hc, hd] at hanswer hafter
  obtain rfl : answer = answer' := hanswer
  cases answer <;> exact ⟨rfl, hafter⟩

theorem send (h : Alike R) (statement : Text) :
    Agree R (Database.send statement) (Database.send statement) := by
  refine .onConnection fun {c d} hcd => ?_
  obtain ⟨hanswer, hafter⟩ := h.execute statement hcd
  rcases hc : Connection.execute statement c with ⟨answer, c'⟩
  rcases hd : Connection.execute statement d with ⟨answer', d'⟩
  rw [hc, hd] at hanswer hafter
  obtain rfl : answer = answer' := hanswer
  match answer with
  | .ok rows => exact ⟨rfl, hafter⟩
  | .error (.refused text) => exact h.refuse _ hafter
  | .error (.raised fault) => exact ⟨rfl, hafter⟩

theorem commit_work (h : Alike R) :
    Agree R (Database.commit : Database.Work κ Unit) Database.commit := by
  refine .onConnection fun {c d} hcd => ?_
  obtain ⟨hanswer, hafter⟩ := h.commit hcd
  exact ⟨congrArg (Except.mapError Failure.raised) hanswer, hafter⟩

theorem sendEach (h : Alike R) (statements : List Script.Statement) :
    Agree R (Database.sendEach statements) (Database.sendEach statements) := by
  induction statements with
  | nil => exact .pure ()
  | cons s ss ih => exact ((h.send s.text).mapError _).bind fun _ => ih

/-- A script comes to the same on connections that answer alike. -/
theorem executeScript (h : Alike R) (script : Text) :
    Agree R (Database.executeScript script) (Database.executeScript script) :=
  (h.sendEach _).bind fun _ => h.commit_work.bind fun _ => .pure _

end Alike

end Alike

section Filmed

variable {κ : Type}

/-- A film that began with a connection and shows another one at its end. -/
def Filmed.Shows (start : κ) (c : Filmed κ) (d : κ) : Prop :=
  c.now = d ∧ (start :: c.frames).getLast (List.cons_ne_nil start c.frames) = d

theorem Filmed.shows_next (start : κ) (c : Filmed κ) (d : κ) : (c.next d).Shows start d :=
  ⟨rfl, by simp [Filmed.next]⟩

theorem Filmed.shows_begin (c : κ) : (Filmed.begin c).Shows c c := ⟨rfl, rfl⟩

/-- A filmed connection answers as it does without the film. -/
theorem Filmed.alike [Connection κ] (start : κ) : Alike (Filmed.Shows start) where
  execute statement c d h := by
    obtain ⟨rfl, -⟩ := h
    exact ⟨rfl, c.shows_next start _⟩
  commit {c d} h := by
    obtain ⟨rfl, -⟩ := h
    exact ⟨rfl, c.shows_next start _⟩
  rollback {c d} h := by
    obtain ⟨rfl, -⟩ := h
    exact ⟨rfl, c.shows_next start _⟩

end Filmed

end StoredRoutine.Scratch

namespace StoredRoutine.Scratch.Database

variable {κ : Type}

/-- Work that neither opens nor closes a database, and leaves a closed one as it is. -/
def Steady {α : Type} (work : Work κ α) : Prop :=
  ∀ db, (work db).2.isOpen = db.isOpen ∧ (db.isOpen = false → (work db).2 = db)

section Steady

variable {α β : Type}

theorem Steady.pure (a : α) : Steady (pure a : Work κ α) := fun _ => ⟨rfl, fun _ => rfl⟩

theorem Steady.ofExcept (x : Except Failure α) : Steady (Task.ofExcept x : Work κ α) :=
  fun _ => ⟨rfl, fun _ => rfl⟩

theorem Steady.onConnection (f : κ → Except Failure α × κ) : Steady (onConnection f) := by
  intro db
  rw [Database.onConnection]
  split
  · next h => exact ⟨rfl, fun hc => absurd (hc.symm.trans h) Bool.false_ne_true⟩
  · exact ⟨rfl, fun _ => rfl⟩

theorem Steady.bind {work : Work κ α} {next : α → Work κ β} (hw : Steady work)
    (hn : ∀ a, Steady (next a)) : Steady (work >>= next) := by
  intro db
  obtain ⟨answer, db', hrun⟩ : ∃ answer db', work db = (answer, db') := ⟨_, _, rfl⟩
  obtain ⟨hopen, hclosed⟩ := hw db
  rw [hrun] at hopen hclosed
  cases answer with
  | error e =>
    rw [Task.bind_apply_of_error hrun]
    exact ⟨hopen, hclosed⟩
  | ok a =>
    rw [Task.bind_apply_of_ok hrun]
    obtain ⟨hopen', hclosed'⟩ := hn a db'
    exact ⟨hopen'.trans hopen, fun h => (hclosed' (hopen.trans h)).trans (hclosed h)⟩

theorem Steady.mapError {work : Work κ α} (hw : Steady work) (f : Failure → Failure) :
    Steady (Task.mapError f work : Work κ α) := fun db => hw db

end Steady

variable [Connection κ]

theorem steady_send (statement : Text) : Steady (send statement : Work κ _) := .onConnection _

theorem steady_commit : Steady (commit : Work κ Unit) := .onConnection _

theorem steady_execute (statement : Text) : Steady (execute statement : Work κ Unit) :=
  (steady_send statement).bind fun _ => steady_commit

theorem steady_sendEach (statements : List Script.Statement) :
    Steady (sendEach statements : Work κ Unit) := by
  induction statements with
  | nil => exact .pure ()
  | cons s ss ih => exact ((steady_send s.text).mapError _).bind fun _ => ih

theorem steady_executeScript (script : Text) : Steady (executeScript script : Work κ Nat) :=
  (steady_sendEach _).bind fun _ => steady_commit.bind fun _ => .pure _

theorem steady_rows (query : Text) : Steady (rows query : Work κ (List Row)) :=
  (steady_send query).bind fun rows => steady_commit.bind fun _ => .pure rows

theorem steady_row? (query : Text) : Steady (row? query : Work κ (Option Row)) := by
  refine (steady_rows query).bind fun rows => ?_
  rcases rows with - | ⟨row, - | ⟨row', rows⟩⟩
  · exact .pure none
  · exact .pure (some row)
  · exact .ofExcept (.error _)

theorem steady_row (query : Text) : Steady (row query : Work κ Row) := by
  refine (steady_rows query).bind fun rows => ?_
  rcases rows with - | ⟨row, - | ⟨row', rows⟩⟩
  · exact .ofExcept (.error _)
  · exact .pure row
  · exact .ofExcept (.error _)

theorem steady_value? (query : Text) : Steady (value? query : Work κ (Option Value)) := by
  refine (steady_row? query).bind fun row => ?_
  cases row with
  | none => exact .pure none
  | some row => exact (Steady.ofExcept _).bind fun v => .pure (some v)

theorem steady_value (query : Text) : Steady (value query : Work κ Value) :=
  (steady_row query).bind fun _ => .ofExcept _

theorem steady_lastInsertId : Steady (lastInsertId : Work κ Int) :=
  (steady_value _).bind fun _ => .ofExcept _

theorem steady_tables : Steady (tables : Work κ (List Text)) := .onConnection _

theorem steady_columns (table : Text) : Steady (columns table : Work κ (List Column)) :=
  (steady_rows _).bind fun _ => .ofExcept _

/-- What an instance can be asked to do. -/
inductive Operation where
  | execute (statement : Text)
  | executeScript (script : Text)
  | rows (query : Text)
  | row? (query : Text)
  | row (query : Text)
  | value? (query : Text)
  | value (query : Text)
  | lastInsertId
  | tables
  | columns (table : Text)
  deriving DecidableEq, Repr

namespace Operation

/-- The type of what an operation answers. -/
def Answer : Operation → Type
  | execute _ => Unit
  | executeScript _ => Nat
  | rows _ => List Row
  | row? _ => Option Row
  | row _ => Row
  | value? _ => Option Value
  | value _ => Value
  | lastInsertId => Int
  | tables => List Text
  | columns _ => List Column

def work : (op : Operation) → Work κ op.Answer
  | execute statement => Database.execute statement
  | executeScript script => Database.executeScript script
  | rows query => Database.rows query
  | row? query => Database.row? query
  | row query => Database.row query
  | value? query => Database.value? query
  | value query => Database.value query
  | lastInsertId => Database.lastInsertId
  | tables => Database.tables
  | columns table => Database.columns table

theorem steady_work (op : Operation) : Steady (op.work : Work κ op.Answer) := by
  cases op with
  | execute statement => exact steady_execute statement
  | executeScript script => exact steady_executeScript script
  | rows query => exact steady_rows query
  | row? query => exact steady_row? query
  | row query => exact steady_row query
  | value? query => exact steady_value? query
  | value query => exact steady_value query
  | lastInsertId => exact steady_lastInsertId
  | tables => exact steady_tables
  | columns table => exact steady_columns table

end Operation

end StoredRoutine.Scratch.Database
