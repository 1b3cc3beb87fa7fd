import StoredRoutine.FileTree.Basic
import StoredRoutine.Log.Record

/-!
Work that reads and writes files, reports what it does and may fail. The state it runs in is open:
anything that holds a file tree and takes reports will do, so the same work can keep its reports
in a list or send them to a console and a log file at once.
-/
namespace StoredRoutine

class Host (σ : Type) where
  files : σ → FileTree
  setFiles : FileTree → σ → σ
  /-- The place from which paths are looked up. -/
  directory : σ → Place
  report : Report → σ → σ
  /-- Files as they are for a moment, in the middle of an operation on them. -/
  pass : FileTree → σ → σ := fun _ s => s

/-- A state that keeps its reports in a list. -/
structure Workspace where
  files : FileTree
  directory : Place
  reports : List Report
  deriving Repr

instance : Host Workspace where
  files := Workspace.files
  setFiles files w := { w with files }
  directory := Workspace.directory
  report r w := { w with reports := w.reports ++ [r] }

abbrev Task (σ ε α : Type) := ExceptT ε (StateM σ) α

namespace Task

variable {σ ε ε' α β : Type}

theorem bind_apply (x : Task σ ε α) (f : α → Task σ ε β) (s : σ) :
    (x >>= f) s = match x s with
      | (.ok a, s') => f a s'
      | (.error e, s') => (.error e, s') := by
  change (match x s with | (r, s') => ExceptT.bindCont f r s') = _
  rcases x s with ⟨a | a, s'⟩ <;> rfl

@[simp] theorem pure_apply (a : α) (s : σ) : (pure a : Task σ ε α) s = (.ok a, s) := rfl

@[simp] theorem throw_apply (e : ε) (s : σ) : (throw e : Task σ ε α) s = (.error e, s) := rfl

/-- What a look at the state shows. -/
def look (f : σ → α) : Task σ ε α := fun s => (.ok (f s), s)

/-- A change of the state that cannot fail. -/
def change (f : σ → σ) : Task σ ε Unit := fun s => (.ok (), f s)

/-- A task that has an outcome at hand. -/
def ofExcept (x : Except ε α) : Task σ ε α := fun s => (x, s)

/-- A task with its failure as a result. -/
def outcome (x : Task σ ε α) : Task σ ε' (Except ε α) := fun s =>
  let (r, s) := x s
  (.ok r, s)

/-- A task with its failure put in other terms. -/
def mapError (f : ε → ε') (x : Task σ ε α) : Task σ ε' α := fun s =>
  let (r, s) := x s
  (r.mapError f, s)

variable [Host σ]

def files : Task σ ε FileTree := look Host.files

def directory : Task σ ε Place := look Host.directory

/-- An operation on the file tree, whose changes stay also if it fails. -/
def withFiles (f : FileTree → Place → FileTree × Except ε α) : Task σ ε α := fun s =>
  let (files, r) := f (Host.files s) (Host.directory s)
  (r, Host.setFiles files s)

/-- A moment in the middle of an operation on the file tree. -/
def pass (f : FileTree → Place → FileTree) : Task σ ε Unit :=
  change fun s => Host.pass (f (Host.files s) (Host.directory s)) s

def report (r : Report) : Task σ ε Unit := change (Host.report r)

def reportAll : List Report → Task σ ε Unit
  | [] => pure ()
  | r :: rs => do
    report r
    reportAll rs

def diagnose (d : Diagnostic) : Task σ ε Unit := report (.diagnostic d)

end Task

end StoredRoutine
