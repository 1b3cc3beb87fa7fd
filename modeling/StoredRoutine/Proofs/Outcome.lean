import Mathlib
import StoredRoutine.Task

/-!
What an outcome tells about the steps that led to it, and what a task does to the state it runs in.
-/
namespace StoredRoutine

namespace Outcome

variable {ε ε' α β : Type}

@[simp] theorem ok_bind (a : α) (f : α → Except ε β) : ((.ok a : Except ε α) >>= f) = f a := rfl

@[simp] theorem error_bind (e : ε) (f : α → Except ε β) :
    ((.error e : Except ε α) >>= f) = .error e := rfl

theorem bind_eq_ok_iff {x : Except ε α} {f : α → Except ε β} {b : β} :
    (x >>= f) = .ok b ↔ ∃ a, x = .ok a ∧ f a = .ok b := by
  cases x with
  | error e => constructor <;> simp [bind, Except.bind]
  | ok a => constructor <;> simp [bind, Except.bind]

theorem bind_eq_error_iff {x : Except ε α} {f : α → Except ε β} {e : ε} :
    (x >>= f) = .error e ↔ x = .error e ∨ ∃ a, x = .ok a ∧ f a = .error e := by
  cases x with
  | error e' => constructor <;> simp [bind, Except.bind]
  | ok a => constructor <;> simp [bind, Except.bind]

theorem map_eq_ok_iff {x : Except ε α} {f : α → β} {b : β} :
    x.map f = .ok b ↔ ∃ a, x = .ok a ∧ f a = b := by
  cases x <;> simp [Except.map]

theorem mapError_eq_ok_iff {x : Except ε α} {f : ε → ε'} {a : α} :
    x.mapError f = .ok a ↔ x = .ok a := by
  cases x <;> simp [Except.mapError]

theorem mapError_eq_error_iff {x : Except ε α} {f : ε → ε'} {e : ε'} :
    x.mapError f = .error e ↔ ∃ e', x = .error e' ∧ f e' = e := by
  cases x <;> simp [Except.mapError]

theorem exists_of_isOk {x : Except ε α} (h : x.isOk = true) : ∃ a, x = .ok a := by
  cases x with
  | error e => cases h
  | ok a => exact ⟨a, rfl⟩

end Outcome

/-- A state whose reports leave its files and its directory alone, and in which moments pass. -/
class QuietHost (σ : Type) [Host σ] : Prop where
  files_report : ∀ (r : Report) (s : σ), Host.files (Host.report r s) = Host.files s
  directory_report : ∀ (r : Report) (s : σ), Host.directory (Host.report r s) = Host.directory s
  files_pass : ∀ (t : FileTree) (s : σ), Host.files (Host.pass t s) = Host.files s
  directory_pass : ∀ (t : FileTree) (s : σ), Host.directory (Host.pass t s) = Host.directory s

attribute [simp] QuietHost.files_report QuietHost.directory_report QuietHost.files_pass
  QuietHost.directory_pass

instance : QuietHost Workspace :=
  ⟨fun _ _ => rfl, fun _ _ => rfl, fun _ _ => rfl, fun _ _ => rfl⟩

/-- No moment passes in a workspace. -/
@[simp] theorem Workspace.pass_eq (t : FileTree) (w : Workspace) : Host.pass t w = w := rfl

/-- A state that holds the files it is given, and no other for a report. -/
class LawfulHost (σ : Type) [Host σ] : Prop extends QuietHost σ where
  files_setFiles : ∀ (t : FileTree) (s : σ), Host.files (Host.setFiles t s) = t
  directory_setFiles : ∀ (t : FileTree) (s : σ),
    Host.directory (Host.setFiles t s) = Host.directory s

attribute [simp] LawfulHost.files_setFiles LawfulHost.directory_setFiles

instance : LawfulHost Workspace := ⟨fun _ _ => rfl, fun _ _ => rfl⟩

namespace Task

variable {σ ε ε' α β : Type}

theorem bind_apply_of_ok {x : Task σ ε α} {f : α → Task σ ε β} {s s' : σ} {a : α}
    (h : x s = (.ok a, s')) : (x >>= f) s = f a s' := by
  rw [bind_apply, h]

theorem bind_apply_of_error {x : Task σ ε α} {f : α → Task σ ε β} {s s' : σ} {e : ε}
    (h : x s = (.error e, s')) : (x >>= f) s = (.error e, s') := by
  rw [bind_apply, h]

@[simp] theorem look_apply (f : σ → α) (s : σ) : (look f : Task σ ε α) s = (.ok (f s), s) := rfl

@[simp] theorem ofExcept_apply (x : Except ε α) (s : σ) : ofExcept x s = (x, s) := rfl

@[simp] theorem outcome_apply (x : Task σ ε α) (s : σ) :
    (outcome x : Task σ ε' (Except ε α)) s = (.ok (x s).1, (x s).2) := rfl

theorem ite_apply (c : Prop) [Decidable c] (x y : Task σ ε α) (s : σ) :
    (if c then x else y) s = if c then x s else y s := by
  split <;> rfl

@[simp] theorem mapError_apply (f : ε → ε') (x : Task σ ε α) (s : σ) :
    mapError f x s = ((x s).1.mapError f, (x s).2) := rfl

theorem mapError_bind (f : ε → ε') (x : Task σ ε α) (g : α → Task σ ε β) :
    mapError f (x >>= g) = mapError f x >>= fun a => mapError f (g a) := by
  funext s
  rw [bind_apply, mapError_apply, mapError_apply, bind_apply]
  rcases x s with ⟨e | a, s'⟩ <;> rfl

@[simp] theorem mapError_id (x : Task σ ε α) : mapError id x = x := by
  funext s
  rw [mapError_apply]
  rcases x s with ⟨e | a, s'⟩ <;> rfl

variable [Host σ]

@[simp] theorem withFiles_apply (f : FileTree → Place → FileTree × Except ε α) (s : σ) :
    withFiles f s = ((f (Host.files s) (Host.directory s)).2,
      Host.setFiles (f (Host.files s) (Host.directory s)).1 s) := rfl

@[simp] theorem pass_apply (f : FileTree → Place → FileTree) (s : σ) :
    (pass f : Task σ ε Unit) s = (.ok (), Host.pass (f (Host.files s) (Host.directory s)) s) := rfl

@[simp] theorem files_apply (s : σ) : (files : Task σ ε FileTree) s = (.ok (Host.files s), s) := rfl

@[simp] theorem directory_apply (s : σ) :
    (directory : Task σ ε Place) s = (.ok (Host.directory s), s) := rfl

@[simp] theorem report_apply (r : Report) (s : σ) :
    (report r : Task σ ε Unit) s = (.ok (), Host.report r s) := rfl

theorem reportAll_apply (rs : List Report) (s : σ) :
    (reportAll rs : Task σ ε Unit) s = (.ok (), rs.foldl (fun s r => Host.report r s) s) := by
  induction rs generalizing s with
  | nil => rfl
  | cons r rs ih =>
    rw [reportAll, bind_apply, report_apply]
    exact ih _

end Task

section Reports

variable {σ : Type} [Host σ] [QuietHost σ]

@[simp] theorem files_foldl_report (rs : List Report) (s : σ) :
    Host.files (rs.foldl (fun s r => Host.report r s) s) = Host.files s := by
  induction rs generalizing s with
  | nil => rfl
  | cons r rs ih => rw [List.foldl_cons, ih, QuietHost.files_report]

@[simp] theorem directory_foldl_report (rs : List Report) (s : σ) :
    Host.directory (rs.foldl (fun s r => Host.report r s) s) = Host.directory s := by
  induction rs generalizing s with
  | nil => rfl
  | cons r rs ih => rw [List.foldl_cons, ih, QuietHost.directory_report]

end Reports

end StoredRoutine
