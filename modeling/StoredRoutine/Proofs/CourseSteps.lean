import StoredRoutine.CommandLine.Course
import StoredRoutine.Proofs.SessionChanges

/-!
What a run does step by step. The program does what it may, and what is outside of it does anything;
what both kinds of steps keep is kept by a run, and by every beginning of a run. A task is confined if
it goes on with any course as it may, and its answer is as it should be.
-/
namespace StoredRoutine

open CommandLine (Course Moment)

/-- A permit that forbids nothing. -/
def Permit.anything : Permit := ⟨fun _ => True, fun _ => True, fun _ _ => True, True⟩

variable {η : Type}

namespace CommandLine

/-- The file of the scratch database at hand, if there is one, may be removed. -/
def Moment.Within (p : Permit) (m : Moment η) : Prop :=
  ∀ scratch, m.scratch = some scratch → ∀ path, scratch.path = some path → p.removes path.parts

theorem within_anything (m : Moment η) : m.Within .anything := fun _ _ _ _ => trivial

namespace Course

/-- All steps from outside of a course do no more than they may. -/
def Outside (R : Session → Session → Prop) (c : Course η) : Prop :=
  ∀ step ∈ c.steps, step.actor = .outside → R step.before.session step.after.session

/-- A course that came by a session with some property. -/
def Saw (P : Session → Prop) (c : Course η) : Prop :=
  P c.now.session ∨ ∃ step ∈ c.steps, P step.before.session

theorem Saw.take {P : Session → Prop} {c : Course η} (h : c.Saw P) (actor : Actor) (m : Moment η) :
    (c.take actor m).Saw P := by
  rcases h with h | ⟨step, hm, h⟩
  · exact .inr ⟨_, List.mem_cons_self, h⟩
  · exact .inr ⟨step, List.mem_cons_of_mem _ hm, h⟩

end Course

/-- What a course may go on with. -/
inductive Next (p : Permit) (c : Course η) : Course η → Prop where
  | program {m : Moment η}
    (guarded : ¬ p.unguards → c.now.isGuarded = true → m.isGuarded = true)
    (within : c.now.Within p → m.Within p) (h : Change p c.now.session m.session) :
    Next p c (c.take .program m)
  /-- More directories are there for a moment. -/
  | pass {t : FileTree} (h : c.now.session.files.Grows t) :
    Next p c ((c.leave (c.now.session.setFiles t)).leave c.now.session)
  | outside {m : Moment η} (guarded : c.now.isGuarded = true → m.isGuarded = true)
    (within : c.now.Within p → m.Within p) : Next p c (c.take .outside m)

/-- What a course may come to. -/
abbrev Runs (p : Permit) : Course η → Course η → Prop := Relation.ReflTransGen (Next p)

section Runs

variable {p : Permit} {c c' : Course η}

/-- A step of the program on the session. -/
theorem Next.leave {s : Session} (h : Change p c.now.session s) : Next p c (c.leave s) :=
  .program (fun _ => id) id h

theorem Next.isGuarded (hp : ¬ p.unguards) (h : Next p c c') (hc : c.now.isGuarded = true) :
    c'.now.isGuarded = true := by
  cases h with
  | program guarded => exact guarded hp hc
  | pass => exact hc
  | outside guarded => exact guarded hc

theorem Runs.isGuarded (hp : ¬ p.unguards) (h : Runs p c c') (hc : c.now.isGuarded = true) :
    c'.now.isGuarded = true := by
  induction h with
  | refl => exact hc
  | tail _ hstep ih => exact hstep.isGuarded hp ih

theorem Next.within (h : Next p c c') (hc : c.now.Within p) : c'.now.Within p := by
  cases h with
  | program _ within => exact within hc
  | pass => exact hc
  | outside _ within => exact within hc

theorem Runs.within (h : Runs p c c') (hc : c.now.Within p) : c'.now.Within p := by
  induction h with
  | refl => exact hc
  | tail _ hstep ih => exact hstep.within ih

/-- What a course came by stays so. -/
theorem Runs.saw {P : Session → Prop} (h : Runs p c c') (hc : c.Saw P) : c'.Saw P := by
  induction h with
  | refl => exact hc
  | tail _ hstep ih =>
    cases hstep with
    | program => exact ih.take _ _
    | pass => exact (ih.take _ _).take _ _
    | outside => exact ih.take _ _

/-- What the program keeps by what it does, and others by what they may do, is kept by a course. -/
theorem Runs.keeps {Q : Session → Prop} {R : Session → Session → Prop}
    (hprogram : ∀ {s s'}, Change p s s' → Q s → Q s') (houtside : ∀ {s s'}, R s s' → Q s → Q s')
    (h : Runs p c c') (ho : c'.Outside R) (hc : Q c.now.session) : Q c'.now.session := by
  induction h with
  | refl => exact hc
  | tail _ hstep ih =>
    cases hstep with
    | program _ _ h => exact hprogram h (ih fun step hm => ho step (List.mem_cons_of_mem _ hm))
    | pass =>
      exact ih fun step hm => ho step (List.mem_cons_of_mem _ (List.mem_cons_of_mem _ hm))
    | outside =>
      refine houtside (ho _ List.mem_cons_self rfl) ?_
      exact ih fun step hm => ho step (List.mem_cons_of_mem _ hm)

/-- Every beginning of what a course comes to is something that it comes to. -/
theorem Runs.rewind (hstart : c.steps = []) (h : Runs p c c') (n : Nat) :
    Runs p c (c'.rewind n) := by
  induction h generalizing n with
  | refl =>
    obtain ⟨now, steps⟩ := c
    obtain rfl : steps = [] := hstart
    cases n <;> exact .refl
  | tail hrun hstep ih =>
    cases n with
    | zero => exact hrun.tail hstep
    | succ n =>
      cases hstep with
      | program => exact ih n
      | pass h =>
        cases n with
        | zero => exact hrun.tail (.leave (.directories h))
        | succ n => exact ih n
      | outside => exact ih n

end Runs

end CommandLine

open CommandLine (Next Runs)

/-- What becomes of a task on any course: it goes on as it may, and the result or the failure is as it
should be. -/
def Confined {ε α : Type} (p : Permit) (good : α → Prop) (bad : Course η → ε → Prop)
    (x : Task (Course η) ε α) : Prop :=
  ∀ c, c.now.Within p → Runs p c (x c).2 ∧
    match (x c).1 with
    | .ok a => good a
    | .error e => bad (x c).2 e

namespace Confined

variable {ε ε' α β : Type} {p : Permit} {G : α → Prop} {B : Course η → ε → Prop}
  {x : Task (Course η) ε α}

theorem pure {a : α} (h : G a) :
    Confined p G B (Pure.pure a : Task (Course η) ε α) := fun _ _ => ⟨.refl, h⟩

theorem throw {e : ε} (h : ∀ c, B c e) :
    Confined p G B (MonadExcept.throw e : Task (Course η) ε α) := fun c _ => ⟨.refl, h c⟩

theorem bind {G₁ : β → Prop} {f : α → Task (Course η) ε β} (hx : Confined p G B x)
    (hf : ∀ a, G a → Confined p G₁ B (f a)) : Confined p G₁ B (x >>= f) := by
  intro c hc
  obtain ⟨hruns, hanswer⟩ := hx c hc
  rw [Task.bind_apply]
  rcases h : x c with ⟨e | a, c'⟩
  · rw [h] at hruns hanswer
    exact ⟨hruns, hanswer⟩
  · rw [h] at hruns hanswer
    obtain ⟨hruns', hanswer'⟩ := hf a hanswer c' (hruns.within hc)
    exact ⟨hruns.trans hruns', hanswer'⟩

theorem ite {c : Prop} [Decidable c] {y : Task (Course η) ε α}
    (hx : c → Confined p G B x) (hy : ¬ c → Confined p G B y) :
    Confined p G B (if c then x else y) := by
  split
  · next h => exact hx h
  · next h => exact hy h

/-- A step that may be left out. -/
theorem optional {c : Prop} [Decidable c] {x : Task (Course η) ε Unit}
    {rest : Task (Course η) ε β} {G : β → Prop} (hx : c → Confined p (fun _ => True) B x)
    (hrest : Confined p G B rest) :
    Confined p G B (if c then x >>= fun _ => rest else rest) :=
  ite (fun h => bind (hx h) fun _ _ => hrest) fun _ => hrest

theorem mono {G₁ : α → Prop} {B₁ : Course η → ε → Prop} (hx : Confined p G B x)
    (hg : ∀ a, G a → G₁ a) (hb : ∀ c e, B c e → B₁ c e) : Confined p G₁ B₁ x := by
  intro c hc
  obtain ⟨hruns, hanswer⟩ := hx c hc
  refine ⟨hruns, ?_⟩
  cases h : (x c).1 with
  | error e =>
    rw [h] at hanswer
    exact hb _ e hanswer
  | ok a =>
    rw [h] at hanswer
    exact hg a hanswer

theorem ofExcept {answer : Except ε α} (hg : ∀ a, answer = .ok a → G a)
    (hb : ∀ c e, answer = .error e → B c e) :
    Confined p G B (Task.ofExcept answer : Task (Course η) ε α) := by
  intro c _
  refine ⟨.refl, ?_⟩
  cases answer with
  | error e => exact hb c e rfl
  | ok a => exact hg a rfl

/-- An outcome of which only the failure matters. -/
theorem checked {answer : Except ε α} (hb : ∀ c e, answer = .error e → B c e) :
    Confined p (fun _ => True) B (Task.ofExcept answer : Task (Course η) ε α) :=
  ofExcept (fun _ _ => trivial) hb

theorem mapError {f : ε → ε'} {B₁ : Course η → ε' → Prop}
    (hx : Confined p G (fun c e => B₁ c (f e)) x) : Confined p G B₁ (Task.mapError f x) := by
  intro c hc
  obtain ⟨hruns, hanswer⟩ := hx c hc
  rw [Task.mapError_apply]
  refine ⟨hruns, ?_⟩
  cases h : (x c).1 with
  | error e =>
    rw [h] at hanswer
    exact hanswer
  | ok a =>
    rw [h] at hanswer
    exact hanswer

/-- The outcome of a task whose failure is as it should be on any course. -/
theorem outcome {B : ε → Prop} {B₁ : Course η → ε' → Prop} (hx : Confined p G (fun _ => B) x) :
    Confined p (fun r : Except ε α => (∀ a, r = .ok a → G a) ∧ ∀ e, r = .error e → B e)
      B₁ (Task.outcome x) := by
  intro c hc
  obtain ⟨hruns, hanswer⟩ := hx c hc
  rw [Task.outcome_apply]
  refine ⟨hruns, ?_⟩
  cases h : (x c).1 with
  | error e =>
    rw [h] at hanswer
    exact ⟨nofun, fun e' he => Except.error.inj he ▸ hanswer⟩
  | ok a =>
    rw [h] at hanswer
    exact ⟨fun a' ha => Except.ok.inj ha ▸ hanswer, nofun⟩

/-- A look at a course. -/
theorem look {f : Course η → α} (h : ∀ c, c.now.Within p → G (f c)) :
    Confined p G B (Task.look f : Task (Course η) ε α) := fun c hc => ⟨.refl, h c hc⟩

theorem files : Confined p (fun _ => True) B (Task.files : Task (Course η) ε FileTree) :=
  look fun _ _ => trivial

theorem directory : Confined p (fun _ => True) B (Task.directory : Task (Course η) ε Place) :=
  look fun _ _ => trivial

theorem change {f : Course η → Course η} (h : ∀ c, Next p c (f c)) :
    Confined p (fun _ => True) B (Task.change f : Task (Course η) ε Unit) :=
  fun c _ => ⟨.single (h c), trivial⟩

theorem report (r : Report) :
    Confined p (fun _ => True) B (Task.report r : Task (Course η) ε Unit) :=
  change fun _ => .leave (.report r)

theorem reportAll (rs : List Report) :
    Confined p (fun _ => True) B (Task.reportAll rs : Task (Course η) ε Unit) := by
  induction rs with
  | nil => exact pure trivial
  | cons r rs ih => exact (report r).bind fun _ _ => ih

/-- The results of a task on each of some things. -/
theorem mapM {γ : Type} {G : γ → Prop} {f : β → Task (Course η) ε γ} {l : List β}
    (h : ∀ b ∈ l, Confined p G B (f b)) :
    Confined p (fun cs => ∀ c ∈ cs, G c) B (l.mapM f) := by
  induction l with
  | nil => exact pure fun _ hc => absurd hc List.not_mem_nil
  | cons b l ih =>
    rw [List.mapM_cons]
    refine bind (h b List.mem_cons_self) fun c hc => ?_
    refine bind (ih fun b' hb' => h b' (List.mem_cons_of_mem _ hb')) fun cs hcs => ?_
    exact pure (List.forall_mem_cons.2 ⟨hc, hcs⟩)

/-- An operation on the files is a step if what it makes of them is. -/
theorem withFiles {f : FileTree → Place → FileTree × Except ε α}
    (h : ∀ s : Session, Change p s (s.setFiles (f s.files s.directory).1))
    (hanswer : ∀ (s : Session) (c : Course η), match (f s.files s.directory).2 with
      | .ok a => G a
      | .error e => B c e) :
    Confined p G B (Task.withFiles f : Task (Course η) ε α) :=
  fun c _ => ⟨.single (.leave (h c.now.session)), hanswer c.now.session _⟩

/-- The files are looked at before a task goes on. -/
theorem examine {f : FileTree → Place → Except ε α} {G₁ : β → Prop}
    {rest : α → Task (Course η) ε β}
    (hb : ∀ (c : Course η) e, f c.now.session.files c.now.session.directory = .error e → B c e)
    (hrest : ∀ a, (∃ t d, f t d = .ok a) → Confined p G₁ B (rest a)) :
    Confined p G₁ B (Task.files >>= fun t => Task.directory >>= fun d =>
      Task.ofExcept (f t d) >>= rest) := by
  intro c hc
  rw [Task.bind_apply_of_ok (Task.files_apply c), Task.bind_apply_of_ok (Task.directory_apply c),
    Task.bind_apply, Task.ofExcept_apply]
  cases h : f (Host.files c) (Host.directory c) with
  | error e => exact ⟨.refl, hb c e h⟩
  | ok a => exact hrest a ⟨_, _, h⟩ c hc

/-- What is outside of the program does whatever it likes. -/
theorem lent {work : Task Session ε α} (hg : ∀ s a, (work s).1 = .ok a → G a)
    (hb : ∀ c s e, (work s).1 = .error e → B c e) :
    Confined p G B (Task.lent work : Task (Course η) ε α) := by
  intro c _
  refine ⟨.single (.outside id id), ?_⟩
  change match (work c.now.session).1 with
    | .ok a => G a
    | .error e => B (Task.lent work c).2 e
  cases h : (work c.now.session).1 with
  | error e => exact hb _ _ e h
  | ok a => exact hg _ a h

end Confined

end StoredRoutine
