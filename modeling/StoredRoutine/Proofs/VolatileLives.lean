import StoredRoutine.Proofs.DurableDatabases

/-!
The life of a volatile database over calls that open it, operations and closes. Whoever closes an
instance removes the file, and so does a call whose script is refused; but a call that cannot read its
script gives up without closing, and so does one whose script comes to anything else than a refused
statement. They leave the file and the connection that they made, and nobody else does.
-/
namespace StoredRoutine.Scratch.Volatile

/-- A call that opens a database: the script it is given, and the state it is made in. -/
structure Call (σ : Type) where
  script : Option String
  before : σ

structure Life (σ η : Type) where
  host : σ
  /-- The instances that calls returned. -/
  opened : List (Scratch η)
  /-- What calls had connected that gave up. -/
  abandoned : List (Scratch η)
  calls : List (Call σ)

inductive Attempt where
  | construct (script : Option String)
  | operate (i : Nat) (op : Database.Operation)
  | close (i : Nat)
  deriving DecidableEq, Repr

/-- What a call had connected, if it gave up after that. -/
def leftBy {η : Type} : Except (Abandoned η) (Scratch η) → List (Scratch η)
  | .ok _ => []
  | .error failed => failed.left.toList

/-- A volatile database whose file lies at a path. -/
structure At {η : Type} (path : Path) (scratch : Scratch η) : Prop where
  path : scratch.path = some path
  volatile : scratch.volatile = true

section Replaced

variable {η : Type} {opened : List (Scratch η)} {i : Nat} {scratch other : Scratch η}

/-- An instance that is put in the place of another one, while nothing else is open. -/
theorem forall_closed_of_set (hi : opened[i]? = some scratch)
    (hclosed : scratch.database.isOpen = false)
    (h : ∀ scratch ∈ opened.set i other, scratch.database.isOpen = false) :
    ∀ scratch ∈ opened, scratch.database.isOpen = false := by
  intro before hbefore
  obtain ⟨j, hj⟩ := List.getElem?_of_mem hbefore
  by_cases hij : i = j
  · rw [hij] at hi
    rw [← Option.some.inj (hi.symm.trans hj)]
    exact hclosed
  · refine h before (List.mem_of_getElem? (i := j) ?_)
    rw [List.getElem?_set_ne hij, hj]

theorem forall_at_of_set {place : Path} (h : ∀ scratch ∈ opened, At place scratch)
    (hother : At place other) : ∀ scratch ∈ opened.set i other, At place scratch := by
  intro scratch hm
  rcases List.mem_or_eq_of_mem_set hm with hm | rfl
  · exact h scratch hm
  · exact hother

end Replaced

variable {σ η : Type} [Host σ] [Engine η]

namespace Call

/-- A call came to a connection. -/
def Connected (η : Type) [Engine η] (path : String) (call : Call σ) : Prop :=
  ∃ there, ∃ fresh : Live η, Connects path true call.before there fresh

/-- A call came to a connection, and then could not read its script. -/
def Unread (η : Type) [Engine η] (path : String) (call : Call σ) : Prop :=
  ∃ fresh : Live η, ∃ f, Misses path call.script true call.before fresh f

/-- A call came to a connection and read its script, which failed otherwise than by a refused
statement: a commit or a rollback raised something, or what was raised was no answer to a statement. -/
def Raises (η : Type) [Engine η] (path : String) (call : Call σ) : Prop :=
  ∃ raw, ∃ fresh : Live η, ∃ failure db, Runs path call.script true call.before raw fresh ∧
    Database.executeScript raw.unifyBreaks ⟨fresh, true⟩ = (.error failure, db) ∧
    ∀ f, failure ≠ .statement f

variable {path : String} {call : Call σ}

theorem Unread.connected (h : call.Unread η path) : call.Connected η path := by
  obtain ⟨fresh, _, hmisses⟩ := h
  obtain ⟨there, -, hconnects⟩ := hmisses.connects
  exact ⟨there, fresh, hconnects⟩

theorem Raises.connected (h : call.Raises η path) : call.Connected η path := by
  obtain ⟨_, fresh, _, _, hruns, -⟩ := h
  obtain ⟨there, -, hconnects⟩ := hruns.connects
  exact ⟨there, fresh, hconnects⟩

/-- A call without script neither misses nor runs one. -/
theorem reads_of_none (h : call.script = none) : ¬ call.Unread η path ∧ ¬ call.Raises η path := by
  constructor
  · rintro ⟨_, _, hmisses⟩
    obtain ⟨name, hname, -⟩ := hmisses.misses
    cases h.symm.trans hname
  · rintro ⟨_, _, _, _, hruns, -⟩
    obtain ⟨name, hname, -⟩ := hruns.reads
    cases h.symm.trans hname

/-- A call whose script was run, with success or up to a refused statement. -/
theorem reads_of_runs (call : Call σ) {raw : Text} {fresh : Live η} {answer : Except Failure Nat}
    {db : Database (Live η)} (h : Runs path call.script true call.before raw fresh)
    (hanswer : Database.executeScript raw.unifyBreaks ⟨fresh, true⟩ = (answer, db))
    (hrefused : ∀ failure, answer = .error failure → ∃ f, failure = .statement f) :
    ¬ call.Unread η path ∧ ¬ call.Raises η path := by
  constructor
  · rintro ⟨_, _, hmisses⟩
    exact h.not_misses hmisses
  · rintro ⟨raw', fresh', failure, db', hruns, hraised, hother⟩
    obtain ⟨rfl, rfl⟩ := h.unique hruns
    obtain ⟨f, rfl⟩ := hrefused failure (Prod.mk.inj (hanswer.symm.trans hraised)).1
    exact hother f rfl

end Call

/-- A failed attempt to connect makes no file at a path. -/
def RefusesCleanly (η : Type) [Engine η] (path : Path) (directory : Place) : Prop :=
  ∀ files fault files', Engine.connect (η := η) (some path) directory files = (.error fault, files') →
    NoFile (path.resolve directory).parts files → NoFile (path.resolve directory).parts files'

/-- What holds after any number of attempts. -/
structure Life.Sound (path : String) (directory : Place) (life : Life σ η) : Prop where
  host : Host.directory life.host = directory
  lies : ∀ scratch ∈ life.opened, At ((Path.ofString path).resolve directory) scratch
  clean : (∃ call ∈ life.calls, call.Connected η path) →
    (∀ scratch ∈ life.opened, scratch.database.isOpen = false) →
    (∀ scratch ∈ life.abandoned, scratch.database.isOpen = false) →
      NoFile ((Path.ofString path).resolve directory).parts (Host.files life.host)
  left : (∀ scratch ∈ life.abandoned, scratch.database.isOpen = false) ↔
    ∀ call ∈ life.calls, ¬ call.Unread η path ∧ ¬ call.Raises η path

namespace Life

def start (s : σ) : Life σ η := ⟨s, [], [], []⟩

theorem sound_start (path : String) (s : σ) :
    (start s : Life σ η).Sound path (Host.directory s) where
  host := rfl
  lies := by simp [start]
  clean h := by simp [start] at h
  left := by simp [start]

variable [Site σ η]

def construct (path : String) (script : Option String) (life : Life σ η) : Life σ η :=
  let (outcome, host) := attemptAt (some path) script true life.host
  ⟨host, life.opened ++ outcome.toOption.toList, life.abandoned ++ leftBy outcome,
    life.calls ++ [⟨script, life.host⟩]⟩

/-- An operation on an instance by its number, if there is one. -/
def operate (i : Nat) (op : Database.Operation) (life : Life σ η) : Life σ η :=
  match life.opened[i]? with
  | none => life
  | some scratch =>
    match (scratch.perform op.work : Task σ OpenFailure _) life.host with
    | (.ok (_, scratch), host) => { life with host, opened := life.opened.set i scratch }
    | (.error _, host) => { life with host }

/-- Closes an instance by its number, if there is one. -/
def close (i : Nat) (life : Life σ η) : Life σ η :=
  match life.opened[i]? with
  | none => life
  | some scratch =>
    { life with host := (scratch.close life.host).2, opened := life.opened.set i scratch.closed }

def step (path : String) (life : Life σ η) : Attempt → Life σ η
  | .construct script => life.construct path script
  | .operate i op => life.operate i op
  | .close i => life.close i

def run (path : String) (life : Life σ η) (attempts : List Attempt) : Life σ η :=
  attempts.foldl (step path) life

end Life

section Invariant

variable {path : String} {directory : Place} {life : Life σ η} {i : Nat}

/-- One more call, with what it returned and what it left. -/
theorem Life.Sound.append (h : life.Sound path directory) (call : Call σ) {s' : σ}
    {returned left : List (Scratch η)} (hd : Host.directory s' = directory)
    (hlies : ∀ scratch ∈ returned, At ((Path.ofString path).resolve directory) scratch)
    (hclean : (∀ scratch ∈ returned ++ left, scratch.database.isOpen = false) →
      NoFile ((Path.ofString path).resolve directory).parts (Host.files life.host) ∨
          call.Connected η path →
        NoFile ((Path.ofString path).resolve directory).parts (Host.files s'))
    (hleft : (∀ scratch ∈ left, scratch.database.isOpen = false) ↔
      ¬ call.Unread η path ∧ ¬ call.Raises η path) :
    Life.Sound path directory
      ⟨s', life.opened ++ returned, life.abandoned ++ left, life.calls ++ [call]⟩ where
  host := hd
  lies := List.forall_mem_append.2 ⟨h.lies, hlies⟩
  clean := by
    intro ⟨connected, hm, hc⟩ hopened habandoned
    obtain ⟨hbefore, hreturned⟩ := List.forall_mem_append.1 hopened
    obtain ⟨habandoned, hleft⟩ := List.forall_mem_append.1 habandoned
    refine hclean (List.forall_mem_append.2 ⟨hreturned, hleft⟩) ?_
    rcases List.mem_append.1 hm with hm | hm
    · exact .inl (h.clean ⟨connected, hm, hc⟩ hbefore habandoned)
    · rw [List.mem_singleton.1 hm] at hc
      exact .inr hc
  left := by
    rw [List.forall_mem_append, List.forall_mem_append, h.left, hleft, List.forall_mem_singleton]

variable [Site σ η] [LawfulSite σ η]

theorem Life.Sound.operate (h : life.Sound path directory) (i : Nat) (op : Database.Operation) :
    (life.operate i op).Sound path directory := by
  cases hi : life.opened[i]? with
  | none =>
    rw [Life.operate, hi]
    exact h
  | some scratch =>
    have hat := h.lies scratch (List.mem_of_getElem? hi)
    obtain ⟨answer, database, s', hwork, hd, hopen, hfiles⟩ :=
      perform_outcome (ε := OpenFailure) op.steady_work scratch life.host
    rw [Life.operate, hi]
    simp only [hwork]
    refine ⟨hd.trans h.host, forall_at_of_set h.lies ⟨hat.path, hat.volatile⟩, ?_, h.left⟩
    intro hcalls hall habandoned
    -- the instance is closed after the operation, so it was before, and nothing was done
    have hclosed : scratch.database.isOpen = false := by
      rw [← hopen]
      exact hall _ (List.mem_set (List.getElem?_eq_some_iff.1 hi).1 _)
    rw [hfiles hclosed]
    exact h.clean hcalls (forall_closed_of_set hi hclosed hall) habandoned

variable [LawfulHost σ]

theorem Life.Sound.close (h : life.Sound path directory) (i : Nat) :
    (life.close i).Sound path directory := by
  cases hi : life.opened[i]? with
  | none =>
    rw [Life.close, hi]
    exact h
  | some scratch =>
    have hat := h.lies scratch (List.mem_of_getElem? hi)
    rw [Life.close, hi]
    cases hopen : scratch.database.isOpen with
    | true =>
      -- an open instance takes the file along
      obtain ⟨outcome, s', hclose, hd, -, hgone⟩ := Scratch.close_outcome scratch hopen life.host
      simp only [hclose]
      exact ⟨hd.trans h.host, forall_at_of_set h.lies ⟨hat.path, hat.volatile⟩,
        fun _ _ _ => hgone hat.volatile _ hat.path, h.left⟩
    | false =>
      simp only [close_of_closed hopen]
      refine ⟨h.host, forall_at_of_set h.lies ⟨hat.path, hat.volatile⟩, ?_, h.left⟩
      exact fun hcalls hall habandoned =>
        h.clean hcalls (forall_closed_of_set hi hopen hall) habandoned

theorem Life.Sound.construct (hrefuses : RefusesCleanly η (Path.ofString path) directory)
    (h : life.Sound path directory) (script : Option String) :
    (life.construct path script).Sound path directory := by
  obtain ⟨outcome, s', hattempt, hd, hattempted⟩ :=
    attempted_attemptAt (η := η) path script true life.host
  have hplace : filePlace path life.host = (Path.ofString path).resolve directory := by
    rw [filePlace, h.host]
  have hopened : ∀ connection : η, At ((Path.ofString path).resolve directory)
      (Scratch.opened path true life.host connection) := fun _ => ⟨congrArg some hplace, rfl⟩
  have hopen : ∀ connection : η,
      ¬ (Scratch.opened path true life.host connection).database.isOpen = false :=
    fun _ h => by cases h
  replace hd := hd.trans h.host
  rw [Life.construct, hattempt]
  cases hattempted with
  | refused refused files =>
    refine h.append ⟨script, life.host⟩ hd (by simp [Except.toOption]) (fun _ hor => ?_) ?_
    · have hnone := hor.resolve_right (by
        rintro ⟨there, fresh, hc⟩
        exact refused there fresh hc)
      rcases files with files | ⟨there, fault, hconnect⟩
      · rw [files]
        exact hnone
      · rw [h.host] at hconnect
        refine hrefuses _ fault _ hconnect ?_
        rw [cleared]
        split
        · rw [hplace]
          exact noFile_remove _ _
        · exact hnone
    · refine iff_of_true (by simp [leftBy]) ⟨fun hunread => ?_, fun hraises => ?_⟩
      · obtain ⟨there, fresh, hc⟩ := hunread.connected
        exact refused there fresh hc
      · obtain ⟨there, fresh, hc⟩ := hraises.connected
        exact refused there fresh hc
  | unseeded connects nothing =>
    obtain rfl : script = none := by simpa using nothing
    refine h.append ⟨none, life.host⟩ hd (by simpa [Except.toOption] using hopened _)
      (fun hall _ => ?_) ?_
    · exact absurd (hall _ (List.mem_append_left _ (List.mem_singleton_self _))) (hopen _)
    · exact iff_of_true (by simp [leftBy]) (Call.reads_of_none rfl)
  | unread misses =>
    refine h.append ⟨script, life.host⟩ hd (by simp [Except.toOption])
      (fun hall _ => ?_) (iff_of_false (fun hall => ?_) fun hreads => hreads.1 ⟨_, _, misses⟩)
    · exact absurd (hall _ (List.mem_singleton_self _)) (hopen _)
    · exact hopen _ (hall _ (List.mem_singleton_self _))
  | seeded runs answer =>
    refine h.append ⟨script, life.host⟩ hd (by simpa [Except.toOption] using hopened _)
      (fun hall _ => ?_) ?_
    · exact absurd (hall _ (List.mem_append_left _ (List.mem_singleton_self _))) (hopen _)
    · exact iff_of_true (by simp [leftBy])
        (Call.reads_of_runs ⟨script, life.host⟩ runs answer fun _ hf => by cases hf)
  | closed runs answer file =>
    refine h.append ⟨script, life.host⟩ hd (by simp [Except.toOption]) (fun _ _ => ?_) ?_
    · rw [← hplace]
      exact file rfl
    · refine iff_of_true (by simp [leftBy, closed])
        (Call.reads_of_runs ⟨script, life.host⟩ runs answer fun failure hf => ?_)
      exact ⟨_, (Except.error.inj hf).symm⟩
  | raised runs answer other =>
    refine h.append ⟨script, life.host⟩ hd (by simp [Except.toOption])
      (fun hall _ => ?_) (iff_of_false (fun hall => ?_) fun hreads =>
        hreads.2 ⟨_, _, _, _, runs, answer, other⟩)
    · exact absurd (hall _ (List.mem_singleton_self _)) (hopen _)
    · exact hopen _ (hall _ (List.mem_singleton_self _))

theorem Life.Sound.run (hrefuses : RefusesCleanly η (Path.ofString path) directory)
    (h : life.Sound path directory) (attempts : List Attempt) :
    (life.run path attempts).Sound path directory := by
  induction attempts generalizing life with
  | nil => exact h
  | cons a attempts ih =>
    -- each attempt keeps soundness, so the rest may start from where it leads
    cases a with
    | construct script => exact ih (h.construct hrefuses script)
    | operate i op => exact ih (h.operate i op)
    | close i => exact ih (h.close i)

end Invariant

section Sample

end Sample

end StoredRoutine.Scratch.Volatile
