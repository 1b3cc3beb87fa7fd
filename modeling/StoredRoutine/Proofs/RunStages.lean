import StoredRoutine.CommandLine.Run
import StoredRoutine.Proofs.CourseSteps
import StoredRoutine.Proofs.DatabaseOperations

/-!
What each stage of a run may do to a course and how it may fail.
-/
namespace StoredRoutine

open CommandLine (Course Moment Runs)

namespace FileTree

variable {t : FileTree} {directory : Place}

theorem grows_settle (p : Path) :
    Grows t (settle t directory p (t.makeDirectory directory p)).1 := by
  cases hm : t.makeDirectory directory p with
  | error f =>
    rw [settle]
    split <;> exact .refl t
  | ok t' =>
    obtain ⟨name, above, -, -, -, -, hnone, rfl⟩ := exists_of_makeDirectory hm
    exact grows_put_directory hnone

theorem grows_makeDirectoriesUp (root : String) (cs : List String) :
    Grows t (makeDirectoriesUp directory root cs t).1 := by
  induction cs generalizing t with
  | nil => exact grows_settle _
  | cons c up ih =>
    have habove : Grows t (makeDirectoriesUp directory root up t).1 := ih
    rw [makeDirectoriesUp]
    split
    · split
      · next hu =>
        rwa [hu] at habove
      · next hu =>
        rw [hu] at habove
        exact habove.trans (grows_settle _)
    · exact grows_settle _

/-- Making directories adds directories at most, whatever their path is. -/
theorem grows_makeDirectories (t : FileTree) (directory : Place) (p : Path) :
    Grows t (t.makeDirectories directory p).1 := by
  rw [makeDirectories]
  split
  · exact .refl t
  · exact grows_makeDirectoriesUp _ _

end FileTree

namespace Log

/-- A log file that is opened lies where its path says, and is made if nothing is there. -/
theorem openLog_cases (t : FileTree) (directory : Place) (path : Path) :
    (∃ f, openLog t directory path = (t, .error f)) ∨
    openLog t directory path = (t, .ok (path.resolve directory).parts) ∨
    t.get? (path.resolve directory).parts = none ∧
      openLog t directory path =
        (t.put (path.resolve directory).parts (.file []), .ok (path.resolve directory).parts) := by
  rw [openLog]
  split
  · exact .inl ⟨_, rfl⟩
  · split
    · exact .inl ⟨_, rfl⟩
    · split
      · next hnone =>
        split
        · exact .inl ⟨_, rfl⟩
        · exact .inr (.inr ⟨hnone, rfl⟩)
      · exact .inr (.inl rfl)
      · exact .inl ⟨_, rfl⟩
      · exact .inl ⟨_, rfl⟩

end Log

section Stages

variable {η ε : Type} {p : Permit} {B : Course η → ε → Prop}

/-- A change of the logging that adds no log file. -/
theorem confined_logging {f : Log.Logging → Log.Logging}
    (h : ∀ l, ∀ target ∈ (f l).handlers.map (·.target),
      target = .console ∨ target ∈ l.handlers.map (·.target)) :
    Confined p (fun _ => True) B (Log.change f : Task (Course η) ε Unit) := by
  refine Confined.change fun c => .leave (.logging _ fun handler hm place ht => .inr ?_)
  rcases h c.now.session.logging handler.target (List.mem_map_of_mem hm) with hc | hold
  · rw [hc] at ht
    cases ht
  · rw [ht] at hold
    exact List.mem_map.1 hold

theorem confined_makeDirectories {B : Course η → AccessFailure → Prop} (path : Path)
    (hb : ∀ c e, B c e) :
    Confined p (fun _ => True) B
      (Task.withFiles fun files directory => files.makeDirectories directory path) := by
  refine Confined.withFiles (fun s => .directories (FileTree.grows_makeDirectories _ _ _))
    fun s c => ?_
  cases (s.files.makeDirectories s.directory path).2 with
  | error e => exact hb c e
  | ok _ => trivial

theorem confined_openLog {B : Course η → AccessFailure → Prop} {path : Path}
    (hb : ∀ c e, B c e) (h : ∀ directory, p.opens (path.resolve directory).parts) :
    Confined p (fun place => p.opens place) B
      (Task.withFiles fun files directory => Log.openLog files directory path) := by
  refine Confined.withFiles (fun s => ?_) fun s c => ?_
  · rcases Log.openLog_cases s.files s.directory path with ⟨f, ho⟩ | ho | ⟨hnew, ho⟩
    · rw [ho]
      exact .directories (.refl _)
    · rw [ho]
      exact .directories (.refl _)
    · rw [ho]
      exact .opened (h _) hnew
  · rcases Log.openLog_cases s.files s.directory path with ⟨f, ho⟩ | ho | ⟨hnew, ho⟩
    · rw [ho]
      exact hb c f
    · rw [ho]
      exact h _
    · rw [ho]
      exact h _

theorem confined_addFileHandler {o : Log.Options} {level : Log.Level}
    (h : ∀ directory path, o.directoryPath = .ok directory → o.pathIn directory = .ok path →
      ∀ here, p.opens (path.resolve here).parts) :
    Confined p (fun _ => True) (fun _ _ => True)
      (Log.addFileHandler o level : Task (Course η) _ Unit) := by
  refine Confined.bind (G := fun directory => o.directoryPath = .ok directory)
    (.ofExcept (fun directory hd => Outcome.mapError_eq_ok_iff.1 hd) fun _ _ _ => trivial)
    fun directory hd => ?_
  refine Confined.bind (.mapError (confined_makeDirectories directory fun _ _ => trivial))
    fun _ _ => ?_
  refine Confined.bind (G := fun path => o.pathIn directory = .ok path)
    (.ofExcept (fun path hp => Outcome.mapError_eq_ok_iff.1 hp) fun _ _ _ => trivial)
    fun path hp => ?_
  refine Confined.bind
    (.mapError (confined_openLog (fun _ _ => trivial) (h directory path hd hp)))
    fun place hopens => ?_
  refine Confined.change fun c => .leave (.logging _ fun handler hm other ht => ?_)
  rcases List.mem_append.1 hm with hm | hm
  · exact .inr ⟨handler, hm, ht⟩
  · obtain rfl := List.mem_singleton.1 hm
    cases ht
    exact .inl hopens

theorem handlers_setLevel (l : Log.Logging) (name : String) (level : Log.Level) :
    (l.setLevel name level).handlers = l.handlers := by
  rw [Log.Logging.setLevel]
  split
  · rfl
  · dsimp only
    split
    · exact Session.handlers_withLogger l name
    · exact Session.handlers_withLogger l name

/-- Logging is set up with the log file of the options at most. -/
theorem confined_setup {o : Log.Options}
    (h : o.file.isNothing = false → ∀ directory path, o.directoryPath = .ok directory →
      o.pathIn directory = .ok path → ∀ here, p.opens (path.resolve here).parts) :
    Confined p (fun _ => True) (fun _ _ => True) (Log.setup o : Task (Course η) _ Unit) := by
  have hlevels : ∀ (names : List String) (level : Log.Level) (l : Log.Logging),
      (names.foldl (·.setLevel · level) l).handlers = l.handlers := fun names level l => by
    induction names generalizing l with
    | nil => rfl
    | cons name names ih => exact (ih _).trans (handlers_setLevel l name level)
  have hrest : Confined p (fun _ => True) (fun _ _ => True) (do
      let libraryLevel ← Task.ofExcept ((Log.Level.namedBy o.libraryLevel).mapError .level)
      Log.change fun l => Log.libraryLoggers.foldl (·.setLevel · libraryLevel) l :
      Task (Course η) Log.SetupFailure Unit) := by
    refine Confined.bind (.checked fun _ _ _ => trivial) fun level _ => ?_
    refine confined_logging fun l target ht => .inr ?_
    rwa [hlevels] at ht
  rw [Log.setup]
  refine Confined.bind (.checked fun _ _ _ => trivial) fun level _ => ?_
  refine Confined.bind (confined_logging fun l target ht => ?_) fun _ _ => ?_
  · cases ht
  · refine Confined.optional (fun _ => ?_) (Confined.optional (fun hfile => ?_) hrest)
    · refine confined_logging fun l target ht => ?_
      rw [List.map_append, List.mem_append] at ht
      exact ht.symm.imp_left List.mem_singleton.1
    · exact confined_addFileHandler (h (by simpa using hfile))

end Stages

namespace FileTree

variable {t : FileTree} {directory : Place} {path : String}

/-- Nothing but the length of a path keeps from telling what it names. -/
theorem error_of_find? {f : OsFailure} (h : t.find? directory path = .error f) :
    f.error = .nameTooLong := by
  rw [find?] at h
  split at h
  · cases h
  · split at h
    · cases h
    · rw [← Except.error.inj h]
    · cases h

theorem error_of_hasFile {f : OsFailure} (h : t.hasFile directory path = .error f) :
    f.error = .nameTooLong := by
  rw [hasFile] at h
  cases hf : t.find? directory path with
  | error f' =>
    rw [hf] at h
    rw [← Except.error.inj h]
    exact error_of_find? hf
  | ok node =>
    rw [hf] at h
    cases h

/-- What is asked about as a file can be a path. -/
theorem contains_nul_of_hasFile (h : t.hasFile directory path = .ok true) :
    path.contains '\x00' = false := by
  by_contra hnul
  rw [hasFile, find?, if_pos (by simpa using hnul)] at h
  cases h

end FileTree

namespace FileTree

/-- How a text may fail to be read. -/
theorem error_of_readUtf8 {t : FileTree} {directory : Place} {path : String} {f : AccessFailure}
    (h : t.readUtf8 directory path = .error f) :
    f = .nulByte ∧ path.contains '\x00' = true ∨ (∃ failure, f = .os failure) ∨
      ∃ fault, f = .undecodable fault ∧ t.Undecodable directory path .utf8 fault := by
  cases hnul : path.contains '\x00' with
  | true =>
    rw [readUtf8_eq_bind, readBytes, if_pos hnul] at h
    exact .inl ⟨(Except.error.inj h).symm, rfl⟩
  | false =>
    rw [readUtf8_eq_bind] at h
    rcases Outcome.bind_eq_error_iff.1 h with hr | ⟨content, hr, hd⟩
    · rw [readBytes, hnul] at hr
      simp only [Bool.false_eq_true, if_false] at hr
      split at hr
      · exact .inr (.inl ⟨_, (Except.error.inj hr).symm⟩)
      · split at hr
        · cases hr
        · exact .inr (.inl ⟨_, (Except.error.inj hr).symm⟩)
        · exact .inr (.inl ⟨_, (Except.error.inj hr).symm⟩)
    · obtain ⟨fault, hfault, rfl⟩ := Outcome.mapError_eq_error_iff.1 hd
      obtain ⟨place, hl, hg⟩ := (readBytes_eq_ok_iff hnul).1 hr
      exact .inr (.inr ⟨fault, rfl, content, node?_eq_some_iff.2 ⟨hnul, place, hl, hg⟩, hfault⟩)

end FileTree

section Reading

variable {η : Type} {p : Permit}

/-- A course that came by a session in which the file at a path was no text. -/
def CommandLine.Course.SawUndecodable (c : Course η) (path : String) (fault : Encoding.DecodeFault) :
    Prop :=
  c.Saw fun s => s.files.Undecodable s.directory path .utf8 fault

/-- How the values of a file may fail to be read. -/
inductive EnvFile.Unread (reader : Reader) (environment : Environment) (path : String)
    (c : Course η) : ReadFailure → Prop where
  | missing (path' : String) : Unread reader environment path c (.missing path')
  | system (failure : OsFailure) : Unread reader environment path c (.access (.os failure))
  | undecodable {fault : Encoding.DecodeFault}
    (h : c.SawUndecodable (Path.ofString path).toString fault) :
    Unread reader environment path c (.access (.undecodable fault))
  | raised {text : Text} {fault : Raised} (h : (reader.read environment text).1 = .error fault) :
    Unread reader environment path c (.raised fault)

theorem EnvFile.Unread.mono {reader : Reader} {environment : Environment} {path : String}
    {c c' : Course η} {f : ReadFailure} (hc : Runs p c c')
    (h : EnvFile.Unread reader environment path c f) :
    EnvFile.Unread reader environment path c' f := by
  cases h with
  | missing path' => exact .missing path'
  | system failure => exact .system failure
  | undecodable h => exact .undecodable (hc.saw h)
  | raised h => exact .raised h

/-- A path that is asked about as a file is read only if it can be a path at all. -/
theorem confined_readDefinitions (reader : EnvFile.Reader) (environment : Environment)
    {path : String} (hnul : (Path.ofString path).toString.contains '\x00' = false) :
    Confined p (fun _ => True) (EnvFile.Unread reader environment path)
      (EnvFile.readDefinitions reader environment (Path.ofString path).toString :
        Task (Course η) _ _) := by
  refine Confined.examine (fun c e he => ?_) fun text _ => ?_
  · obtain ⟨f, hf, rfl⟩ := Outcome.mapError_eq_error_iff.1 he
    rcases FileTree.error_of_readUtf8 hf with ⟨-, h⟩ | ⟨failure, rfl⟩ | ⟨fault, rfl, hbad⟩
    · rw [hnul] at h
      cases h
    · exact .system failure
    · exact .undecodable (.inl hbad)
  · refine Confined.bind (.reportAll _) fun _ _ => .checked fun c e he => ?_
    obtain ⟨fault, hfault, rfl⟩ := Outcome.mapError_eq_error_iff.1 he
    exact .raised hfault

theorem confined_readValues (reader : EnvFile.Reader) (environment : Environment) (path : String) :
    Confined p (fun _ => True) (EnvFile.Unread reader environment path)
      (EnvFile.readValues reader environment path : Task (Course η) _ _) := by
  refine Confined.examine (fun c e he => ?_) fun there hthere => Confined.ite (fun hc => ?_)
    fun _ => .throw fun _ => .missing _
  · obtain ⟨failure, -, rfl⟩ := Outcome.mapError_eq_error_iff.1 he
    exact .system failure
  · obtain ⟨t, d, hfile⟩ := hthere
    have hnul := FileTree.contains_nul_of_hasFile (hc ▸ Outcome.mapError_eq_ok_iff.1 hfile)
    exact Confined.bind (confined_readDefinitions reader environment hnul) fun _ _ => .pure trivial

end Reading

namespace Scratch

variable {η : Type}

section Files

variable {p : Permit} {ε : Type} {B : Course η → ε → Prop} {scratch : Scratch η}

theorem within_attend {m : Moment η} (h : m.Within p) (handle : Option η) (files : FileTree) :
    (m.attend handle files).Within p := by
  intro scratch hs path hpath
  obtain ⟨scratch', hs', rfl⟩ := Option.map_eq_some_iff.1 hs
  exact h scratch' hs' path hpath

theorem confined_attend (live : Live η) :
    Confined p (fun _ => True) B (attend live : Task (Course η) ε Unit) :=
  .change fun _ => .outside id fun h => within_attend h _ _

theorem confined_attendAll (lives : List (Live η)) :
    Confined p (fun _ => True) B (attendAll lives : Task (Course η) ε Unit) := by
  induction lives with
  | nil => exact Confined.pure trivial
  | cons live lives ih => exact (confined_attend live).bind fun _ _ => ih

/-- Work on a database is done by its engine, and the database stays where it is. -/
theorem confined_perform {α : Type} (work : Database.Work (Filmed (Live η)) α)
    (scratch : Scratch η) :
    Confined p (fun r => r.2.path = scratch.path ∧
        ∃ live, r.1 = (work ⟨.begin live, scratch.database.isOpen⟩).1) B
      (scratch.perform work : Task (Course η) ε _) := by
  refine Confined.bind .files fun files _ => ?_
  dsimp only
  split
  next answer database hw =>
    exact Confined.bind (confined_attendAll _) fun _ _ => .pure ⟨rfl, _, by rw [hw]⟩

/-- A scratch database whose file may be removed. -/
def MayGo (p : Permit) (scratch : Scratch η) : Prop :=
  ∀ path, scratch.path = some path → p.removes path.parts

/-- Why the file of a scratch database cannot be removed: it is a directory by now. -/
def Unremovable (c : Course η) (f : AccessFailure) : Prop :=
  ∃ path : Path, f = .os ⟨.isDirectory, path.toString, none⟩ ∧
    c.Saw fun s => s.files.get? path.parts = some .directory

theorem confined_removeFile (hk : scratch.MayGo p) :
    Confined p (fun _ => True) Unremovable
      (scratch.removeFile : Task (Course η) AccessFailure Unit) := by
  rw [removeFile]
  cases hpath : scratch.path with
  | none => exact Confined.pure trivial
  | some path =>
    refine Confined.ite (fun _ c hc => ?_) fun _ => .pure trivial
    rw [Task.bind_apply_of_ok (Task.files_apply c)]
    cases hget : (Host.files c).get? path.parts with
    | none => exact ⟨.refl, trivial⟩
    | some node =>
      cases node with
      | directory => exact ⟨.refl, path, rfl, .inl hget⟩
      | file content =>
        refine Confined.bind (G := fun _ => True) (B := Unremovable)
          (.withFiles (fun s => ?_) fun _ _ => trivial) (fun _ _ => .report _) c hc
        exact .removed (hk path hpath)

end Files

variable [Engine η]

/-- How a scratch database may fail to be opened. -/
inductive Unopened (path script : Option String) (c : Course η) : OpenFailure → Prop where
  | emptyPath (h : path = some "") : Unopened path script c .emptyPath
  | system (failure : OsFailure) : Unopened path script c (.access (.os failure))
  | nulByte {q : String} (h : script = some q) (hn : q.contains '\x00' = true) :
    Unopened path script c (.access .nulByte)
  | undecodable {q : String} {fault : Encoding.DecodeFault} (h : script = some q)
    (hs : c.SawUndecodable (Path.ofString q).toString fault) :
    Unopened path script c (.access (.undecodable fault))
  /-- The engine makes no connection. -/
  | raised {at? : Option Path} {directory : Place} {t t' : FileTree} {fault : Raised}
    (h : Engine.connect (η := η) at? directory t = (.error fault, t')) :
    Unopened path script c (.raised fault)
  /-- The script fails on some connection. -/
  | seeding {text : Text} {live : Live η} {failure : Failure} {db : Database (Live η)}
    (h : Database.executeScript text ⟨live, true⟩ = (.error failure, db)) :
    Unopened path script c (.seeding failure)

theorem Unopened.mono {p : Permit} {path script : Option String} {c c' : Course η}
    {f : OpenFailure} (hc : CommandLine.Runs p c c') (h : Unopened path script c f) :
    Unopened path script c' f := by
  cases h with
  | emptyPath h => exact .emptyPath h
  | system failure => exact .system failure
  | nulByte h hn => exact .nulByte h hn
  | undecodable h hs => exact .undecodable h (hc.saw hs)
  | raised h => exact .raised h
  | seeding h => exact .seeding h

section Stages

variable {p : Permit} {ε : Type} {B : Course η → ε → Prop} {scratch : Scratch η}

theorem confined_close (hk : scratch.MayGo p) :
    Confined p (fun _ => True) Unremovable
      (scratch.close : Task (Course η) AccessFailure Unit) := by
  refine Confined.ite (fun _ => Confined.bind .files fun _ _ => ?_) fun _ => .pure trivial
  exact Confined.bind (confined_attend _) fun _ _ => confined_removeFile hk

theorem confined_readScript {path script : Option String} {q : String} (hq : script = some q) :
    Confined p (fun _ => True) (fun c f => Unopened path script c (.access f))
      (readScript q : Task (Course η) AccessFailure Text) := by
  refine Confined.examine (fun c f hf => ?_) fun text _ => .pure trivial
  rcases FileTree.error_of_readUtf8 hf with ⟨rfl, hnul⟩ | ⟨failure, rfl⟩ | ⟨fault, rfl, hbad⟩
  · refine .nulByte hq ?_
    by_contra h
    rw [Path.contains_nul_ofString (Bool.eq_false_iff.2 h)] at hnul
    cases hnul
  · exact .system failure
  · exact .undecodable hq (.inl hbad)

/-- A script that fails on a filmed connection fails on one that is not. -/
theorem unopened_seeding {path script : Option String} {c : Course η} {text : Text} {live : Live η}
    {failure : Failure}
    (h : (.error failure : Except Failure Nat) =
      (Database.executeScript text ⟨Filmed.begin live, true⟩).1) :
    Unopened path script c (.seeding failure) := by
  obtain ⟨answer, _, _, hfilmed, hlive, -⟩ :=
    (Filmed.alike live).executeScript text _ _ (Filmed.shows_begin live)
  rw [hfilmed] at h
  obtain rfl : .error failure = answer := h
  exact .seeding hlive

theorem confined_seed {path script : Option String} {q : String} (hq : script = some q)
    (hk : scratch.MayGo p) (hopen : scratch.database.isOpen = true) :
    Confined p (fun scratch => scratch.MayGo p) (fun c a => Unopened path script c a.failure)
      (scratch.seed q : Task (Course η) (Abandoned η) (Scratch η)) := by
  refine Confined.bind (.mapError (confined_readScript hq)) fun text _ => ?_
  refine Confined.bind (confined_perform _ _) fun r hr => ?_
  obtain ⟨answer, scratch'⟩ := r
  obtain ⟨hpath, live, hanswer⟩ := hr
  rw [hopen] at hanswer
  have hk' : scratch'.MayGo p := fun path h => hk path (hpath.symm.trans h)
  cases answer with
  | ok count => exact Confined.bind (.report _) fun _ _ => .pure hk'
  | error failure =>
    have hthrow : Confined p (fun scratch => scratch.MayGo p)
        (fun c a => Unopened path script c a.failure)
        (throw ⟨.seeding failure, scratch'⟩ : Task (Course η) (Abandoned η) (Scratch η)) :=
      .throw fun _ => unopened_seeding hanswer
    cases failure with
    | statement failure =>
      refine Confined.bind (.mapError ((confined_close hk').mono (fun _ h => h) ?_)) fun _ _ =>
        .throw fun _ => unopened_seeding hanswer
      rintro c _ ⟨place, rfl, -⟩
      exact .system _
    | _ => exact hthrow

theorem confined_seedIfAny {path script : Option String} (hk : scratch.MayGo p)
    (hopen : scratch.database.isOpen = true) :
    Confined p (fun scratch => scratch.MayGo p) (fun c a => Unopened path script c a.failure)
      (scratch.seedIfAny script : Task (Course η) (Abandoned η) (Scratch η)) := by
  cases script with
  | none => exact Confined.pure hk
  | some q => exact confined_seed rfl hk hopen

theorem confined_connect (at? : Option Path) (path script : Option String) :
    Confined p (fun _ => True) (Unopened path script)
      (connect at? : Task (Course η) OpenFailure η) := by
  intro c _
  obtain ⟨answer, t, hconnect⟩ : ∃ answer t, Engine.connect (η := η) at? (Host.directory c)
      (Host.files c) = (answer, t) := ⟨_, _, rfl⟩
  have happly : (connect at? : Task (Course η) OpenFailure η) c =
      (answer.mapError .raised, Site.attend answer.toOption t c) := by
    rw [connect, hconnect]
  rw [happly]
  refine ⟨.single (.outside id fun h => within_attend h _ _), ?_⟩
  cases answer with
  | ok handle => trivial
  | error fault => exact .raised hconnect

/-- A database is opened where its path says. -/
theorem confined_connectFile {q : String} {script : Option String} (volatile : Bool)
    (hk : ∀ directory, p.removes ((Path.ofString q).resolve directory).parts) :
    Confined p (fun r => r.1.database.isOpen = true ∧ r.1.MayGo p) (Unopened (some q) script)
      (connectFile q volatile : Task (Course η) OpenFailure (Scratch η × Bool)) := by
  have hconnect : ∀ there : Bool,
      Confined p (fun r => r.1.database.isOpen = true ∧ r.1.MayGo p) (Unopened (some q) script) (do
          let connection ← connect (some (.ofString q))
          let place := (Path.ofString q).resolve (← Task.directory)
          Task.report (.debug databaseLog s!"Opened scratch database {place}")
          return (⟨⟨connection, true⟩, some place, volatile⟩, volatile || !there) :
            Task (Course η) OpenFailure (Scratch η × Bool)) := fun there => by
    refine Confined.bind (confined_connect _ _ _) fun connection _ => ?_
    refine Confined.bind .directory fun directory _ => ?_
    refine Confined.bind (.report _) fun _ _ => .pure ⟨rfl, fun path h => ?_⟩
    obtain rfl := Option.some.inj h
    exact hk directory
  refine Confined.examine (fun c f hf => ?_) fun there _ => Confined.ite (fun _ => ?_)
    fun _ => hconnect there
  · obtain ⟨failure, -, rfl⟩ := Outcome.mapError_eq_error_iff.1 hf
    exact .system failure
  · refine Confined.bind .directory fun directory _ => ?_
    exact Confined.bind (G := fun _ => True)
      (.withFiles (fun s => .removed (hk directory)) fun _ _ => trivial) fun _ _ => hconnect there

/-- Opening a scratch database removes the file at its path at most. -/
theorem confined_openAt {path script : Option String} (volatile : Bool)
    (hk : ∀ q, path = some q → ∀ directory, p.removes ((Path.ofString q).resolve directory).parts) :
    Confined p (fun scratch => scratch.MayGo p) (Unopened path script)
      (openAt path script volatile : Task (Course η) OpenFailure (Scratch η)) := by
  refine Confined.mapError ?_
  cases path with
  | none =>
    refine Confined.bind (.mapError (confined_connect _ _ _)) fun connection _ => ?_
    refine Confined.bind (.report _) fun _ _ => ?_
    exact confined_seedIfAny (fun _ h => nomatch h) rfl
  | some q =>
    refine Confined.ite (fun hempty => .throw fun _ => ?_) fun _ => ?_
    · rw [String.isEmpty_iff] at hempty
      exact .emptyPath (congrArg some hempty)
    · refine Confined.bind (.mapError (confined_connectFile volatile (hk q rfl))) fun r hr => ?_
      exact Confined.ite (fun _ => confined_seedIfAny hr.2 hr.1) fun _ => .pure hr.2

end Stages

end Scratch

end StoredRoutine
