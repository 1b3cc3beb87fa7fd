import StoredRoutine.Proofs.DatabaseOperations
import StoredRoutine.Proofs.ScriptRuns
import StoredRoutine.Proofs.TreeChanges
import StoredRoutine.Scratch.Basic

/-!
Opening a scratch database in a file and closing it again, over any engine. What the engine does to
the files is its own business; what the program adds to it is told here once, for every way in which
an attempt can end.
-/
namespace StoredRoutine.Scratch

/-- A state that holds the files that a call leaves. -/
class LawfulSite (σ η : Type) [Host σ] [Site σ η] : Prop where
  files_attend : ∀ (handle : Option η) (files : FileTree) (s : σ),
    Host.files (Site.attend handle files s) = files
  directory_attend : ∀ (handle : Option η) (files : FileTree) (s : σ),
    Host.directory (Site.attend handle files s) = Host.directory s

attribute [simp] LawfulSite.files_attend LawfulSite.directory_attend

instance (η : Type) : LawfulSite Workspace η := ⟨fun _ _ _ => rfl, fun _ _ _ => rfl⟩

/-- There is no file at a place. -/
def NoFile (place : Place) (files : FileTree) : Prop :=
  ∀ content, files.get? place ≠ some (.file content)

theorem noFile_remove (files : FileTree) (place : Place) : NoFile place (files.remove place) := by
  intro content
  by_cases h : place = []
  · rw [h, FileTree.get?_root]
    simp
  · rw [FileTree.get?_of_ne_nil h, FileTree.remove, OrderedMap.get?_erase, if_pos rfl]
    simp

variable {σ η ε : Type} [Host σ]

section Calls

/-- The file of a volatile database is gone once it was to be removed. -/
theorem removeFile_outcome [LawfulHost σ] (scratch : Scratch η) (s : σ) :
    ∃ outcome s', removeFile scratch s = (outcome, s') ∧
      Host.directory s' = Host.directory s ∧
      (scratch.volatile = false → outcome = .ok () ∧ Host.files s' = Host.files s) ∧
      (scratch.volatile = true → ∀ path, scratch.path = some path →
        NoFile path.parts (Host.files s')) := by
  obtain ⟨database, path, volatile⟩ := scratch
  rw [removeFile]
  match path, volatile with
  | none, _ => exact ⟨_, s, rfl, rfl, fun _ => ⟨rfl, rfl⟩, fun _ _ h => nomatch h⟩
  | some path, false => exact ⟨_, s, rfl, rfl, fun _ => ⟨rfl, rfl⟩, fun h => nomatch h⟩
  | some path, true =>
    dsimp only
    rw [if_pos rfl, Task.bind_apply_of_ok (Task.files_apply s)]
    cases hnode : (Host.files s).get? path.parts with
    | none =>
      refine ⟨_, s, rfl, rfl, fun h => (nomatch h), fun _ _ h content hget => ?_⟩
      rw [← Option.some.inj h, hnode] at hget
      cases hget
    | some node =>
      cases node with
      | directory =>
        refine ⟨_, s, rfl, rfl, fun h => (nomatch h), fun _ _ h content hget => ?_⟩
        rw [← Option.some.inj h, hnode] at hget
        cases hget
      | file _ =>
        refine ⟨_, _, rfl, ?_, fun h => (nomatch h), fun _ _ h => ?_⟩
        · exact (QuietHost.directory_report _ _).trans (LawfulHost.directory_setFiles _ s)
        · rw [← Option.some.inj h, QuietHost.files_report]
          exact (LawfulHost.files_setFiles _ s).symm ▸ noFile_remove (Host.files s) path.parts

variable [Site σ η]

/-- After calls, the files are as the last one left them. -/
theorem attendAll_apply [LawfulSite σ η] (start : Live η) (lives : List (Live η)) (s : σ)
    (h : Host.files s = start.files) :
    ∃ s', (attendAll lives : Task σ ε Unit) s = (.ok (), s') ∧
      Host.directory s' = Host.directory s ∧
      Host.files s' = ((start :: lives).getLast (List.cons_ne_nil start lives)).files := by
  induction lives generalizing start s with
  | nil => exact ⟨s, rfl, rfl, h⟩
  | cons live lives ih =>
    obtain ⟨s', hs, hd, hf⟩ := ih live (Site.attend (some live.handle) live.files s)
      (LawfulSite.files_attend _ _ s)
    refine ⟨s', hs, hd.trans (LawfulSite.directory_attend _ _ s), ?_⟩
    rw [List.getLast_cons_cons]
    exact hf

/-- What work leaves as it is: whether the database is open, and everything if it is not. -/
theorem perform_outcome [LawfulSite σ η] {α : Type} {work : Database.Work (Filmed (Live η)) α}
    (hw : Database.Steady work) (scratch : Scratch η) (s : σ) :
    ∃ answer database s',
      (perform work scratch : Task σ ε _) s = (.ok (answer, { scratch with database }), s') ∧
      Host.directory s' = Host.directory s ∧ database.isOpen = scratch.database.isOpen ∧
      (scratch.database.isOpen = false → Host.files s' = Host.files s) := by
  let live : Live η := ⟨scratch.database.connection, Host.files s⟩
  let start : Database (Filmed (Live η)) := ⟨.begin live, scratch.database.isOpen⟩
  obtain ⟨hopen, hclosed⟩ := hw start
  obtain ⟨s', hs, hd, hf⟩ := attendAll_apply (ε := ε) live (work start).2.connection.frames s rfl
  refine ⟨(work start).1, ⟨(work start).2.connection.now.handle, (work start).2.isOpen⟩, s', ?_, hd,
    hopen, fun h => ?_⟩
  · rw [perform, Task.bind_apply_of_ok (Task.files_apply s)]
    exact Task.bind_apply_of_ok hs
  · rw [hf]
    simp only [hclosed h]
    rfl

variable [Engine η]

/-- Closing a database again does nothing. -/
theorem close_of_closed {scratch : Scratch η} (h : scratch.database.isOpen = false) (s : σ) :
    close scratch s = (.ok (), s) := by
  rw [close, h]
  rfl

variable [LawfulSite σ η]

/-- A script runs on the connection of an open database and on the files as they are. -/
theorem perform_executeScript (script : Text) (scratch : Scratch η)
    (hopen : scratch.database.isOpen = true) (s : σ) :
    ∃ answer live s',
      Database.executeScript script ⟨(⟨scratch.database.connection, Host.files s⟩ : Live η), true⟩ =
        (answer, ⟨live, true⟩) ∧
      (perform (Database.executeScript script) scratch : Task σ ε _) s =
        (.ok (answer, { scratch with database := ⟨live.handle, true⟩ }), s') ∧
      Host.directory s' = Host.directory s ∧ Host.files s' = live.files := by
  obtain ⟨answer, filmed, last, hfilmed, hlive, hnow, hlast⟩ :=
    (Filmed.alike (⟨scratch.database.connection, Host.files s⟩ : Live η)).executeScript script _ _
      (Filmed.shows_begin _)
  obtain ⟨s', hs, hd, hf⟩ := attendAll_apply (ε := ε) ⟨_, Host.files s⟩ filmed.frames s rfl
  refine ⟨answer, last, s', hlive, ?_, hd, by rw [hf, hlast]⟩
  rw [perform, Task.bind_apply_of_ok (Task.files_apply s)]
  simp only [hopen, hfilmed]
  rw [Task.bind_apply_of_ok hs, hnow]
  rfl

/-- Closing an open database gives up the connection, and the file of a volatile one. -/
theorem close_outcome [LawfulHost σ] (scratch : Scratch η)
    (h : scratch.database.isOpen = true) (s : σ) :
    ∃ outcome s', close scratch s = (outcome, s') ∧ Host.directory s' = Host.directory s ∧
      (scratch.volatile = false → outcome = .ok () ∧ Host.files s' =
        (Connection.close (⟨scratch.database.connection, Host.files s⟩ : Live η)).files) ∧
      (scratch.volatile = true → ∀ path, scratch.path = some path →
        NoFile path.parts (Host.files s')) := by
  let live : Live η := Connection.close ⟨scratch.database.connection, Host.files s⟩
  obtain ⟨outcome, s', hs, hd, hstays, hgone⟩ :=
    removeFile_outcome scratch (Site.attend (some live.handle) live.files s)
  rw [LawfulSite.directory_attend] at hd
  rw [LawfulSite.files_attend] at hstays
  refine ⟨outcome, s', ?_, hd, hstays, hgone⟩
  rw [close, if_pos h]
  exact hs

end Calls

theorem readScript_apply (path : String) (s : σ) :
    readScript path s = (((Host.files s).readUtf8 (Host.directory s)
      (Path.ofString path).toString).map Text.unifyBreaks, s) := by
  rw [readScript, Task.bind_apply_of_ok (Task.files_apply s),
    Task.bind_apply_of_ok (Task.directory_apply s)]
  cases (Host.files s).readUtf8 (Host.directory s) (Path.ofString path).toString <;> rfl

section Opening

variable [Engine η] {path : String} {script : Option String} {volatile there : Bool} {s s' : σ}

/-- Where the file of a database at a path lies. -/
def filePlace (path : String) (s : σ) : Path := (Path.ofString path).resolve (Host.directory s)

/-- The files from which a call connects; a volatile database always starts with a new one. -/
def cleared (path : String) (volatile there : Bool) (s : σ) : FileTree :=
  if volatile && there then (Host.files s).remove (filePlace path s).parts else Host.files s

/-- A call came to a connection: whether it was told that there is a file, and what the engine
made. -/
structure Connects (path : String) (volatile : Bool) (s : σ) (there : Bool) (fresh : Live η) :
    Prop where
  nonempty : path.isEmpty = false
  looked : (Host.files s).hasFile (Host.directory s) (Path.ofString path).toString = .ok there
  connected : Engine.connect (some (Path.ofString path)) (Host.directory s)
    (cleared path volatile there s) = (.ok fresh.handle, fresh.files)

/-- A call came to the connection to a new database and to the text of the script for it. -/
structure Runs (path : String) (script : Option String) (volatile : Bool) (s : σ) (raw : Text)
    (fresh : Live η) : Prop where
  connects : ∃ there, (volatile || !there) = true ∧ Connects path volatile s there fresh
  reads : ∃ name, script = some name ∧
    fresh.files.readUtf8 (Host.directory s) (Path.ofString name).toString = .ok raw

/-- A call came to the connection to a new database, and then could not read the script for it. -/
structure Misses (path : String) (script : Option String) (volatile : Bool) (s : σ)
    (fresh : Live η) (f : AccessFailure) : Prop where
  connects : ∃ there, (volatile || !there) = true ∧ Connects path volatile s there fresh
  misses : ∃ name, script = some name ∧
    fresh.files.readUtf8 (Host.directory s) (Path.ofString name).toString = .error f

section Uniqueness

variable {there' : Bool} {raw raw' : Text} {fresh fresh' : Live η} {f : AccessFailure}

/-- A call comes to one connection only. -/
theorem Connects.unique (h : Connects path volatile s there fresh)
    (h' : Connects path volatile s there' fresh') : there = there' ∧ fresh = fresh' := by
  obtain rfl := Except.ok.inj (h.looked.symm.trans h'.looked)
  obtain ⟨hhandle, hfiles⟩ := Prod.mk.inj (h.connected.symm.trans h'.connected)
  refine ⟨rfl, ?_⟩
  obtain ⟨handle, files⟩ := fresh
  obtain rfl : handle = fresh'.handle := Except.ok.inj hhandle
  obtain rfl : files = fresh'.files := hfiles
  rfl

theorem Runs.unique (h : Runs path script volatile s raw fresh)
    (h' : Runs path script volatile s raw' fresh') : raw = raw' ∧ fresh = fresh' := by
  obtain ⟨_, _, hc⟩ := h.connects
  obtain ⟨_, _, hc'⟩ := h'.connects
  obtain ⟨-, rfl⟩ := hc.unique hc'
  obtain ⟨name, hname, hread⟩ := h.reads
  obtain ⟨name', hname', hread'⟩ := h'.reads
  obtain rfl := Option.some.inj (hname.symm.trans hname')
  exact ⟨Except.ok.inj (hread.symm.trans hread'), rfl⟩

/-- A script that was read was not missed. -/
theorem Runs.not_misses (h : Runs path script volatile s raw fresh) :
    ¬ Misses path script volatile s fresh' f := by
  intro h'
  obtain ⟨_, _, hc⟩ := h.connects
  obtain ⟨_, _, hc'⟩ := h'.connects
  obtain ⟨-, rfl⟩ := hc.unique hc'
  obtain ⟨name, hname, hread⟩ := h.reads
  obtain ⟨name', hname', hmiss⟩ := h'.misses
  obtain rfl := Option.some.inj (hname.symm.trans hname')
  cases hread.symm.trans hmiss

end Uniqueness

variable [Site σ η]

/-- The open database at a path, over some connection. -/
def opened (path : String) (volatile : Bool) (s : σ) (connection : η) : Scratch η :=
  ⟨⟨connection, true⟩, some (filePlace path s), volatile⟩

/-- The ways in which an attempt ends. -/
inductive Attempted (path : String) (script : Option String) (volatile : Bool) (s : σ) :
    Except (Abandoned η) (Scratch η) → σ → Prop where
  /-- There is no connection. -/
  | refused {f : OpenFailure} {s' : σ}
    (refused : ∀ there (fresh : Live η), ¬ Connects path volatile s there fresh)
    (files : Host.files s' = Host.files s ∨ ∃ there fault,
      Engine.connect (η := η) (some (Path.ofString path)) (Host.directory s)
        (cleared path volatile there s) = (.error fault, Host.files s')) :
    Attempted path script volatile s (.error ⟨f, none⟩) s'
  /-- Nothing was to be run. -/
  | unseeded {there : Bool} {fresh : Live η} {s' : σ}
    (connects : Connects path volatile s there fresh)
    (nothing : script = none ∨ (volatile || !there) = false) (files : Host.files s' = fresh.files) :
    Attempted path script volatile s (.ok (opened path volatile s fresh.handle)) s'
  /-- The script could not be read. -/
  | unread {fresh : Live η} {f : AccessFailure} {s' : σ}
    (misses : Misses path script volatile s fresh f) :
    Attempted path script volatile s (.error ⟨.access f, opened path volatile s fresh.handle⟩) s'
  /-- All of the script was run. -/
  | seeded {raw : Text} {n : Nat} {fresh live : Live η} {s' : σ}
    (runs : Runs path script volatile s raw fresh)
    (answer : Database.executeScript raw.unifyBreaks ⟨fresh, true⟩ = (.ok n, ⟨live, true⟩))
    (files : Host.files s' = live.files) :
    Attempted path script volatile s (.ok (opened path volatile s live.handle)) s'
  /-- A statement of the script was refused, and the database was closed. -/
  | closed {raw : Text} {f : OpenFailure} {failure : StatementFailure} {fresh live : Live η} {s' : σ}
    (runs : Runs path script volatile s raw fresh)
    (answer : Database.executeScript raw.unifyBreaks ⟨fresh, true⟩ =
      (.error (.statement failure), ⟨live, true⟩))
    (file : volatile = true → NoFile (filePlace path s).parts (Host.files s'))
    (stays : volatile = false → Host.files s' = (Connection.close live).files) :
    Attempted path script volatile s (.error ⟨f, (opened path volatile s live.handle).closed⟩) s'
  /-- Anything else went wrong with the script. -/
  | raised {raw : Text} {failure : Failure} {fresh live : Live η} {s' : σ}
    (runs : Runs path script volatile s raw fresh)
    (answer : Database.executeScript raw.unifyBreaks ⟨fresh, true⟩ = (.error failure, ⟨live, true⟩))
    (other : ∀ f, failure ≠ .statement f) (files : Host.files s' = live.files) :
    Attempted path script volatile s
      (.error ⟨.seeding failure, opened path volatile s live.handle⟩) s'

theorem connectFile_apply_of_error {f : OsFailure} (volatile : Bool)
    (hfile : (Host.files s).hasFile (Host.directory s) (Path.ofString path).toString = .error f) :
    (connectFile path volatile : Task σ OpenFailure (Scratch η × Bool)) s =
      (.error (.access (.os f)), s) := by
  rw [connectFile, Task.bind_apply_of_ok (Task.files_apply s),
    Task.bind_apply_of_ok (Task.directory_apply s), Task.bind_apply, hfile]
  rfl

/-- Once it is told whether there is a file, a call connects from the files that it clears. -/
theorem connectFile_cleared [LawfulHost σ] (volatile : Bool)
    (hfile : (Host.files s).hasFile (Host.directory s) (Path.ofString path).toString = .ok there) :
    ∃ s', Host.directory s' = Host.directory s ∧ Host.files s' = cleared path volatile there s ∧
      (connectFile path volatile : Task σ OpenFailure (Scratch η × Bool)) s = (do
        let connection ← connect (some (Path.ofString path))
        let place := (Path.ofString path).resolve (← Task.directory)
        Task.report (.debug databaseLog s!"Opened scratch database {place}")
        return (⟨⟨connection, true⟩, some place, volatile⟩, volatile || !there) :
          Task σ OpenFailure (Scratch η × Bool)) s' := by
  have hthere : (Task.ofExcept (((Host.files s).hasFile (Host.directory s)
      (Path.ofString path).toString).mapError (.access ∘ .os)) : Task σ OpenFailure Bool) s =
        (.ok there, s) := by
    rw [hfile]
    rfl
  rw [connectFile, Task.bind_apply_of_ok (Task.files_apply s),
    Task.bind_apply_of_ok (Task.directory_apply s), Task.bind_apply_of_ok hthere,
    Task.ite_apply, cleared]
  split
  · refine ⟨Host.setFiles ((Host.files s).remove (filePlace path s).parts) s,
      LawfulHost.directory_setFiles _ s, LawfulHost.files_setFiles _ s, ?_⟩
    rw [Task.bind_apply_of_ok (Task.directory_apply s),
      Task.bind_apply_of_ok (Task.withFiles_apply _ s)]
    rfl
  · exact ⟨s, rfl, rfl, rfl⟩

variable [LawfulSite σ η]

/-- The connection to a path, once it is told whether there is a file. -/
theorem connectFile_outcome [LawfulHost σ] (volatile : Bool)
    (hfile : (Host.files s).hasFile (Host.directory s) (Path.ofString path).toString = .ok there) :
    (∃ fault s', (connectFile path volatile : Task σ OpenFailure (Scratch η × Bool)) s =
        (.error (.raised fault), s') ∧
      Host.directory s' = Host.directory s ∧
      Engine.connect (η := η) (some (Path.ofString path)) (Host.directory s)
        (cleared path volatile there s) = (.error fault, Host.files s')) ∨
    ∃ fresh : Live η, ∃ s', connectFile path volatile s =
        (.ok (opened path volatile s fresh.handle, volatile || !there), s') ∧
      Host.directory s' = Host.directory s ∧ Host.files s' = fresh.files ∧
      Engine.connect (some (Path.ofString path)) (Host.directory s)
        (cleared path volatile there s) = (.ok fresh.handle, fresh.files) := by
  obtain ⟨s₁, hd₁, hf₁, hrun⟩ := connectFile_cleared (η := η) volatile hfile
  obtain ⟨answer, files, hconnect⟩ : ∃ answer files,
      Engine.connect (η := η) (some (Path.ofString path)) (Host.directory s)
        (cleared path volatile there s) = (answer, files) := ⟨_, _, rfl⟩
  have hc : (connect (some (Path.ofString path)) : Task σ OpenFailure η) s₁ =
      (answer.mapError .raised, Site.attend answer.toOption files s₁) := by
    rw [connect, hd₁, hf₁, hconnect]
  rw [hrun, hconnect]
  cases answer with
  | error fault =>
    refine .inl ⟨fault, Site.attend none files s₁, Task.bind_apply_of_error hc, ?_, ?_⟩
    · rw [LawfulSite.directory_attend, hd₁]
    · rw [LawfulSite.files_attend]
  | ok h =>
    replace hc : (connect (some (Path.ofString path)) : Task σ OpenFailure η) s₁ =
        (.ok h, Site.attend (some h) files s₁) := hc
    obtain ⟨place, hplace⟩ : ∃ place, place = (Path.ofString path).resolve
        (Host.directory (Site.attend (some h) files s₁)) := ⟨_, rfl⟩
    refine .inr ⟨⟨h, files⟩, Host.report (.debug databaseLog s!"Opened scratch database {place}")
      (Site.attend (some h) files s₁), ?_, ?_, ?_, rfl⟩
    · rw [Task.bind_apply_of_ok hc, Task.bind_apply_of_ok (Task.directory_apply _), ← hplace,
        Task.bind_apply_of_ok (Task.report_apply _ _), Task.pure_apply, hplace,
        LawfulSite.directory_attend, hd₁]
      rfl
    · rw [QuietHost.directory_report, LawfulSite.directory_attend, hd₁]
    · rw [QuietHost.files_report, LawfulSite.files_attend]

/-- A database whose script is refused is closed, and the attempt is given up. -/
theorem attempted_close [LawfulHost σ] {raw : Text} {failure : StatementFailure}
    {fresh live : Live η} (hruns : Runs path script volatile s raw fresh)
    (hanswer : Database.executeScript raw.unifyBreaks ⟨fresh, true⟩ =
      (.error (.statement failure), ⟨live, true⟩))
    (hd : Host.directory s' = Host.directory s) (hf : Host.files s' = live.files) :
    let scratch := opened path volatile s live.handle
    ∃ outcome s'', (do
        Task.mapError (fun f => ⟨.access f, some scratch.closed⟩) scratch.close
        throw ⟨.seeding (.statement failure), some scratch.closed⟩ :
          Task σ (Abandoned η) (Scratch η)) s' = (outcome, s'') ∧
      Host.directory s'' = Host.directory s ∧ Attempted path script volatile s outcome s'' := by
  intro scratch
  obtain ⟨outcome, s₂, hclose, hd₂, hstays, hgone⟩ := close_outcome scratch rfl s'
  have hfile : volatile = true → NoFile (filePlace path s).parts (Host.files s₂) :=
    fun hv => hgone hv _ rfl
  replace hstays : volatile = false → Host.files s₂ = (Connection.close live).files := by
    intro hv
    rw [(hstays hv).2, hf]
    rfl
  rw [Task.bind_apply, Task.mapError_apply, hclose]
  cases outcome with
  | error f' => exact ⟨_, s₂, rfl, hd₂.trans hd, .closed hruns hanswer hfile hstays⟩
  | ok _ => exact ⟨_, s₂, rfl, hd₂.trans hd, .closed hruns hanswer hfile hstays⟩

/-- Seeding a new database ends in one of four ways. -/
theorem attempted_seed [LawfulHost σ] {name : String} {fresh : Live η}
    (hconnects : ∃ there, (volatile || !there) = true ∧ Connects path volatile s there fresh)
    (hscript : script = some name) (hd : Host.directory s' = Host.directory s)
    (hf : Host.files s' = fresh.files) :
    ∃ outcome s'', seed name (opened path volatile s fresh.handle) s' = (outcome, s'') ∧
      Host.directory s'' = Host.directory s ∧ Attempted path script volatile s outcome s'' := by
  have hread : (Task.mapError (fun f => ⟨.access f, some (opened path volatile s fresh.handle)⟩)
      (readScript name) : Task σ (Abandoned η) Text) s' =
        ((((fresh.files.readUtf8 (Host.directory s) (Path.ofString name).toString).map
          Text.unifyBreaks).mapError
            fun f => ⟨.access f, some (opened path volatile s fresh.handle)⟩), s') := by
    rw [Task.mapError_apply, readScript_apply, hd, hf]
  cases hr : fresh.files.readUtf8 (Host.directory s) (Path.ofString name).toString with
  | error f =>
    rw [hr] at hread
    exact ⟨_, s', Task.bind_apply_of_error hread, hd, .unread ⟨hconnects, name, hscript, hr⟩⟩
  | ok raw =>
    rw [hr] at hread
    have hruns : Runs path script volatile s raw fresh := ⟨hconnects, name, hscript, hr⟩
    obtain ⟨answer, live, s₁, hanswer, hperform, hd₁, hf₁⟩ := perform_executeScript
      (ε := Abandoned η) raw.unifyBreaks (opened path volatile s fresh.handle) rfl s'
    rw [hf] at hanswer
    replace hperform : (perform (Database.executeScript raw.unifyBreaks)
        (opened path volatile s fresh.handle) : Task σ (Abandoned η) _) s' =
          (.ok (answer, opened path volatile s live.handle), s₁) := hperform
    rw [seed, Task.bind_apply_of_ok hread, Task.bind_apply_of_ok hperform]
    cases answer with
    | ok n =>
      dsimp only
      rw [Task.bind_apply_of_ok (Task.report_apply _ _), Task.pure_apply]
      refine ⟨_, _, rfl, ?_, .seeded hruns hanswer ?_⟩
      · rw [QuietHost.directory_report, hd₁, hd]
      · rw [QuietHost.files_report, hf₁]
    | error failure =>
      by_cases hstatement : ∃ f, failure = .statement f
      · obtain ⟨f, rfl⟩ := hstatement
        exact attempted_close hruns hanswer (hd₁.trans hd) hf₁
      · have hother : ∀ f, failure ≠ .statement f := fun f hf => hstatement ⟨f, hf⟩
        refine ⟨_, s₁, ?_, hd₁.trans hd, .raised hruns hanswer hother hf₁⟩
        cases failure <;> first | rfl | exact absurd rfl (hother _)

/-- Every attempt ends in one of these ways. -/
theorem attempted_attemptAt [LawfulHost σ] (path : String) (script : Option String)
    (volatile : Bool) (s : σ) :
    ∃ outcome s', (attemptAt (some path) script volatile : Task σ (Abandoned η) _) s =
        (outcome, s') ∧
      Host.directory s' = Host.directory s ∧ Attempted path script volatile s outcome s' := by
  by_cases hempty : path.isEmpty = true
  · refine ⟨.error ⟨.emptyPath, none⟩, s, ?_, rfl, .refused ?_ (.inl rfl)⟩
    · rw [attemptAt, if_pos hempty]
      rfl
    · intro there fresh hconnects
      exact absurd hempty (by rw [hconnects.nonempty]; exact Bool.false_ne_true)
  have hnonempty := Bool.eq_false_iff.2 hempty
  rw [attemptAt, if_neg hempty, openFile]
  cases hfile : (Host.files s).hasFile (Host.directory s) (Path.ofString path).toString with
  | error f =>
    refine ⟨_, s, ?_, rfl, .refused (f := .access (.os f)) ?_ (.inl rfl)⟩
    · rw [Task.bind_apply, Task.mapError_apply, connectFile_apply_of_error volatile hfile]
      rfl
    · intro there fresh hconnects
      cases hfile.symm.trans hconnects.looked
  | ok there =>
    rcases connectFile_outcome (η := η) volatile hfile with
      ⟨fault, s₁, hc, hd, hconnect⟩ | ⟨fresh, s₁, hc, hd, hf, hconnect⟩
    · refine ⟨_, s₁, ?_, hd, .refused (f := .raised fault) ?_ (.inr ⟨there, fault, hconnect⟩)⟩
      · rw [Task.bind_apply, Task.mapError_apply, hc]
        rfl
      · intro there' fresh hconnects
        obtain rfl := Except.ok.inj (hfile.symm.trans hconnects.looked)
        cases (Prod.mk.inj (hconnect.symm.trans hconnects.connected)).1
    · have hconnects : Connects path volatile s there fresh := ⟨hnonempty, hfile, hconnect⟩
      have hconnected : (Task.mapError (⟨·, none⟩) (connectFile path volatile) :
          Task σ (Abandoned η) (Scratch η × Bool)) s =
            (.ok (opened path volatile s fresh.handle, volatile || !there), s₁) := by
        rw [Task.mapError_apply, hc]
        rfl
      rw [Task.bind_apply_of_ok hconnected]
      dsimp only
      rw [Task.ite_apply]
      split
      · next hnew =>
        cases script with
        | none => exact ⟨_, s₁, rfl, hd, .unseeded hconnects (.inl rfl) hf⟩
        | some name => exact attempted_seed ⟨there, hnew, hconnects⟩ rfl hd hf
      · next hnew =>
        exact ⟨_, s₁, rfl, hd, .unseeded hconnects (.inr (Bool.eq_false_iff.2 hnew)) hf⟩

end Opening

end StoredRoutine.Scratch
