import StoredRoutine.Proofs.DurableDatabases

/-!
The life of a database file over calls that open it and instances that are closed again. A call
runs the script if it finds no file, and returns only after all of it; a call that finds the file
takes it as it is. So the script has been run in full on whatever a call returns, unless an earlier
call failed, which leaves the file that it made.
-/
namespace StoredRoutine.Scratch

/-- A call that opens a database, with the states around it. -/
structure Call (σ η : Type) where
  before : σ
  outcome : Except OpenFailure (Scratch η)
  after : σ

/-- The instances that were opened so far, and the calls for them. -/
structure Life (σ η : Type) where
  host : σ
  opened : List (Scratch η)
  calls : List (Call σ η)

inductive Attempt where
  | construct
  | close (i : Nat)
  deriving DecidableEq, Repr

variable {σ η : Type} [Host σ] [Engine η]

/-- There is a file when a call is made. -/
def FindsFile (path : String) (s : σ) : Prop :=
  (Host.files s).hasFile (Host.directory s) (Path.ofString path).toString = .ok true

/-- A call ran all statements of the script, as it reads then, on a new connection, and committed what
they did, which left the connection in some state. -/
def Call.Seeds (path script : String) (call : Call σ η) (live : Live η) : Prop :=
  ∃ raw, ∃ fresh c : Live η, Runs path (some script) false call.before raw fresh ∧
    Executed (Script.statements raw.unifyBreaks) fresh c ∧ Connection.commit c = (.ok (), live)

/-- What a call has done that returned a database. If it found no file, it ran all of the script. If it
found one, it ran nothing: the connection is as the engine made it. -/
inductive Returned (path script : String) (call : Call σ η) (scratch : Scratch η) : Prop where
  | seeded (missing : ¬ FindsFile path call.before) {live : Live η}
    (seeds : call.Seeds path script live) (connection : scratch.database.connection = live.handle)
    (files : Host.files call.after = live.files)
  | found (found : FindsFile path call.before)
    (connects : Connects path false call.before true
      ⟨scratch.database.connection, Host.files call.after⟩)

/-- A connection sees what one saw that had run all of the script in one of the calls, and had
committed what it did. -/
def Inherits {D : Type} (path script : String) (seen : Live η → D) (calls : List (Call σ η)) (d : D) :
    Prop :=
  ∃ e ∈ calls, ∃ live, e.Seeds path script live ∧ d = seen live

theorem Inherits.append {D : Type} {path script : String} {seen : Live η → D}
    {calls : List (Call σ η)} {d : D} (h : Inherits path script seen calls d)
    (calls' : List (Call σ η)) : Inherits path script seen (calls ++ calls') d := by
  obtain ⟨e, he, hd⟩ := h
  exact ⟨e, List.mem_append_left calls' he, hd⟩

/-- What holds after any number of attempts. -/
structure Life.Sound (path script : String) (directory : Place) (life : Life σ η) : Prop where
  directory : Host.directory life.host = directory
  stays : ∀ scratch ∈ life.opened, scratch.volatile = false
  returned : ∀ call ∈ life.calls, ∀ scratch, call.outcome = .ok scratch →
    Returned path script call scratch

/-- What else holds if files keep what is committed and nothing was there at first. -/
structure Life.Kept {D : Type} (path script : String) (seen : Live η → D)
    (held : FileTree → Option D) (life : Life σ η) : Prop where
  file : (∀ e ∈ life.calls, e.outcome.isOk = true) → ∀ d, held (Host.files life.host) = some d →
    Inherits path script seen life.calls d
  calls : ∀ earlier call, earlier ++ [call] <+: life.calls →
    (∀ e ∈ earlier, e.outcome.isOk = true) → ∀ scratch, call.outcome = .ok scratch →
      Inherits path script seen (earlier ++ [call])
        (seen ⟨scratch.database.connection, Host.files call.after⟩)

namespace Life

def start (s : σ) : Life σ η := ⟨s, [], []⟩

theorem sound_start (path script : String) (s : σ) :
    (start s : Life σ η).Sound path script (Host.directory s) where
  directory := rfl
  stays := by simp [start]
  returned := by simp [start]

theorem kept_start {D : Type} {held : FileTree → Option D} (path script : String)
    (seen : Live η → D) (s : σ) (h : held (Host.files s) = none) :
    (start s : Life σ η).Kept path script seen held where
  file _ d hd := nomatch h.symm.trans hd
  calls earlier call hcalls := by simp [start] at hcalls

variable [Site σ η]

def construct (path script : String) (life : Life σ η) : Life σ η :=
  let (outcome, host) := openAt (some path) (some script) false life.host
  ⟨host, life.opened ++ outcome.toOption.toList, life.calls ++ [⟨life.host, outcome, host⟩]⟩

/-- Closes an instance by its number, if there is one. -/
def close (i : Nat) (life : Life σ η) : Life σ η :=
  match life.opened[i]? with
  | none => life
  | some scratch =>
    { life with host := (scratch.close life.host).2, opened := life.opened.set i scratch.closed }

def step (path script : String) (life : Life σ η) : Attempt → Life σ η
  | .construct => life.construct path script
  | .close i => life.close i

def run (path script : String) (life : Life σ η) (attempts : List Attempt) : Life σ η :=
  attempts.foldl (step path script) life

end Life

section Steps

variable [Site σ η] {path script : String} {directory : Place} {life : Life σ η} {s s' : σ} [LawfulHost σ]
  [LawfulSite σ η]

/-- What a call does to a life. -/
theorem Life.construct_outcome (path script : String) (life : Life σ η) :
    ∃ outcome s', life.construct path script =
        ⟨s', life.opened ++ outcome.toOption.toList, life.calls ++ [⟨life.host, outcome, s'⟩]⟩ ∧
      Host.directory s' = Host.directory life.host ∧
      ∀ scratch, outcome = .ok scratch → scratch.volatile = false ∧
        Returned path script ⟨life.host, outcome, s'⟩ scratch := by
  obtain ⟨outcome, s', hattempt, hd, hattempted⟩ :=
    attempted_attemptAt (η := η) path (some script) false life.host
  have hopen : openAt (some path) (some script) false life.host =
      (outcome.mapError (·.failure), s') := by
    rw [openAt, Task.mapError_apply, hattempt]
  refine ⟨outcome.mapError (·.failure), s', by rw [Life.construct, hopen], hd, fun scratch hok => ?_⟩
  obtain rfl := Outcome.mapError_eq_ok_iff.1 hok
  cases hattempted with
  | @unseeded there fresh _ connects nothing files =>
    obtain rfl : there = true := by simpa using nothing
    refine ⟨rfl, .found connects.looked ?_⟩
    rw [files]
    exact connects
  | @seeded raw n fresh live _ runs answer files =>
    obtain ⟨-, c, live', hexecuted, hcommit, hlive⟩ :=
      Database.executeScript_eq_ok_iff.1 answer
    obtain rfl : live = live' := congrArg Database.connection hlive
    obtain ⟨there, hnew, connects⟩ := runs.connects
    refine ⟨rfl, .seeded (fun hfound => ?_) ⟨raw, fresh, c, runs, hexecuted, hcommit⟩ rfl files⟩
    obtain rfl := Except.ok.inj (hfound.symm.trans connects.looked)
    cases hnew

/-- A call that finds the file returns what it connects to. -/
theorem Life.construct_found (life : Life σ η) (script : String) {fresh : Live η}
    (h : Connects path false life.host true fresh) :
    ∃ scratch s', life.construct path script =
      ⟨s', life.opened ++ [scratch], life.calls ++ [⟨life.host, .ok scratch, s'⟩]⟩ := by
  obtain ⟨outcome, s', hattempt, -, hattempted⟩ :=
    attempted_attemptAt (η := η) path (some script) false life.host
  obtain ⟨scratch, rfl⟩ : ∃ scratch, outcome = .ok scratch := by
    cases hattempted with
    | refused refused => exact absurd h (refused true fresh)
    | unseeded | seeded => exact ⟨_, rfl⟩
    | unread misses =>
      obtain ⟨there, hnew, connects⟩ := misses.connects
      obtain ⟨rfl, -⟩ := connects.unique h
      cases hnew
    | closed runs | raised runs =>
      obtain ⟨there, hnew, connects⟩ := runs.connects
      obtain ⟨rfl, -⟩ := connects.unique h
      cases hnew
  refine ⟨scratch, s', ?_⟩
  have hopen : openAt (some path) (some script) false life.host = (.ok scratch, s') := by
    rw [openAt, Task.mapError_apply, hattempt]
    rfl
  rw [Life.construct, hopen]
  rfl

/-- Closing a database that stays gives up its connection. -/
theorem Life.close_outcome (life : Life σ η) {i : Nat} {scratch : Scratch η}
    (hi : life.opened[i]? = some scratch) (hv : scratch.volatile = false) :
    ∃ s', life.close i = { life with host := s', opened := life.opened.set i scratch.closed } ∧
      Host.directory s' = Host.directory life.host ∧
      (Host.files s' = Host.files life.host ∨ ∃ c : Live η, c.files = Host.files life.host ∧
        Host.files s' = (Connection.close c).files) := by
  refine ⟨(scratch.close life.host).2, by rw [Life.close, hi], ?_⟩
  cases hopen : scratch.database.isOpen with
  | false =>
    rw [Scratch.close_of_closed hopen]
    exact ⟨rfl, .inl rfl⟩
  | true =>
    obtain ⟨outcome, s', hclose, hd, hstays, -⟩ := Scratch.close_outcome scratch hopen life.host
    rw [hclose]
    exact ⟨hd, .inr ⟨_, rfl, (hstays hv).2⟩⟩

theorem Life.Sound.close (h : life.Sound path script directory) (i : Nat) :
    (life.close i).Sound path script directory := by
  cases hi : life.opened[i]? with
  | none =>
    rw [Life.close, hi]
    exact h
  | some scratch =>
    have hv := h.stays scratch (List.mem_of_getElem? hi)
    obtain ⟨s', hclose, hd, -⟩ := life.close_outcome hi hv
    rw [hclose]
    refine ⟨hd.trans h.directory, fun other hother => ?_, h.returned⟩
    rcases List.mem_or_eq_of_mem_set hother with hother | rfl
    · exact h.stays other hother
    · exact hv

theorem Life.Sound.construct (h : life.Sound path script directory) :
    (life.construct path script).Sound path script directory := by
  obtain ⟨outcome, s', hconstruct, hd, hreturned⟩ := life.construct_outcome path script
  rw [hconstruct]
  refine ⟨hd.trans h.directory, fun scratch hm => ?_, fun call hm scratch hok => ?_⟩
  · rcases List.mem_append.1 hm with hm | hm
    · exact h.stays scratch hm
    · cases outcome with
      | error f => simp [Except.toOption] at hm
      | ok opened =>
        obtain rfl : scratch = opened := by simpa [Except.toOption] using hm
        exact (hreturned scratch rfl).1
  · rcases List.mem_append.1 hm with hm | hm
    · exact h.returned call hm scratch hok
    · obtain rfl := List.mem_singleton.1 hm
      exact (hreturned scratch hok).2

theorem Life.Sound.run (h : life.Sound path script directory) (attempts : List Attempt) :
    (life.run path script attempts).Sound path script directory := by
  induction attempts generalizing life with
  | nil => exact h
  | cons a attempts ih =>
    -- each attempt keeps soundness, so the rest may start from where it leads
    cases a with
    | construct => exact ih h.construct
    | close i => exact ih (h.close i)

variable {D : Type} {seen : Live η → D} {held : FileTree → Option D}

theorem Life.Kept.close (hdurable : Durable (Path.ofString path) directory seen held)
    (hsound : life.Sound path script directory) (h : life.Kept path script seen held) (i : Nat) :
    (life.close i).Kept path script seen held := by
  cases hi : life.opened[i]? with
  | none =>
    rw [Life.close, hi]
    exact h
  | some scratch =>
    obtain ⟨s', hclose, -, hfiles⟩ :=
      life.close_outcome hi (hsound.stays scratch (List.mem_of_getElem? hi))
    rw [hclose]
    refine ⟨fun hall d hd => h.file hall d ?_, h.calls⟩
    rw [← hd]
    rcases hfiles with hfiles | ⟨c, hc, hfiles⟩
    · rw [hfiles]
    · rw [hfiles, hdurable.closed, hc]

theorem Life.Kept.construct (hdurable : Durable (Path.ofString path) directory seen held)
    (hsound : life.Sound path script directory) (h : life.Kept path script seen held) :
    (life.construct path script).Kept path script seen held := by
  obtain ⟨outcome, s', hconstruct, -, hreturned⟩ := life.construct_outcome path script
  rw [hconstruct]
  -- what the instance sees and what the file holds after a call that returned
  have hcall : (∀ e ∈ life.calls, e.outcome.isOk = true) → ∀ scratch, outcome = .ok scratch →
      Inherits path script seen (life.calls ++ [⟨life.host, outcome, s'⟩])
          (seen ⟨scratch.database.connection, Host.files s'⟩) ∧
        ∀ d, held (Host.files s') = some d →
          d = seen ⟨scratch.database.connection, Host.files s'⟩ := by
    intro hall scratch hok
    obtain ⟨-, hreturned⟩ := hreturned scratch hok
    cases hreturned with
    | @seeded missing live seeds connection files =>
      rw [connection, files]
      refine ⟨⟨_, List.mem_append_right _ (List.mem_singleton_self _), live, seeds, rfl⟩, ?_⟩
      obtain ⟨raw, fresh, c, runs, hexecuted, hcommit⟩ := seeds
      obtain ⟨there, hnew, connects⟩ := runs.connects
      obtain rfl : there = false := by simpa using hnew
      have hlooked := connects.looked
      have hconnected := connects.connected
      rw [hsound.directory] at hlooked hconnected
      exact hdurable.committed hlooked hconnected hexecuted hcommit
    | found found connects =>
      have hconnected := connects.connected
      rw [FindsFile, hsound.directory] at found
      rw [hsound.directory] at hconnected
      obtain ⟨hsees, hsame⟩ := hdurable.found found hconnected
      refine ⟨(h.file hall _ hsees).append _, fun d hd => ?_⟩
      exact Option.some.inj (hd.symm.trans (hsame.trans hsees))
  constructor
  · intro hall d hd
    obtain ⟨hearlier, hlast⟩ := List.forall_mem_append.1 hall
    obtain ⟨scratch, hok⟩ := Outcome.exists_of_isOk (hlast _ (List.mem_singleton_self _))
    obtain ⟨hinherits, hfile⟩ := hcall hearlier scratch hok
    rw [hfile d hd]
    exact hinherits
  · intro earlier call hcalls hall scratch hok
    rcases List.prefix_concat_iff.1 hcalls with hlast | hearlier
    · obtain ⟨rfl, hlast⟩ := List.append_inj' hlast rfl
      obtain rfl : call = ⟨life.host, outcome, s'⟩ := by simpa using hlast
      exact (hcall hall scratch hok).1
    · exact h.calls earlier call hearlier hall scratch hok

theorem Life.Kept.run (hdurable : Durable (Path.ofString path) directory seen held)
    (hsound : life.Sound path script directory) (h : life.Kept path script seen held)
    (attempts : List Attempt) : (life.run path script attempts).Kept path script seen held := by
  induction attempts generalizing life with
  | nil => exact h
  | cons a attempts ih =>
    cases a with
    | construct => exact ih hsound.construct (h.construct hdurable hsound)
    | close i => exact ih (hsound.close i) (h.close hdurable hsound i)

end Steps

/-- Whatever a call returns, all of the script was run on it, or it was taken from a file as it is. If
files keep what is committed, nothing was there at first and no earlier call failed, then what the
instance sees was left in one of the calls by all statements of the script. -/
theorem run_opens_seeded [Site σ η] [LawfulHost σ] [LawfulSite σ η] (path script : String) (s : σ)
    (attempts : List Attempt) (earlier : List (Call σ η)) (call : Call σ η) (scratch : Scratch η)
    (hcalls : earlier ++ [call] <+: ((Life.start s).run path script attempts).calls)
    (hok : call.outcome = .ok scratch) :
    Returned path script call scratch ∧
      ∀ {D : Type} {seen : Live η → D} {held : FileTree → Option D},
        Durable (Path.ofString path) (Host.directory s) seen held → held (Host.files s) = none →
          (∀ e ∈ earlier, e.outcome.isOk = true) →
            Inherits path script seen (earlier ++ [call])
              (seen ⟨scratch.database.connection, Host.files call.after⟩) := by
  have hsound := Life.sound_start (η := η) path script s
  refine ⟨(hsound.run attempts).returned call ?_ scratch hok, fun hdurable hnew hall => ?_⟩
  · exact hcalls.subset (List.mem_append_right earlier (List.mem_singleton_self call))
  · exact ((Life.kept_start path script _ s hnew).run hdurable hsound attempts).calls
      earlier call hcalls hall scratch hok

section Sample

variable {script : Text} {s : Workspace} {content : Bytes}

def databasePath : String := "x.db"

def scriptPath : String := "init.sql"

/-- A workspace with a script in it. -/
def freshWorkspace (script : Text) : Workspace :=
  ⟨(∅ : FileTree).put ["init.sql"] (.file (Utf8.encode script)), [], []⟩

/-- What is connected to the new file of a database in that workspace. -/
def freshKept (script : Text) : Live Kept :=
  ⟨⟨.ofStore .empty, some ["x.db"], []⟩, (freshWorkspace script).files.put ["x.db"] (.file [])⟩

theorem connects_fresh (script : Text) :
    Connects databasePath false (freshWorkspace script) false (freshKept script) :=
  ⟨by decide, by cbv, by cbv⟩

theorem runs_fresh (script : Text) :
    Runs databasePath (some scriptPath) false (freshWorkspace script) script (freshKept script) where
  connects := ⟨false, rfl, connects_fresh script⟩
  reads := ⟨scriptPath, rfl, FileTree.Holds.readText (e := .utf8) ⟨Utf8.encode script, rfl, by cbv⟩⟩

theorem not_findsFile_fresh (script : Text) :
    ¬ FindsFile databasePath (freshWorkspace script) := by
  intro h
  cases h.symm.trans (connects_fresh script).looked

theorem contains_database : "x.db".contains '\x00' = false := by cbv

theorem toString_database : (Path.ofString databasePath).toString = "x.db" := by cbv

theorem locate_database {files : FileTree} (h : files.get? ["x.db"] = some (.file content)) :
    files.locate [] "x.db" = .ok ["x.db"] := by
  have hcomponents : Path.components "x.db" = ["x.db"] := by cbv
  rw [FileTree.locate, hcomponents, if_neg (by decide), if_neg (by decide), ite_self,
    FileTree.walk, FileTree.get?_root]
  simp [FileTree.walk, h]

/-- A call that finds the file of the database connects to it. -/
theorem connects_again (hd : s.directory = [])
    (hfile : s.files.get? ["x.db"] = some (.file content)) :
    Connects databasePath false s true
      (⟨⟨.ofImage content, some ["x.db"], content⟩, s.files⟩ : Live Kept) := by
  obtain ⟨files, directory, reports⟩ := s
  obtain rfl : directory = [] := hd
  replace hfile : files.get? ["x.db"] = some (.file content) := hfile
  refine ⟨by decide, ?_, ?_⟩
  · change files.hasFile [] _ = _
    rw [toString_database, FileTree.hasFile, FileTree.find?, contains_database,
      if_neg Bool.false_ne_true, locate_database hfile]
    dsimp only
    rw [hfile]
    rfl
  · have hplace : ((Path.ofString databasePath).resolve []).parts = ["x.db"] := by cbv
    change Kept.connect (some (Path.ofString databasePath)) [] files = _
    rw [Kept.connect]
    simp only [hplace, Kept.fits, hfile, toString_database, contains_database]
    rw [if_neg Bool.false_ne_true, if_neg (by decide), if_neg (by simp)]

/-- The first call leaves a file, whether the script is run in full or not. -/
theorem construct_fresh (script : Text) :
    ∃ outcome s content, (Life.start (freshWorkspace script)).construct databasePath scriptPath =
        (⟨s, outcome.toOption.toList, [⟨freshWorkspace script, outcome, s⟩]⟩ : Life _ Kept) ∧
      s.directory = [] ∧ s.files.get? ["x.db"] = some (.file content) ∧
      outcome.isOk =
        (Database.executeScript script.unifyBreaks ⟨freshKept script, true⟩).1.isOk := by
  obtain ⟨outcome, s, hattempt, hd, hattempted⟩ := attempted_attemptAt (η := Kept) databasePath
    (some scriptPath) false (freshWorkspace script)
  have hopen : openAt (some databasePath) (some scriptPath) false (freshWorkspace script) =
      (outcome.mapError (·.failure), s) := by
    rw [openAt, Task.mapError_apply, hattempt]
  have hintact : Kept.Intact ["x.db"] (freshKept script) :=
    ⟨rfl, by cbv, Store.ofImage?_image .empty, fun _ => rfl⟩
  obtain ⟨content, hfile⟩ : ∃ content, (Database.executeScript script.unifyBreaks
      ⟨freshKept script, true⟩).2.connection.files.get? ["x.db"] = some (.file content) :=
    ⟨_, (hintact.executeScript script.unifyBreaks).file⟩
  have hstart : (Life.start (freshWorkspace script)).construct databasePath scriptPath =
      (⟨s, (outcome.mapError (·.failure)).toOption.toList,
        [⟨freshWorkspace script, outcome.mapError (·.failure), s⟩]⟩ : Life _ Kept) := by
    rw [Life.construct]
    simp only [Life.start, hopen, List.nil_append]
  refine ⟨_, s, content, hstart, hd, ?_⟩
  cases hattempted with
  | refused refused => exact absurd (connects_fresh script) (refused false _)
  | unseeded connects nothing =>
    obtain ⟨rfl, -⟩ := connects.unique (connects_fresh script)
    simp at nothing
  | unread misses => exact absurd misses (runs_fresh script).not_misses
  | seeded runs answer files =>
    obtain ⟨rfl, rfl⟩ := runs.unique (runs_fresh script)
    rw [answer] at hfile ⊢
    exact ⟨(congrArg (FileTree.get? · ["x.db"]) files).trans hfile, rfl⟩
  | closed runs answer _ stays =>
    obtain ⟨rfl, rfl⟩ := runs.unique (runs_fresh script)
    rw [answer] at hfile ⊢
    have hfiles := (stays rfl).trans (Kept.files_close _)
    exact ⟨(congrArg (FileTree.get? · ["x.db"]) hfiles).trans hfile, rfl⟩
  | raised runs answer _ files =>
    obtain ⟨rfl, rfl⟩ := runs.unique (runs_fresh script)
    rw [answer] at hfile ⊢
    exact ⟨(congrArg (FileTree.get? · ["x.db"]) files).trans hfile, rfl⟩

def tableScript : Text := "create table t (id INTEGER);".toList

theorem isOk_tableScript :
    (Database.executeScript tableScript.unifyBreaks ⟨freshKept tableScript, true⟩).1.isOk =
      true := by
  have hstatements : Script.statements tableScript.unifyBreaks =
      [⟨"create table t (id INTEGER)".toList, 1⟩] := by cbv
  have hanswer : ((Kept.found (freshKept tableScript)).execute
      "create table t (id INTEGER)".toList).1.isOk = true := by
    rw [Kept.found, show (freshKept tableScript).handle.nameHolder (freshKept tableScript).files =
      .itself by cbv]
    decide +kernel
  obtain ⟨rows, hrows⟩ := Outcome.exists_of_isOk hanswer
  have hexecuted : Executed (Script.statements tableScript.unifyBreaks) (freshKept tableScript)
      (Connection.execute "create table t (id INTEGER)".toList (freshKept tableScript)).2 := by
    have head : Connection.execute "create table t (id INTEGER)".toList (freshKept tableScript) =
        (.ok rows, (Connection.execute "create table t (id INTEGER)".toList
          (freshKept tableScript)).2) :=
      Prod.ext (congrArg (Except.mapError fun refusal => Objection.refused refusal.message) hrows) rfl
    rw [hstatements]
    exact .cons head .nil
  rw [Database.executeScript_eq_ok_iff.2 ⟨rfl, _, _, hexecuted, rfl, rfl⟩]
  rfl

/-- A database that is opened, closed and opened again sees what the script did in the first call. -/
theorem run_opens_seeded_again :
    ∃ (first second : Call Workspace Kept) (scratch : Scratch Kept),
      ((Life.start (freshWorkspace tableScript)).run databasePath scriptPath
        [.construct, .close 0, .construct]).calls = [first, second] ∧
      second.outcome = .ok scratch ∧ Returned databasePath scriptPath second scratch ∧
      Inherits databasePath scriptPath Kept.seen [first, second]
        (Kept.seen ⟨scratch.database.connection, second.after.files⟩) := by
  obtain ⟨outcome, s, content, hfirst, hd, hfile, hok⟩ := construct_fresh tableScript
  obtain ⟨opened, rfl⟩ := Outcome.exists_of_isOk (hok.trans isOk_tableScript)
  have hsound := (Life.sound_start (η := Kept) databasePath scriptPath
    (freshWorkspace tableScript)).construct
  rw [hfirst] at hsound
  have hv : opened.volatile = false := hsound.stays opened (List.mem_singleton_self opened)
  obtain ⟨s', hclose, hd', hfiles⟩ := Life.close_outcome
    ⟨s, [opened], [⟨freshWorkspace tableScript, .ok opened, s⟩]⟩ (i := 0) rfl hv
  have hfile' : s'.files.get? ["x.db"] = some (.file content) := by
    rw [← hfile]
    rcases hfiles with hfiles | ⟨c, hc, hfiles⟩
    · exact congrArg (FileTree.get? · ["x.db"]) hfiles
    · exact congrArg (FileTree.get? · ["x.db"]) (hfiles.trans ((Kept.files_close c).trans hc))
  obtain ⟨scratch, s'', hsecond⟩ := Life.construct_found
    ⟨s', [opened.closed], [⟨freshWorkspace tableScript, .ok opened, s⟩]⟩ scriptPath
    (connects_again (hd'.trans hd) hfile')
  have hcalls : ((Life.start (freshWorkspace tableScript)).run databasePath scriptPath
      [.construct, .close 0, .construct]).calls =
      [⟨freshWorkspace tableScript, .ok opened, s⟩] ++ [⟨s', .ok scratch, s''⟩] := by
    rw [Life.run, List.foldl_cons, Life.step, hfirst]
    change ((Life.close 0 ⟨s, [opened], [⟨freshWorkspace tableScript, .ok opened, s⟩]⟩).construct
      databasePath scriptPath).calls = _
    rw [hclose]
    exact congrArg Life.calls hsecond
  have hresult := run_opens_seeded databasePath scriptPath (freshWorkspace tableScript)
    [.construct, .close 0, .construct] [⟨freshWorkspace tableScript, .ok opened, s⟩]
    ⟨s', .ok scratch, s''⟩ scratch (by rw [hcalls]) rfl
  refine ⟨_, _, scratch, hcalls, rfl, hresult.1, hresult.2 (Kept.durable databasePath
    List.not_mem_nil (by rw [toString_database]; decide)) (by cbv) ?_⟩
  intro e he
  rw [List.mem_singleton.1 he]
  rfl

def bogusScript : Text := "bogus statement;".toList

theorem not_executed_bogusScript (c : Live Kept) :
    ¬ Executed (Script.statements bogusScript.unifyBreaks) (freshKept bogusScript) c := by
  have hstatements : Script.statements bogusScript.unifyBreaks =
      [⟨"bogus statement".toList, 1⟩] := by cbv
  have hreading : Sql.Reading.ofTokens (Sql.cut "bogus statement".toList).1 =
      ⟨.nothing, some (.unexpected "bogus".toList)⟩ := by
    decide +kernel
  rw [hstatements]
  intro h
  cases h with
  | @cons _ _ _ _ _ rows head tail =>
    have hrefused := execute_of_fault (by cbv) hreading (Kept.found (freshKept bogusScript))
    have hanswer : ((Kept.found (freshKept bogusScript)).execute "bogus statement".toList).1.mapError
        (fun refusal => Objection.refused refusal.message) = .ok rows := (Prod.mk.inj head).1
    rw [hrefused] at hanswer
    cases hanswer

theorem not_seeds_bogusScript {outcome : Except OpenFailure (Scratch Kept)} {s : Workspace}
    {live : Live Kept} : ¬ Call.Seeds databasePath scriptPath
      ⟨freshWorkspace bogusScript, outcome, s⟩ live := by
  rintro ⟨raw, fresh, c, runs, hexecuted, -⟩
  obtain ⟨rfl, rfl⟩ := runs.unique (runs_fresh bogusScript)
  exact not_executed_bogusScript c hexecuted

/-- A script that fails leaves a file, and the next call returns it although no call ran all of the
script. -/
theorem returns_after_failed_script :
    ¬ ∀ (path script : String) (s : Workspace) (attempts : List Attempt), ¬ FindsFile path s →
      ∀ call ∈ ((Life.start s : Life Workspace Kept).run path script attempts).calls,
        call.outcome.isOk = true →
          ∃ e ∈ ((Life.start s : Life Workspace Kept).run path script attempts).calls, ∃ live,
            e.Seeds path script live := by
  intro h
  obtain ⟨outcome, s, content, hfirst, hd, hfile, -⟩ := construct_fresh bogusScript
  have hconnects := connects_again hd hfile
  obtain ⟨scratch, s', hsecond⟩ := Life.construct_found ⟨s, _, _⟩ scriptPath hconnects
  have hcalls : ((Life.start (freshWorkspace bogusScript)).run databasePath scriptPath
      [.construct, .construct]).calls =
      [⟨freshWorkspace bogusScript, outcome, s⟩, ⟨s, .ok scratch, s'⟩] := by
    rw [Life.run, List.foldl_cons, Life.step, hfirst, List.foldl_cons, Life.step]
    exact congrArg Life.calls hsecond
  obtain ⟨e, he, live, hseeds⟩ := h databasePath scriptPath (freshWorkspace bogusScript)
    [.construct, .construct] (not_findsFile_fresh bogusScript) ⟨s, .ok scratch, s'⟩
    (by rw [hcalls]; simp) rfl
  rw [hcalls, List.mem_pair] at he
  rcases he with rfl | rfl
  · exact not_seeds_bogusScript hseeds
  · obtain ⟨raw, fresh, c, runs, -, -⟩ := hseeds
    obtain ⟨there, hnew, connects⟩ := runs.connects
    obtain ⟨rfl, -⟩ := connects.unique hconnects
    cases hnew

end Sample

end StoredRoutine.Scratch
