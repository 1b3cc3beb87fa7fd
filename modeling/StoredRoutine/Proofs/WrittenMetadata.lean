import StoredRoutine.NamePolicy
import StoredRoutine.Proofs.ExitCodes

/-!
The metadata file over a whole run, which may be interrupted after any of its steps. However the run
ends, the file is as it was before or holds the document of the batch that the run compiled; it is
as before if the run failed with an answer, and if the run answers that all is well, all of that
batch was loaded.
-/
namespace StoredRoutine

/-- The place to which a path leads. -/
def Session.placeOf (s : Session) (q : String) : Place :=
  ((Path.ofString q).resolve s.directory).parts

namespace CommandLine

/-- The document of a batch that a run compiled. -/
def Documents (η : Type) [Scratch.Engine η] (platform : Platform) (a : Arguments) (s : Session)
    (result : Batch.Result) (content : Option Bytes) : Prop :=
  ∃ batch c, compileRun platform a (.start s : Course η) = (.ok (batch, result), c) ∧
    ∃ text, Batch.document result.metadata = .ok text ∧ content = some (Utf8.encode text)

/-- What a run is asked for that has a metadata file of its own: it is neither a log file nor the
scratch database. -/
structure OwnsMetadata (environment : Environment) (a : Arguments) (s : Session) (q : String) :
    Prop where
  path : a.metadataPath (settingsIn environment s) = some q
  unlogged : ¬ s.LogsTo (s.placeOf q)
  log : ∀ file, nonempty a.logFile.text = some file →
    logPlace (settingsIn environment s) file s.directory ≠ s.placeOf q
  scratch : ∀ path, (settingsIn environment s).scratchDatabase = some path →
    s.placeOf path.toString ≠ s.placeOf q

/-- A permit for everything but one file, to which only some texts may be written. -/
def sparing (place : Place) (writes : Path → Text → Prop) : Permit where
  opens other := other ≠ place
  removes other := other ≠ place
  writes := writes
  unguards := True

theorem spares_sparing (place : Place) (writes : Path → Text → Prop) :
    (sparing place writes).Spares place :=
  ⟨fun h => h rfl, fun h => h rfl⟩

variable {η : Type}

/-- What is outside of a course has done no more than it may, however far the course went. -/
theorem Runs.outside {p : Permit} {c c' : Course η} {R : Session → Session → Prop}
    (h : Runs p c c') (ho : c'.Outside R) : c.Outside R := by
  induction h with
  | refl => exact ho
  | tail _ hstep ih =>
    refine ih fun step hm => ho step ?_
    cases hstep with
    | program => exact List.mem_cons_of_mem _ hm
    | pass => exact List.mem_cons_of_mem _ (List.mem_cons_of_mem _ hm)
    | outside => exact List.mem_cons_of_mem _ hm

/-- Only the answer to a failure is an exit code of a run that failed. -/
theorem settled_of_settle {f : Failure} {c : Course η} {code : Nat}
    (h : (settle f c).1 = .ok code) : settled f = .ok code := by
  by_cases hguarded : c.now.isGuarded = true ∨ f.answer? = none
  · rwa [settle_apply hguarded] at h
  · obtain ⟨hunguarded, -⟩ := not_or.1 hguarded
    rw [settle, Task.bind_apply_of_ok (Task.look_apply _ c),
      Bool.eq_false_iff.2 hunguarded] at h
    cases h

/-- A course that may write nothing to a file leaves it as it is. -/
theorem holds_of_runs {s : Session} {q : String} {c c' : Course η} {content : Option Bytes}
    (hd : ".." ∉ s.directory)
    (hruns : Runs (sparing (s.placeOf q) fun _ _ => False) c c')
    (hspared : c'.Outside (Session.Spares (s.placeOf q)))
    (h : c.now.session.Holds s.directory (s.placeOf q) content) :
    c'.now.session.Holds s.directory (s.placeOf q) content := by
  refine hruns.keeps (fun hchange hs => ?_) Session.Spares.holds hspared h
  exact (hchange.holds (spares_sparing _ _) hd hs).resolve_right fun ⟨_, _, hfalse, _⟩ => hfalse

section Interrupts

variable [Scratch.Engine η] {p : Permit} {platform : Platform} {arguments : List String}
  {a : Arguments} {s : Session}

/-- The one exit code of a run that is interrupted. -/
theorem eq_of_interrupt {c : Course η} {code : Nat} (h : (interrupt c).1 = .ok code) :
    code = 130 := by
  have hexit := (confined_exit (p := .anything) c (within_anything _)).2
  rw [interrupt, Task.bind_apply_of_ok (Task.outcome_apply _ c)] at h
  cases he : (exit c).1 with
  | ok _ =>
    rw [he] at h
    exact (Except.ok.inj (settled_of_settle h)).symm
  | error f =>
    rw [he] at h hexit
    obtain ⟨failure, rfl, -⟩ := hexit
    have hsettled := settled_of_settle h
    rw [settled, Failure.answer?_closing] at hsettled
    cases hsettled

/-- A run that is interrupted closes its scratch database and is answered. -/
theorem runs_interrupt (hp : p.unguards) {c : Course η} (hc : c.now.Within p) :
    Runs p c (interrupt c).2 := by
  have hexit := (confined_exit c hc).1
  rw [interrupt, Task.bind_apply_of_ok (Task.outcome_apply _ c)]
  cases (exit c).1 with
  | ok _ => exact hexit.trans (runs_settle hp _ _)
  | error f => exact hexit.trans (runs_settle hp _ _)

/-- A run is the one that nobody interrupts, or a beginning of it that is interrupted. -/
theorem run_cases (platform : Platform) (ha : Arguments.parse arguments = .ok a) (n : Option Nat)
    (s : Session) :
    (run platform arguments n s : Ending × Course η) = run platform arguments none s ∨
      ∃ k, (run platform arguments n s : Ending × Course η) =
        (.ofOutcome (interrupt ((runAll platform a (.start s : Course η)).2.rewind k)).1,
          (interrupt ((runAll platform a (.start s : Course η)).2.rewind k)).2) := by
  obtain ⟨outcome, last, hlast⟩ : ∃ outcome last, runAll platform a (.start s : Course η) =
      (outcome, last) := ⟨_, _, rfl⟩
  have hrun : (run platform arguments n s : Ending × Course η) =
      (.ofOutcome (interruptible (runAll platform a) n (.start s : Course η)).1,
        (interruptible (runAll platform a) n (.start s : Course η)).2) := by
    rw [run, ha]
    rfl
  rw [hrun, run_eq ha]
  cases n with
  | none => exact .inl rfl
  | some n =>
    have hinterruptible : interruptible (runAll platform a) (some n) (.start s : Course η) =
        if n < last.steps.length - 0 then interrupt (last.upTo (0 + n)) else (outcome, last) := by
      rw [interruptible]
      dsimp only
      rw [hlast]
      rfl
    rw [hinterruptible, hlast]
    split
    · exact .inr ⟨_, rfl⟩
    · exact .inl rfl

/-- What a run that nobody interrupts may do, any run may do. -/
theorem runs_run (hp : p.unguards) (ha : Arguments.parse arguments = .ok a) (n : Option Nat)
    (h : Runs p (.start s) (runAll platform a (.start s : Course η)).2) :
    Runs p (.start s) (run platform arguments n s : Ending × Course η).2 := by
  rcases run_cases (η := η) platform ha n s with hrun | ⟨k, hrun⟩
  · rwa [hrun, run_eq ha]
  · rw [hrun]
    have hbeginning := h.rewind rfl k
    exact hbeginning.trans (runs_interrupt hp (hbeginning.within nofun))

end Interrupts

section Runs

variable [Scratch.Engine η] {platform : Platform} {arguments : List String} {a : Arguments}
  {s : Session} {q : String}

theorem OwnsMetadata.allows (h : OwnsMetadata platform.environment a s q)
    (writes : Path → Text → Prop) :
    Allows (sparing (s.placeOf q) writes) a (settingsIn platform.environment s) where
  log file hfile here := by
    have hplace := logPlace_eq s.directory platform.environment file here
    rw [settingsIn, hplace]
    exact h.log file hfile
  scratch path hpath here := by
    rw [Settings.resolve_scratchDatabase hpath]
    exact h.scratch path hpath

/-- Each step of a run leaves the metadata file as it is or puts a document there that the run
compiled, and so does the whole run, interrupted or not. -/
theorem content_cases (h : OwnsMetadata platform.environment a s q) (hd : ".." ∉ s.directory)
    (ha : Arguments.parse arguments = .ok a) (n : Option Nat)
    (hspared : (run platform arguments n s : Ending × Course η).2.Outside
      (Session.Spares (s.placeOf q))) :
    let content := (run platform arguments n s : Ending × Course η).2.now.session.files.content?
      (s.placeOf q)
    content = s.files.content? (s.placeOf q) ∨
      ∃ result, Documents η platform a s result content := by
  have hcomes : (Course.start s : Course η).Comes (sparing (s.placeOf q) fun _ text =>
      ∃ result, Documents η platform a s result (some (Utf8.encode text))) platform a :=
    comes (h.allows _) nofun
  have hcompletes := hcomes.completes (.inl fun compiled c hcompiled _ text _ ht =>
    ⟨compiled.2, compiled.1, c, hcompiled, text, ht, rfl⟩)
  have hruns := runs_run trivial ha n
    ((hcompletes.trans hcomes.wraps).trans (runs_runAll trivial))
  -- The invariant is what the file holds, by any step of the program and of others.
  obtain ⟨content, hholds, hcontent⟩ := hruns.keeps
    (Q := fun s' => ∃ content, s'.Holds s.directory (s.placeOf q) content ∧
      (content = s.files.content? (s.placeOf q) ∨
        ∃ result, Documents η platform a s result content))
    (fun hchange ⟨content, hholds, hcontent⟩ => by
      rcases hchange.holds (spares_sparing _ _) hd hholds with
        hsame | ⟨_, text, hdocument, hwritten⟩
      · exact ⟨content, hsame, hcontent⟩
      · exact ⟨_, hwritten, .inr hdocument⟩)
    (fun hs ⟨content, hholds, hcontent⟩ => ⟨content, hs.holds hholds, hcontent⟩)
    hspared ⟨_, ⟨rfl, h.unlogged, rfl⟩, .inl rfl⟩
  rwa [hholds.content]

/-- A run whose batch is not finished leaves the metadata file as it was, interrupted or not. -/
theorem content_of_incomplete (h : OwnsMetadata platform.environment a s q)
    (hd : ".." ∉ s.directory) (ha : Arguments.parse arguments = .ok a) (n : Option Nat)
    (hspared : (run platform arguments n s : Ending × Course η).2.Outside
      (Session.Spares (s.placeOf q)))
    {f : Failure} (hf : (completeRun platform a (.start s : Course η)).1 = .error f) :
    (run platform arguments n s : Ending × Course η).2.now.session.files.content? (s.placeOf q) =
      s.files.content? (s.placeOf q) := by
  have hcomes : (Course.start s : Course η).Comes (sparing (s.placeOf q) fun _ _ => False)
      platform a := comes (h.allows _) nofun
  have hruns := runs_run trivial ha n
    (((hcomes.completes (.inr ⟨f, hf⟩)).trans hcomes.wraps).trans (runs_runAll trivial))
  exact (holds_of_runs hd hruns hspared ⟨rfl, h.unlogged, rfl⟩).content

/-- A run that nobody interrupts and whose batch is finished leaves the document of the batch. -/
theorem documents_of_complete (h : OwnsMetadata platform.environment a s q)
    (hd : ".." ∉ s.directory)
    (hspared : (runAll platform a (.start s : Course η)).2.Outside (Session.Spares (s.placeOf q)))
    {result : Batch.Result} (hresult : (completeRun platform a (.start s : Course η)).1 = .ok result) :
    Documents η platform a s result
      ((runAll platform a (.start s : Course η)).2.now.session.files.content? (s.placeOf q)) := by
  have hcomes : (Course.start s : Course η).Comes (sparing (s.placeOf q) fun _ _ => False)
      platform a := comes (h.allows _) nofun
  have hrest : Runs (sparing (s.placeOf q) fun _ _ => False) _ _ :=
    hcomes.wraps.trans (runs_runAll trivial)
  obtain ⟨batch, c, written, hcompiled, -⟩ := completeRun_eq_ok_iff.1 hresult
  obtain ⟨hcompiles, hpath⟩ := hcomes.compiles
  replace hpath : batch.metadataPath = (some q).map Path.ofString :=
    (hpath _ (congrArg Prod.fst hcompiled)).trans (congrArg _ h.path)
  rw [hcompiled] at hcompiles
  have hfinish : (Task.mapError .batch (batch.finish result) : Work η Batch.Result) c =
      completeRun platform a (.start s) := by
    rw [completeRun, Task.bind_apply_of_ok hcompiled]
  have hfinishes : Runs .anything c (completeRun platform a (.start s)).2 := by
    rw [← hfinish]
    exact runs_finish hpath (.inl fun _ _ _ _ => trivial)
  -- The file is as it was up to the finish, and as the finish leaves it from then on.
  have hcompleted := hrest.outside hspared
  have hbefore := holds_of_runs hd hcompiles (hfinishes.outside hcompleted)
    ⟨rfl, h.unlogged, rfl⟩
  obtain ⟨-, text, ht, hholds⟩ := holds_finish hpath hd hbefore
    (hfinish.trans (Prod.ext hresult rfl))
  exact ⟨batch, c, hcompiled, text, ht, (holds_of_runs hd hrest hspared hholds).content⟩

/-- However a run ends, its metadata file is as it was before or holds the document of the batch
that it compiled. A run that fails leaves the file as it was, unless it failed only in closing its
scratch database, to which there is no answer; so it does whenever it ends with the exit code that
answers a failure. A run that ends with exit code 0 leaves the document of a batch that was loaded as
a whole. All of this holds as long as nothing outside of the program touches the file. -/
theorem run_keeps_or_documents (platform : Platform) (ha : Arguments.parse arguments = .ok a)
    (hd : ".." ∉ s.directory) (h : OwnsMetadata platform.environment a s q) (n : Option Nat)
    (hspared : (run platform arguments n s : Ending × Course η).2.Outside
      (Session.Spares (s.placeOf q))) :
    let before := s.files.content? (s.placeOf q)
    let after : Ending × Course η := run platform arguments n s
    let content := after.2.now.session.files.content? (s.placeOf q)
    (content = before ∨ ∃ result, Documents η platform a s result content) ∧
    (∀ f, (bareRun platform a (.start s : Course η)).1 = .error f →
      ((∀ failure, f ≠ .closing failure) → content = before) ∧
      (after.1 = .exitCode 1 → settled f = .ok 1 ∧ content = before)) ∧
    (after.1 = .exitCode 0 → ∃ result, result.failedPaths = [] ∧
      Documents η platform a s result content) := by
  dsimp only
  refine ⟨content_cases h hd ha n hspared, fun f hf => ?_, fun hend => ?_⟩
  · have hcomes : (Course.start s : Course η).Comes .anything platform a :=
      comes (allows_anything _ _) (within_anything _)
    have hkept (hne : ∀ failure, f ≠ .closing failure) :=
      content_of_incomplete h hd ha n hspared
        ((hcomes.fails f hf).2.resolve_right fun ⟨failure, he⟩ => hne failure he)
    refine ⟨hkept, fun hend => ?_⟩
    rcases run_cases (η := η) platform ha n s with hrun | ⟨k, hrun⟩
    · rw [hrun, run_eq ha, Ending.ofOutcome_eq_exitCode_iff, runAll_fst, hf] at hend
      refine ⟨hend, hkept ?_⟩
      rintro failure rfl
      rw [answered, settled, Failure.answer?_closing] at hend
      cases hend
    · rw [hrun, Ending.ofOutcome_eq_exitCode_iff] at hend
      cases eq_of_interrupt hend
  · rcases run_cases (η := η) platform ha n s with hrun | ⟨k, hrun⟩
    · rw [hrun, run_eq ha] at hspared hend ⊢
      rw [Ending.ofOutcome_eq_exitCode_iff, runAll_fst, answered_eq_zero_iff,
        bareRun_eq_ok_iff] at hend
      obtain ⟨result, c, hcompleted, -, hcode⟩ := hend
      exact ⟨result, exitCode_eq_zero_iff.1 hcode,
        documents_of_complete h hd hspared (congrArg Prod.fst hcompleted)⟩
    · rw [hrun, Ending.ofOutcome_eq_exitCode_iff] at hend
      cases eq_of_interrupt hend

end Runs

section Sample

open Scratch (Kept)

/-- An importer with the policy that puts names in camel case. -/
def camelCaseImporter : Importer where
  load _ := pure ()
  member _ _ := pure (some (some (.ofFunction "camel_case" CamelCase.ofString)))

def camelCasePlatform : Platform := ⟨∅, .standard, camelCaseImporter⟩

/-- The metadata file is made where there is nothing, and names are put in camel case. -/
def properPolicy : Arguments where
  paths := ["x"]
  metadata := some (some "m.json")
  policy := some (some "loader.name_mangler:camel_case")

def properPlan : Plan :=
  properPolicy.planWith (Settings.ofEnvironment [] ∅) ∅
    (some (.ofFunction "camel_case" CamelCase.ofString))

theorem ready_properPolicy :
    Ready (Session.Spares ["m.json"]) [] ∅ camelCasePlatform properPolicy properPlan where
  noLog := by cbv
  notVerbose := rfl
  planned := by
    refine yields_plan (some _) (by cbv) (by cbv) ?_ (fun he => by cases he) fun _ => rfl
    refine yields_findPolicy_some "loader.name_mangler" "camel_case" (by cbv) (by cbv) (by cbv)
      (by cbv) (Yields.lent fun s hs => ?_) (Yields.lent fun s hs => ?_)
    · exact ⟨rfl, hs, rfl, id, rfl⟩
    · exact ⟨rfl, hs, rfl, id, rfl⟩
  valid := yields_validate (by cbv) rfl (by cbv)
  database := by cbv
  script := by cbv
  still _ hs := hs.spares_setFiles _

theorem ownsMetadata_properPolicy :
    OwnsMetadata ∅ properPolicy (initialSession ∅ []) "m.json" := by
  have hquiet := quiet_initialSession ∅ []
  refine ⟨rfl, hquiet.unlogged _, (fun _ he => by cases he), fun path hpath => ?_⟩
  rw [settingsIn, hquiet.directory] at hpath
  have hnone : (Settings.ofEnvironment [] ∅).scratchDatabase = none := by cbv
  rw [hnone] at hpath
  cases hpath

/-- Nothing outside of the program touches the metadata file. -/
theorem outside_properPolicy :
    (runAll camelCasePlatform properPolicy (.start (initialSession ∅ []) : Course Kept)).2.Outside
      (Session.Spares ["m.json"]) := by
  have htext : Batch.document ∅ = .ok "\x7b\x7d\n".toList := by cbv
  obtain ⟨t, hwrite⟩ : ∃ t, (∅ : FileTree).writeAtomically []
      (Path.ofString "m.json").toString "\x7b\x7d\n".toList "utf-8" = (t, .ok true) :=
    ⟨(∅ : FileTree).put ["m.json"] (.file (Utf8.encode "\x7b\x7d\n".toList)), by cbv⟩
  have hmissing : ∀ path ∈ ["x"], (∅ : FileTree).pathExists [] path = false :=
    List.forall_mem_singleton.2 (by cbv)
  have hload : Yields (Session.Spares ["m.json"]) ⟨[], ∅, some memoryScratch⟩
      (properPlan.load properPolicy.paths memoryScratch) (.ok ⟨∅, ["x"]⟩)
      ⟨[], t, some memoryScratch⟩ := by
    rw [Plan.load_eq_compile]
    refine (yields_compile_of_missing (fun s hs => hs.spares_setFiles _)
      (yields_sources_of_missing rfl hmissing)).bind ?_
    exact yields_finish rfl htext hwrite
  have hbare := (ready_properPolicy.yields_bareRun (fun s hs => hs.spares_setFiles _) hload) _
    (at_start (quiet_initialSession ∅ []))
  rw [runAll_apply]
  rcases hrun : bareRun camelCasePlatform properPolicy
    (.start (initialSession ∅ []) : Course Kept) with ⟨f | code, c⟩
  · rw [hrun] at hbare
    cases hbare.1
  · rw [hrun] at hbare
    exact hbare.2.outside

/-- A run whose policy puts names in camel case leaves no metadata file or one that holds the
document of its batch. -/
theorem run_keeps_or_documents_camelCase :
    let arguments := ["--metadata", "m.json", "--mangler", "loader.name_mangler:camel_case", "x"]
    let s := initialSession ∅ []
    let after : Ending × Course Kept := run camelCasePlatform arguments none s
    Arguments.parse arguments = .ok properPolicy ∧ ".." ∉ s.directory ∧
      OwnsMetadata ∅ properPolicy s "m.json" ∧
      after.2.Outside (Session.Spares (s.placeOf "m.json")) ∧
      (after.2.now.session.files.content? (s.placeOf "m.json") =
          s.files.content? (s.placeOf "m.json") ∨
        ∃ result, Documents Kept camelCasePlatform properPolicy s result
          (after.2.now.session.files.content? (s.placeOf "m.json"))) := by
  intro arguments s after
  have ha : Arguments.parse arguments = .ok properPolicy := by cbv
  have hdirectory : s.directory = [] := (quiet_initialSession ∅ []).directory
  have hd : ".." ∉ s.directory := by
    rw [hdirectory]
    exact List.not_mem_nil
  have hplace : s.placeOf "m.json" = ["m.json"] := by
    rw [Session.placeOf, hdirectory]
    cbv
  have hspared : after.2.Outside (Session.Spares (s.placeOf "m.json")) := by
    rw [show after = _ from run_eq ha s, hplace]
    exact outside_properPolicy
  exact ⟨ha, hd, ownsMetadata_properPolicy, hspared,
    (run_keeps_or_documents camelCasePlatform ha hd ownsMetadata_properPolicy none hspared).1⟩

def unopenable : Raised :=
  ⟨.foreign "OperationalError", "(sqlite3.OperationalError) unable to open database file"⟩

/-- What stands for a database that was opened. -/
def openedDatabase : NamePolicy.Result :=
  ⟨.string "<SqliteScratchDatabase object>".toList, .unique⟩

/-- A policy that opens a database by the name of a routine: its file is made if nothing is there, and
there can be none in the place of a directory. -/
def openingPolicy : NamePolicy where
  word := "SqliteScratchDatabase"
  apply name s :=
    match s.files.get? (s.placeOf name) with
    | none => (.ok openedDatabase, s.setFiles (s.files.put (s.placeOf name) (.file [])))
    | some (.file _) => (.ok openedDatabase, s)
    | some .directory => (.error unopenable, s)

def openingImporter : Importer where
  load _ := pure ()
  member _ _ := pure (some (some openingPolicy))

def openingPlatform : Platform := ⟨∅, .standard, openingImporter⟩

/-- A source that is there, and a directory after it. -/
def sourceTree : FileTree := ((∅ : FileTree).put ["m.psql"] (.file [0x78])).put ["z"] .directory

/-- The metadata file has the name of a routine, by which the policy opens a database. -/
def opening : Arguments where
  paths := ["m.psql", "z"]
  metadata := some (some "m")
  policy := some (some "utils.database_utils:SqliteScratchDatabase")

def openingPlan : Plan :=
  opening.planWith (Settings.ofEnvironment [] ∅) ∅ (some openingPolicy)

theorem ready_opening :
    Ready (fun _ _ => True) [] sourceTree openingPlatform opening openingPlan where
  noLog := by cbv
  notVerbose := rfl
  planned := by
    refine yields_plan (some _) (by cbv) (by cbv) ?_ (fun he => by cases he) fun _ => rfl
    refine yields_findPolicy_some "utils.database_utils" "SqliteScratchDatabase" (by cbv) (by cbv)
      (by cbv) (by cbv) (Yields.lent fun s hs => ?_) (Yields.lent fun s hs => ?_)
    · exact ⟨rfl, hs, trivial⟩
    · exact ⟨rfl, hs, trivial⟩
  valid := yields_validate (by cbv) rfl (by cbv)
  database := by cbv
  script := by cbv
  still _ _ := trivial

/-- The first source has its name made over a new database; the second one cannot have any. -/
theorem yields_sources_opening {η : Type} (scratch : Option (Scratch η)) :
    Yields (fun _ _ => True) ⟨[], sourceTree, scratch⟩
      (openingPlan.sources opening.paths : Work η _)
      (.error (.naming (.raised unopenable))) ⟨[], sourceTree.put ["m"] (.file []), scratch⟩ := by
  have hfirst : Yields (fun _ _ => True) ⟨[], sourceTree, scratch⟩
      (openingPlan.describe "m.psql" : Work η _)
      (.ok (.ofPath none "m.psql", some openedDatabase))
      ⟨[], sourceTree.put ["m"] (.file []), scratch⟩ := by
    refine yields_describe (.ok openedDatabase) rfl (Yields.lent fun s hs => ?_)
    have hname : (Routine.Source.ofPath none "m.psql").routineName = "m" := by decide +kernel
    have hplace : s.placeOf "m" = ["m"] := by
      rw [Session.placeOf, hs.directory]
      cbv
    have hnone : s.files.get? ["m"] = none := by
      rw [hs.files]
      cbv
    have happly : openingPolicy.apply "m" s =
        (.ok openedDatabase, s.setFiles (sourceTree.put ["m"] (.file []))) := by
      rw [openingPolicy]
      dsimp only
      rw [hplace, hnone, hs.files]
    rw [hname, happly]
    exact ⟨rfl, hs.setFiles _, trivial⟩
  have hsecond : Yields (fun _ _ => True) ⟨[], sourceTree.put ["m"] (.file []), scratch⟩
      (openingPlan.describe "z" : Work η _) (.error (.naming (.raised unopenable)))
      ⟨[], sourceTree.put ["m"] (.file []), scratch⟩ := by
    refine yields_describe (.error unopenable) rfl (Yields.lent fun s hs => ?_)
    have hname : (Routine.Source.ofPath none "z").routineName = "z" := by decide +kernel
    have hplace : s.placeOf "z" = ["z"] := by
      rw [Session.placeOf, hs.directory]
      cbv
    have hthere : s.files.get? ["z"] = some .directory := by
      rw [hs.files]
      cbv
    have happly : openingPolicy.apply "z" s = (.error unopenable, s) := by
      rw [openingPolicy]
      dsimp only
      rw [hplace, hthere]
    rw [hname, happly]
    exact ⟨rfl, hs, trivial⟩
  have hthere : sourceTree.pathExists [] "m.psql" = true := by cbv
  have hthere' : (sourceTree.put ["m"] (.file [])).pathExists [] "z" = true := by cbv
  have hlisted : Yields (fun _ _ => True) ⟨[], sourceTree, scratch⟩
      (Batch.ofListed openingPlan.describe opening.paths : Work η _)
      (.error (.naming (.raised unopenable)))
      ⟨[], sourceTree.put ["m"] (.file []), scratch⟩ := by
    refine Yields.files.bind (Yields.directory.bind ?_)
    rw [hthere, if_pos rfl]
    refine hfirst.bind (Yields.bind_error ?_)
    refine Yields.files.bind (Yields.directory.bind ?_)
    rw [hthere', if_pos rfl]
    exact hsecond.bind_error
  exact hlisted.bind_error

/-- A policy that opens a database over the metadata file leaves something there that is neither
what was there before nor the document of a batch. -/
theorem run_lets_policy_touch_metadata :
    let arguments := ["--metadata", "m", "--mangler",
      "utils.database_utils:SqliteScratchDatabase", "m.psql", "z"]
    let s := initialSession sourceTree []
    let after : Ending × Course Kept := run openingPlatform arguments none s
    Arguments.parse arguments = .ok opening ∧ OwnsMetadata ∅ opening s "m" ∧
      ¬ (after.2.now.session.files.content? (s.placeOf "m") = s.files.content? (s.placeOf "m") ∨
        ∃ result, Documents Kept openingPlatform opening s result
          (after.2.now.session.files.content? (s.placeOf "m"))) := by
  intro arguments s after
  have ha : Arguments.parse arguments = .ok opening := by cbv
  have hquiet : s.Quiet [] sourceTree := quiet_initialSession _ _
  have hplace : s.placeOf "m" = ["m"] := by
    rw [Session.placeOf, hquiet.directory]
    cbv
  have howns : OwnsMetadata ∅ opening s "m" := by
    refine ⟨rfl, hquiet.unlogged _, (fun _ he => by cases he), fun path hpath => ?_⟩
    rw [settingsIn, hquiet.directory] at hpath
    have hnone : (Settings.ofEnvironment [] ∅).scratchDatabase = none := by cbv
    rw [hnone] at hpath
    cases hpath
  have hcompile : Yields (fun _ _ => True) ⟨[], sourceTree, some memoryScratch⟩
      (openingPlan.compile opening.paths memoryScratch) (.error (.naming (.raised unopenable)))
      ⟨[], sourceTree.put ["m"] (.file []), some memoryScratch⟩ :=
    (Yields.report _).bind (yields_sources_opening _).bind_error
  have hcompiled := (ready_opening.compiles hcompile (.start s) (at_start hquiet)).1
  have hload : Yields (fun _ _ => True) ⟨[], sourceTree, some memoryScratch⟩
      (openingPlan.load opening.paths memoryScratch) (.error (.naming (.raised unopenable)))
      ⟨[], sourceTree.put ["m"] (.file []), some memoryScratch⟩ := by
    rw [Plan.load_eq_compile]
    exact hcompile.bind_error
  have hbare := ready_opening.yields_bareRun (fun _ _ => trivial) hload (.start s) (at_start hquiet)
  have hrun : after.2 = (bareRun openingPlatform opening (.start s : Course Kept)).2 := by
    rw [show after = _ from run_eq ha s, runAll_apply]
    rcases hx : bareRun openingPlatform opening (.start s : Course Kept) with ⟨f | code, c⟩
    · rw [hx] at hbare
      obtain rfl := Except.error.inj hbare.1
      dsimp only
      rw [settle_of_unanswered rfl]
    · rfl
  refine ⟨ha, howns, ?_⟩
  rw [hplace, hrun, hbare.2.quiet.files, hquiet.files]
  rintro (hsame | ⟨result, batch, c, hdocument, -⟩)
  · have hafter : (sourceTree.put ["m"] (.file [])).content? ["m"] = some [] := by cbv
    have hbefore : sourceTree.content? ["m"] = none := by cbv
    rw [hafter, hbefore] at hsame
    cases hsame
  · rw [hdocument] at hcompiled
    cases hcompiled

end Sample

end CommandLine

end StoredRoutine
