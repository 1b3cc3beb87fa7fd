import StoredRoutine.Proofs.WholeRuns
import StoredRoutine.Scratch.Image

/-!
Sessions that log to the console only. What is reported there leaves the files alone, so what a
task yields on known files can be told without knowing what has been reported before.
-/
namespace StoredRoutine

open CommandLine (Course Moment Work)

/-- A session with known files, none of which takes reports. -/
structure Session.Quiet (s : Session) (directory : Place) (t : FileTree) : Prop where
  files : s.files = t
  directory : s.directory = directory
  unlogged : ∀ place, ¬ s.LogsTo place

namespace Session.Quiet

variable {s : Session} {directory : Place} {t : FileTree}

theorem write (h : s.Quiet directory t) {line : Log.Target × String}
    (hl : ∀ place, line.1 ≠ .file place) : (s.write line).Quiet directory t := by
  obtain ⟨target, text⟩ := line
  cases target with
  | console => exact ⟨h.files, h.directory, h.unlogged⟩
  | detached => exact h
  | file place => exact absurd rfl (hl place)

theorem foldl_write (h : s.Quiet directory t) {lines : List (Log.Target × String)}
    (hl : ∀ line ∈ lines, ∀ place, line.1 ≠ .file place) :
    (lines.foldl Session.write s).Quiet directory t := by
  induction lines generalizing s with
  | nil => exact h
  | cons line lines ih =>
    exact ih (h.write (hl line List.mem_cons_self)) fun other hm =>
      hl other (List.mem_cons_of_mem _ hm)

theorem log (h : s.Quiet directory t) (r : Log.Record) : (s.log r).Quiet directory t := by
  have hfirst : Quiet { s with logging := s.logging.withLogger r.logger } directory t := by
    refine ⟨h.files, h.directory, fun place ⟨handler, hm, ht⟩ => h.unlogged place ?_⟩
    rw [handlers_withLogger] at hm
    exact ⟨handler, hm, ht⟩
  refine hfirst.foldl_write fun line hm place hplace => ?_
  obtain ⟨handler, hh, ht⟩ := target_of_mem_lines hm
  exact h.unlogged place ⟨handler, hh, ht.trans hplace⟩

/-- A report that goes to the console only changes no file. -/
theorem report (h : s.Quiet directory t) (r : Report) : (s.report r).Quiet directory t := by
  rw [Session.report]
  induction records r generalizing s with
  | nil => exact h
  | cons r rs ih => exact ih (h.log r)

theorem setFiles (h : s.Quiet directory t) (t' : FileTree) :
    (s.setFiles t').Quiet directory t' :=
  ⟨rfl, h.directory, fun place hl => h.unlogged place (logsTo_setFiles hl)⟩

/-- To write the same files again changes nothing. -/
theorem spares_setFiles (h : s.Quiet directory t) (place : Place) :
    Session.Spares place s (s.setFiles t) where
  directory := rfl
  unlogged := logsTo_setFiles
  content := congrArg (fun files => files.content? place) h.files.symm

end Session.Quiet

variable {η : Type}

/-- What is known of a course. -/
structure Scene (η : Type) where
  directory : Place
  files : FileTree
  scratch : Option (Scratch η)

/-- A course at a scene, to which nothing outside of the program has done more than it may. -/
structure CommandLine.Course.At (R : Session → Session → Prop) (v : Scene η) (c : Course η) :
    Prop where
  quiet : c.now.session.Quiet v.directory v.files
  scratch : c.now.scratch = v.scratch
  outside : c.Outside R

namespace CommandLine.Course.At

variable {R : Session → Session → Prop} {v : Scene η} {c : Course η}

theorem take_program (h : c.At R v) {m : Moment η} {v' : Scene η}
    (hquiet : m.session.Quiet v'.directory v'.files) (hscratch : m.scratch = v'.scratch) :
    (c.take .program m).At R v' where
  quiet := hquiet
  scratch := hscratch
  outside step hm ho := by
    rcases List.mem_cons.1 hm with rfl | hm
    · cases ho
    · exact h.outside step hm ho

theorem take_outside (h : c.At R v) {m : Moment η} {v' : Scene η}
    (hquiet : m.session.Quiet v'.directory v'.files) (hscratch : m.scratch = v'.scratch)
    (hR : R c.now.session m.session) : (c.take .outside m).At R v' where
  quiet := hquiet
  scratch := hscratch
  outside step hm ho := by
    rcases List.mem_cons.1 hm with rfl | hm
    · exact hR
    · exact h.outside step hm ho

theorem leave (h : c.At R v) {s : Session} {t : FileTree} (hs : s.Quiet v.directory t) :
    (c.leave s).At R { v with files := t } :=
  h.take_program hs h.scratch

end CommandLine.Course.At

/-- What a task comes to at a scene, and the scene that it leaves. -/
def Yields {ε α : Type} (R : Session → Session → Prop) (v : Scene η) (x : Task (Course η) ε α)
    (answer : Except ε α) (v' : Scene η) : Prop :=
  ∀ c, c.At R v → (x c).1 = answer ∧ (x c).2.At R v'

namespace Yields

variable {ε ε' α β : Type} {R : Session → Session → Prop} {v v' v'' : Scene η}
  {x : Task (Course η) ε α}

theorem pure (a : α) : Yields R v (Pure.pure a : Task (Course η) ε α) (.ok a) v :=
  fun _ hc => ⟨rfl, hc⟩

theorem throw (e : ε) :
    Yields R v (MonadExcept.throw e : Task (Course η) ε α) (.error e) v :=
  fun _ hc => ⟨rfl, hc⟩

theorem bind {a : α} {f : α → Task (Course η) ε β} {answer : Except ε β}
    (hx : Yields R v x (.ok a) v') (hf : Yields R v' (f a) answer v'') :
    Yields R v (x >>= f) answer v'' := by
  intro c hc
  obtain ⟨hanswer, hat⟩ := hx c hc
  rw [Task.bind_apply_of_ok (Prod.ext hanswer rfl : x c = (.ok a, (x c).2))]
  exact hf _ hat

theorem bind_error {e : ε} {f : α → Task (Course η) ε β} (hx : Yields R v x (.error e) v') :
    Yields R v (x >>= f) (.error e) v' := by
  intro c hc
  obtain ⟨hanswer, hat⟩ := hx c hc
  rw [Task.bind_apply_of_error (Prod.ext hanswer rfl : x c = (.error e, (x c).2))]
  exact ⟨rfl, hat⟩

theorem mapError {f : ε → ε'} {r : Except ε α} (hx : Yields R v x r v') :
    Yields R v (Task.mapError f x) (r.mapError f) v' := by
  intro c hc
  obtain ⟨hanswer, hat⟩ := hx c hc
  rw [Task.mapError_apply, hanswer]
  exact ⟨rfl, hat⟩

theorem outcome {r : Except ε α} (hx : Yields R v x r v') :
    Yields R v (Task.outcome x : Task (Course η) ε' _) (.ok r) v' := by
  intro c hc
  obtain ⟨hanswer, hat⟩ := hx c hc
  rw [Task.outcome_apply, hanswer]
  exact ⟨rfl, hat⟩

theorem ofExcept (answer : Except ε α) :
    Yields R v (Task.ofExcept answer : Task (Course η) ε α) answer v :=
  fun _ hc => ⟨rfl, hc⟩

theorem files : Yields R v (Task.files : Task (Course η) ε FileTree) (.ok v.files) v :=
  fun _ hc => ⟨congrArg Except.ok hc.quiet.files, hc⟩

theorem directory : Yields R v (Task.directory : Task (Course η) ε Place) (.ok v.directory) v :=
  fun _ hc => ⟨congrArg Except.ok hc.quiet.directory, hc⟩

theorem withFiles {f : FileTree → Place → FileTree × Except ε α} {t : FileTree} {r : Except ε α}
    (h : f v.files v.directory = (t, r)) :
    Yields R v (Task.withFiles f : Task (Course η) ε α) r { v with files := t } := by
  intro c hc
  have hfiles : f (Host.files c) (Host.directory c) = (t, r) := by
    rw [← h, ← hc.quiet.files, ← hc.quiet.directory]
    rfl
  rw [Task.withFiles_apply, hfiles]
  exact ⟨rfl, hc.leave (hc.quiet.setFiles t)⟩

/-- A moment in the middle of an operation leaves nothing behind. -/
theorem pass (f : FileTree → Place → FileTree) :
    Yields R v (Task.pass f : Task (Course η) ε Unit) (.ok ()) v :=
  fun c hc => ⟨rfl, (hc.leave (hc.quiet.setFiles (f (Host.files c) (Host.directory c)))).leave
    hc.quiet⟩

theorem report (r : Report) :
    Yields R v (Task.report r : Task (Course η) ε Unit) (.ok ()) v :=
  fun _ hc => ⟨rfl, hc.leave (hc.quiet.report r)⟩

theorem reportAll (rs : List Report) :
    Yields R v (Task.reportAll rs : Task (Course η) ε Unit) (.ok ()) v := by
  induction rs with
  | nil => exact pure ()
  | cons r rs ih => exact (report r).bind ih

/-- What is outside of the program has some outcome on files that are known. -/
theorem lent {work : Task Session ε α} {answer : Except ε α} {t : FileTree}
    (h : ∀ s, s.Quiet v.directory v.files →
      (work s).1 = answer ∧ (work s).2.Quiet v.directory t ∧ R s (work s).2) :
    Yields R v (Task.lent work : Task (Course η) ε α) answer { v with files := t } := by
  intro c hc
  obtain ⟨hanswer, hquiet, hR⟩ := h _ hc.quiet
  exact ⟨hanswer, hc.take_outside hquiet hc.scratch hR⟩

/-- What an engine leaves is seen by the scratch database at hand. -/
theorem attend (handle : Option η) (t : FileTree)
    (hR : ∀ s, s.Quiet v.directory v.files → R s (s.setFiles t)) :
    Yields R v (Task.change (Scratch.Site.attend handle t) : Task (Course η) ε Unit) (.ok ())
      ⟨v.directory, t, v.scratch.map fun scratch =>
        { scratch with database.connection := handle.getD scratch.database.connection }⟩ :=
  fun _ hc => ⟨rfl, hc.take_outside (hc.quiet.setFiles t)
    (congrArg (Option.map _) hc.scratch) (hR _ hc.quiet)⟩

end Yields

namespace CommandLine

open Scratch (Kept)

/-- A new scratch database in memory. -/
def memoryScratch : Scratch Kept := ⟨⟨.inMemory, true⟩, none, true⟩

/-- The program starts with logging to the console. -/
theorem quiet_initialSession (files : FileTree) (directory : Place) :
    (initialSession files directory).Quiet directory files := by
  have htargets : (initialSession files directory).logging.handlers.map (·.target) = [.console] := by
    cbv
  refine ⟨by cbv, by cbv, fun place hlogs => ?_⟩
  obtain ⟨handler, hm, ht⟩ := hlogs
  have hconsole := List.mem_map_of_mem (f := (·.target)) hm
  rw [htargets, List.mem_singleton, ht] at hconsole
  cases hconsole

theorem at_start {R : Session → Session → Prop} {s : Session} {directory : Place} {t : FileTree}
    (h : s.Quiet directory t) : (Course.start s : Course η).At R ⟨directory, t, none⟩ :=
  ⟨h, rfl, fun _ hm => absurd hm List.not_mem_nil⟩

/-- A run on known files that is planned without anything to report, and whose scratch database is
a new one in memory. -/
structure Ready (R : Session → Session → Prop) (here : Place) (t : FileTree) (platform : Platform)
    (a : Arguments) (plan : Plan) : Prop where
  noLog : nonempty a.logFile.text = none
  notVerbose : a.verbose = false
  planned : Yields R ⟨here, t, none⟩
    (CommandLine.plan platform (Settings.ofEnvironment here platform.environment) a :
      Work Kept Plan) (.ok plan) ⟨here, t, none⟩
  valid : Yields R ⟨here, t, none⟩ (plan.validate a.paths : Work Kept Unit) (.ok ()) ⟨here, t, none⟩
  database : plan.scratchDatabase = none
  script : nonempty plan.initScript = none
  still : ∀ s, s.Quiet here t → R s (s.setFiles t)

section Runs

variable {R : Session → Session → Prop} {here : Place} {t t' : FileTree} {platform : Platform}
  {a : Arguments} {plan : Plan}

/-- A policy that a module has under a name. -/
theorem yields_findPolicy_some {v : Scene η} {importer : Importer} {path : String}
    (module name : String) {policy : NamePolicy} (hpath : path.isEmpty = false)
    (hsplit : NamePolicy.split path = (module, name)) (hm : module.isEmpty = false)
    (hn : name.isEmpty = false)
    (hload : Yields R v (Task.lent (importer.load module) : Task (Course η) _ Unit) (.ok ()) v)
    (hmember : Yields R v (Task.lent (importer.member module name) : Task (Course η) _ _)
      (.ok (some (some policy))) v) :
    Yields R v (findPolicy importer (some path) : Work η _) (.ok (some policy)) v := by
  have hfind : Yields R v (NamePolicy.find importer path : Task (Course η) _ _)
      (.ok (some policy)) v := by
    rw [NamePolicy.find, hpath, if_neg Bool.false_ne_true, hsplit]
    dsimp only
    rw [hm, hn, Bool.or_false, if_neg Bool.false_ne_true]
    exact hload.mapError.bind (hmember.mapError.bind (.pure _))
  exact hfind.mapError.mapError

/-- A run without replacement values is planned with its policy. -/
theorem yields_plan {v : Scene η} {settings : Settings} (first : Option NamePolicy)
    (hgiven : nonempty a.placeholders.text = none) (hfile : settings.placeholdersFile = none)
    {policy : Option NamePolicy}
    (hfirst : Yields R v (findPolicy platform.importer a.policy.text : Work η _) (.ok first) v)
    (hrest : first = none → Yields R v (findPolicy platform.importer settings.policyPath :
      Work η _) (.ok policy) v) (hsome : first ≠ none → first = policy) :
    Yields R v (CommandLine.plan platform settings a : Work η Plan)
      (.ok (a.planWith settings ∅ policy)) v := by
  rw [CommandLine.plan, hgiven, Settings.replacementValues, hfile]
  refine (Yields.pure none).bind (hfirst.bind ?_)
  refine (Yields.pure ∅).mapError.bind ?_
  cases first with
  | some found =>
    rw [← hsome (Option.some_ne_none found)]
    exact (Yields.pure _).bind (.pure _)
  | none => exact (hrest rfl).bind (.pure _)

/-- A plan with metadata and a list of paths lacks nothing. -/
theorem yields_validate {v : Scene η} {paths : List String}
    (hm : (nonempty plan.metadataPath).isSome = true) (hp : paths.isEmpty = false)
    (hs : nonempty plan.initScript = none) :
    Yields R v (plan.validate paths : Work η Unit) (.ok ()) v := by
  rw [Plan.validate, hm, hp, hs, Bool.not_false, Bool.or_true]
  exact (Yields.ofExcept (.ok ())).bind (.pure ())

theorem Ready.opens (h : Ready R here t platform a plan) :
    Yields R ⟨here, t, none⟩ (openRun platform (Settings.ofEnvironment here platform.environment) a :
      Work Kept _) (.ok (plan, memoryScratch)) ⟨here, t, none⟩ := by
  have hlogging : Yields R ⟨here, t, none⟩
      (setUpLogging (Settings.ofEnvironment here platform.environment) a : Work Kept Unit) (.ok ())
      ⟨here, t, none⟩ := by
    rw [setUpLogging, h.noLog, h.notVerbose]
    exact .pure ()
  have hguard : Yields R ⟨here, t, none⟩ (guard : Work Kept Unit) (.ok ()) ⟨here, t, none⟩ :=
    fun c hc => ⟨rfl, hc.take_program hc.quiet hc.scratch⟩
  have hconnect : Yields R ⟨here, t, none⟩
      (Scratch.connect none : Task (Course Kept) Scratch.OpenFailure Kept) (.ok .inMemory)
      ⟨here, t, none⟩ := by
    intro c hc
    have happly : (Scratch.connect none : Task (Course Kept) Scratch.OpenFailure Kept) c =
        (.ok .inMemory, Scratch.Site.attend (some Kept.inMemory) (Host.files c) c) := rfl
    rw [happly, show Host.files c = t from hc.quiet.files]
    exact ⟨rfl, (Yields.attend (ε := Unit) (some Kept.inMemory) t h.still c hc).2⟩
  have hattempt : Yields R ⟨here, t, none⟩ (Scratch.attemptAt none none plan.volatile :
      Task (Course Kept) _ _) (.ok memoryScratch) ⟨here, t, none⟩ :=
    hconnect.mapError.bind ((Yields.report _).bind (.pure _))
  refine hlogging.bind (hguard.bind (h.planned.bind (h.valid.bind ((Yields.report _).bind ?_))))
  rw [h.database, h.script]
  exact hattempt.mapError.mapError.bind (.pure _)

theorem yields_enter {v : Scene Kept} :
    Yields R v (enter memoryScratch) (.ok ()) { v with scratch := some memoryScratch } :=
  fun _ hc => ⟨rfl, hc.take_program hc.quiet rfl⟩

theorem Ready.compiles (h : Ready R here t platform a plan) {v : Scene Kept}
    {answer : Except Failure (Batch × Batch.Result)}
    (hc : Yields R ⟨here, t, some memoryScratch⟩ (plan.compile a.paths memoryScratch) answer v) :
    Yields R ⟨here, t, none⟩ (compileRun platform a) answer v :=
  Yields.directory.bind (h.opens.bind (yields_enter.bind hc))

theorem yields_catalog (hstill : ∀ s, s.Quiet here t → R s (s.setFiles t)) :
    Yields R ⟨here, t, some memoryScratch⟩
      (memoryScratch.perform Scratch.Database.catalog : Work Kept _) (.ok (.ok [], memoryScratch))
      ⟨here, t, some memoryScratch⟩ := by
  have hwork : (Scratch.Database.catalog :
      Scratch.Database.Work (Scratch.Filmed (Scratch.Live Kept)) _)
        ⟨.begin ⟨.inMemory, t⟩, true⟩ = (.ok [], ⟨⟨⟨.inMemory, t⟩, [⟨.inMemory, t⟩]⟩, true⟩) := by
    cbv
  refine Yields.files.bind ?_
  dsimp only [memoryScratch]
  rw [hwork]
  exact ((Yields.attend (some Kept.inMemory) t hstill).bind (.pure ())).bind (.pure _)

/-- A source is described by what the policy makes of its name. -/
theorem yields_describe {v v' : Scene η} {policy : NamePolicy} {path : String}
    (answer : Except Raised NamePolicy.Result) (hpolicy : plan.policy = some policy)
    (happly : Yields R v (Task.lent (policy.apply (Routine.Source.ofPath none path).routineName) :
      Task (Course η) _ _) answer v') :
    Yields R v (plan.describe path : Work η _)
      ((answer.mapError (.naming ∘ .raised)).map fun result =>
        (Routine.Source.ofPath none path, some result)) v' := by
  rw [Plan.describe, hpolicy]
  dsimp only
  cases answer with
  | error fault => exact happly.mapError.bind_error
  | ok result => exact happly.mapError.bind (.pure _)

/-- None of the paths leads to a source. -/
theorem yields_sources_of_missing {v : Scene η} {paths : List String} (hpaths : paths.isEmpty = false)
    (h : ∀ path ∈ paths, v.files.pathExists v.directory path = false) :
    Yields R v (plan.sources paths : Work η _) (.ok ([], paths)) v := by
  have hlisted : Yields R v (Batch.ofListed plan.describe paths : Work η _) (.ok ([], paths)) v := by
    clear hpaths
    induction paths with
    | nil => exact .pure _
    | cons path paths ih =>
      refine Yields.files.bind (Yields.directory.bind ?_)
      rw [h path List.mem_cons_self, if_neg Bool.false_ne_true]
      refine (Yields.report _).bind ((ih fun other hm => ?_).bind (.pure _))
      exact h other (List.mem_cons_of_mem _ hm)
  rw [Plan.sources, hpaths]
  exact hlisted.bind ((Yields.ofExcept (.ok [])).bind (.pure _))

/-- A plan that finds none of the paths that it is given compiles an empty batch. -/
theorem yields_compile_of_missing {paths missing : List String}
    (hstill : ∀ s, s.Quiet here t → R s (s.setFiles t))
    (hs : Yields R ⟨here, t, some memoryScratch⟩ (plan.sources paths : Work Kept _)
      (.ok ([], missing)) ⟨here, t, some memoryScratch⟩) :
    Yields R ⟨here, t, some memoryScratch⟩ (plan.compile paths memoryScratch)
      (.ok (plan.batch (Catalog.mapTypes Value.asType []), ⟨∅, missing ++ []⟩))
      ⟨here, t, some memoryScratch⟩ := by
  have hseparate : Batch.separate [] = ([], []) := by cbv
  have hnone : Yields R ⟨here, t, some memoryScratch⟩ (Batch.withoutClashes [] : Work Kept _)
      (.ok ([], [])) ⟨here, t, some memoryScratch⟩ := by
    refine (Yields.reportAll _).bind ?_
    rw [hseparate]
    exact .pure _
  have hover : Yields R ⟨here, t, some memoryScratch⟩
      (plan.batchOver memoryScratch : Work Kept Batch)
      (.ok (plan.batch (Catalog.mapTypes Value.asType []))) ⟨here, t, some memoryScratch⟩ :=
    (yields_catalog hstill).bind ((Yields.ofExcept (.ok [])).bind (.pure _))
  refine (Yields.report _).bind (hs.bind (hnone.bind (hover.bind ?_)))
  refine Yields.bind (Yields.mapError (r := .ok ⟨∅, []⟩) ?_) (.pure _)
  rw [Batch.compile, Batch.inNameOrder, List.mergeSort_nil]
  exact (Yields.pure _).bind ((Yields.report _).bind (.pure _))

/-- Metadata that is written finishes its batch. -/
theorem yields_finish {v : Scene η} {batch : Batch} {path : Path}
    (hpath : batch.metadataPath = some path) {result : Batch.Result} {text : Text}
    (htext : Batch.document result.metadata = .ok text) {written : Bool}
    (hw : v.files.writeAtomically v.directory path.toString text "utf-8" = (t', .ok written)) :
    Yields R v (Task.mapError .batch (batch.finish result) : Work η _) (.ok result)
      { v with files := t' } := by
  have hwrite : Yields R v (Batch.writeMetadata (some path) result.metadata : Task (Course η) _ _)
      (.ok written) { v with files := t' } := by
    rw [Batch.writeMetadata, htext]
    refine (Yields.ofExcept (.ok text)).bind (Yields.mapError (r := .ok written) ?_)
    exact (Yields.pass _).bind ((Yields.withFiles hw).bind ((Yields.report _).bind (.pure _)))
  rw [Batch.finish, hpath]
  exact Yields.mapError (r := .ok _) (hwrite.mapError.bind ((Yields.reportAll _).bind (.pure _)))

/-- A database in memory leaves the files alone when it is closed. -/
theorem yields_exit (hstill : ∀ s, s.Quiet here t → R s (s.setFiles t)) :
    Yields R ⟨here, t, some memoryScratch⟩ (exit : Work Kept Unit) (.ok ()) ⟨here, t, none⟩ := by
  have hlook : Yields R ⟨here, t, some memoryScratch⟩
      (Task.look fun c => c.now.scratch : Work Kept _) (.ok (some memoryScratch))
      ⟨here, t, some memoryScratch⟩ := fun c hc => ⟨congrArg Except.ok hc.scratch, hc⟩
  have hleave : Yields R ⟨here, t, some memoryScratch⟩
      (Task.change fun c => c.take .program { c.now with scratch := none } : Work Kept Unit)
      (.ok ()) ⟨here, t, none⟩ := fun c hc => ⟨rfl, hc.take_program hc.quiet rfl⟩
  refine hlook.bind (hleave.bind ?_)
  have hclose : Yields R ⟨here, t, none⟩ (memoryScratch.close : Task (Course Kept) AccessFailure _)
      (.ok ()) ⟨here, t, none⟩ := by
    rw [Scratch.close, if_pos (show memoryScratch.database.isOpen = true from rfl)]
    refine Yields.files.bind ((Yields.attend (some Kept.inMemory) t hstill).bind ?_)
    exact .pure ()
  exact hclose.mapError

/-- A run ends as its batch does. -/
theorem Ready.yields_bareRun (h : Ready R here t platform a plan)
    (hstill : ∀ s, s.Quiet here t' → R s (s.setFiles t')) {outcome : Except Failure Batch.Result}
    (hl : Yields R ⟨here, t, some memoryScratch⟩ (plan.load a.paths memoryScratch) outcome
      ⟨here, t', some memoryScratch⟩) :
    Yields R ⟨here, t, none⟩ (bareRun platform a : Work Kept Nat) (outcome.map exitCode)
      ⟨here, t', none⟩ := by
  have hwithin : Yields R ⟨here, t, none⟩
      (within memoryScratch (plan.load a.paths memoryScratch)) outcome ⟨here, t', none⟩ :=
    yields_enter.bind (hl.outcome.bind ((yields_exit hstill).bind (.ofExcept outcome)))
  refine Yields.directory.bind (h.opens.bind ?_)
  cases outcome with
  | error f => exact hwithin.bind_error
  | ok result =>
    refine hwithin.bind ((Yields.report _).bind ?_)
    rw [conclude]
    change Yields R _ _ (.ok (exitCode result)) _
    rw [exitCode]
    split
    · exact (Yields.report _).bind (.pure _)
    · exact (Yields.report _).bind (.pure _)

end Runs
end CommandLine

end StoredRoutine
