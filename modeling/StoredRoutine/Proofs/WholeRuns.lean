import StoredRoutine.Proofs.RunEndings

/-!
The whole of a run: its batch is compiled before anything is written, then it is finished, and the
scratch database is closed whatever came of it.
-/
namespace StoredRoutine.CommandLine

/-- The settings of a run that starts in a session. -/
def settingsIn (environment : Environment) (s : Session) : Settings :=
  Settings.ofEnvironment s.directory environment

theorem settingsIn_logsDirectory_root (environment : Environment) (s : Session) :
    (settingsIn environment s).logsDirectory.root ≠ "" := by
  rcases Settings.logsDirectory_root s.directory environment with h | h <;> simp [settingsIn, h]

variable {η : Type} [Scratch.Engine η]

section Parts

/-- The plan of a run and its scratch database. -/
def openPlan (platform : Platform) (settings : Settings) (a : Arguments) :
    Work η (Plan × Scratch η) := do
  let plan ← plan platform settings a
  plan.validate a.paths
  Task.diagnose (.title "Loader")
  let scratch ← Task.mapError .scratch
    (Scratch.openAt plan.scratchDatabase (nonempty plan.initScript) plan.volatile)
  return (plan, scratch)

/-- A run up to the opening of its scratch database. -/
def openRun (platform : Platform) (settings : Settings) (a : Arguments) :
    Work η (Plan × Scratch η) := do
  setUpLogging settings a
  guard
  openPlan platform settings a

/-- The batch of a plan and what it comes to, before anything is written. -/
def Plan.compile (plan : Plan) (paths : List String) (scratch : Scratch η) :
    Work η (Batch × Batch.Result) := do
  let metadataPath := shown (plan.metadataPath.map fun path => (Path.ofString path).toString)
  Task.report (.debug Batch.batchLog s!"Initialized BatchLoader (metadata: {metadataPath})")
  let (sources, missing) ← plan.sources paths
  let (remaining, conflicting) ← Batch.withoutClashes sources
  let batch ← plan.batchOver scratch
  let result ← Task.mapError (.batch ∘ .source) (batch.compile remaining conflicting)
  return (batch, { result with failedPaths := missing ++ result.failedPaths })

/-- A run up to the result of its batch. -/
def compileRun (platform : Platform) (a : Arguments) : Work η (Batch × Batch.Result) := do
  let settings := Settings.ofEnvironment (← Task.directory) platform.environment
  let (plan, scratch) ← openRun platform settings a
  enter scratch
  plan.compile a.paths scratch

/-- A run up to the overview of what was not loaded. -/
def completeRun (platform : Platform) (a : Arguments) : Work η Batch.Result := do
  let (batch, result) ← compileRun platform a
  Task.mapError .batch (batch.finish result)

/-- A run whose failures are not answered yet. -/
def bareRun (platform : Platform) (a : Arguments) : Work η Nat := do
  let settings := Settings.ofEnvironment (← Task.directory) platform.environment
  let (plan, scratch) ← openRun platform settings a
  let result ← within scratch (plan.load a.paths scratch)
  Task.report (.info mainLog s!"Metadata file: {Plan.shown plan.metadataPath}")
  conclude result

/-- What is left to do once the batch of a run is finished or has failed. -/
def wrapUp (last : Report) (outcome : Except Failure Batch.Result) : Work η Nat := do
  exit
  let result ← Task.ofExcept outcome
  Task.report last
  conclude result

/-- A plan is loaded by compiling its batch and then finishing it. -/
theorem Plan.load_eq_compile (plan : Plan) (paths : List String) (scratch : Scratch η) :
    plan.load paths scratch = plan.compile paths scratch >>= fun compiled =>
      Task.mapError .batch (compiled.1.finish compiled.2) := by
  simp only [Plan.load, Plan.compile, Batch.loadFound, bind_assoc, pure_bind]

theorem completeRun_eq_load (platform : Platform) (a : Arguments) :
    (completeRun platform a : Work η Batch.Result) = (do
      let settings := Settings.ofEnvironment (← Task.directory) platform.environment
      let (plan, scratch) ← openRun platform settings a
      enter scratch
      plan.load a.paths scratch) := by
  simp only [completeRun, compileRun, Plan.load_eq_compile, bind_assoc]

/-- Work with a scratch database goes on by closing it. -/
theorem within_apply {α : Type} {scratch : Scratch η} {work : Work η α} {c c' : Course η}
    {outcome : Except Failure α} (h : (enter scratch >>= fun _ => work) c = (outcome, c')) :
    within scratch work c = (exit >>= fun _ => Task.ofExcept outcome) c' := by
  obtain ⟨entered, hentered⟩ : ∃ entered, (enter scratch : Work η Unit) c = (.ok (), entered) :=
    ⟨_, rfl⟩
  rw [Task.bind_apply_of_ok hentered] at h
  rw [within, Task.bind_apply_of_ok hentered,
    Task.bind_apply_of_ok (Task.outcome_apply work entered), h]

/-- The ways in which a run goes: its scratch database is not opened; or it is, the run comes to
something with it, and wraps that up. -/
inductive Course.Goes (platform : Platform) (a : Arguments) (c : Course η) : Prop where
  | unopened {f : Failure} {c' : Course η}
    (opened : openRun platform (settingsIn platform.environment c.now.session) a c = (.error f, c'))
    (compiled : compileRun platform a c = (.error f, c'))
    (completed : completeRun platform a c = (.error f, c'))
    (bare : bareRun platform a c = (.error f, c'))
  | opened {plan : Plan} {scratch : Scratch η} {outcome : Except Failure Batch.Result}
    {c₁ c' : Course η} {last : Report}
    (opened : openRun platform (settingsIn platform.environment c.now.session) a c =
      (.ok (plan, scratch), c₁))
    (compiled : compileRun platform a c =
      (enter scratch >>= fun _ => plan.compile a.paths scratch) c₁)
    (loaded : (enter scratch >>= fun _ => plan.load a.paths scratch) c₁ = (outcome, c'))
    (completed : completeRun platform a c = (outcome, c'))
    (bare : bareRun platform a c = wrapUp last outcome c')

theorem goes (platform : Platform) (a : Arguments) (c : Course η) : c.Goes platform a := by
  obtain ⟨settings, hsettings⟩ : ∃ settings, settings =
      settingsIn platform.environment c.now.session := ⟨_, rfl⟩
  have hcompile : compileRun platform a c = (openRun platform settings a >>= fun (plan, scratch) =>
      enter scratch >>= fun _ => plan.compile a.paths scratch) c := by
    rw [hsettings]
    exact Task.bind_apply_of_ok (Task.directory_apply c)
  have hcomplete : completeRun platform a c = (openRun platform settings a >>=
      fun (plan, scratch) => enter scratch >>= fun _ => plan.load a.paths scratch) c := by
    rw [hsettings, completeRun_eq_load]
    exact Task.bind_apply_of_ok (Task.directory_apply c)
  have hbare : bareRun platform a c = (openRun platform settings a >>= fun (plan, scratch) =>
      within scratch (plan.load a.paths scratch) >>= fun result =>
        Task.report (.info mainLog s!"Metadata file: {Plan.shown plan.metadataPath}") >>= fun _ =>
          conclude result) c := by
    rw [hsettings]
    exact Task.bind_apply_of_ok (Task.directory_apply c)
  obtain ⟨opened, c₁, hopen⟩ : ∃ opened c₁, (openRun platform settings a :
      Work η (Plan × Scratch η)) c = (opened, c₁) := ⟨_, _, rfl⟩
  cases opened with
  | error f =>
    rw [Task.bind_apply_of_error hopen] at hcompile hcomplete hbare
    exact .unopened (hsettings ▸ hopen) hcompile hcomplete hbare
  | ok opened =>
    obtain ⟨plan, scratch⟩ := opened
    obtain ⟨outcome, c₂, hload⟩ : ∃ outcome c₂, (enter scratch >>= fun _ =>
        plan.load a.paths scratch) c₁ = (outcome, c₂) := ⟨_, _, rfl⟩
    rw [Task.bind_apply_of_ok hopen] at hcompile hcomplete hbare
    dsimp only at hcompile hcomplete hbare
    rw [hload] at hcomplete
    rw [Task.bind_apply, within_apply hload, ← Task.bind_apply, bind_assoc] at hbare
    exact .opened (hsettings ▸ hopen) hcompile hload hcomplete hbare

/-- What a run comes to whose scratch database is closed. -/
theorem wrapUp_apply (last : Report) (outcome : Except Failure Batch.Result) (c : Course η) :
    (wrapUp last outcome c).1 = (exit c).1 >>= fun _ => outcome.map exitCode := by
  rw [wrapUp, Task.bind_apply]
  rcases hexit : (exit : Work η Unit) c with ⟨f | _, c'⟩
  · rfl
  · cases outcome with
    | error f => rfl
    | ok result =>
      dsimp only
      rw [Task.bind_apply_of_ok (Task.ofExcept_apply _ _),
        Task.bind_apply_of_ok (Task.report_apply _ _), conclude]
      change _ = Except.ok (exitCode result)
      rw [exitCode]
      split <;> rfl

end Parts

/-- A permit for all that a run does apart from writing its metadata. -/
structure Allows (p : Permit) (a : Arguments) (settings : Settings) : Prop where
  log : ∀ file, nonempty a.logFile.text = some file → ∀ here, p.opens (logPlace settings file here)
  scratch : ∀ path, settings.scratchDatabase = some path →
    ∀ here, p.removes ((Path.ofString path.toString).resolve here).parts

theorem allows_anything (a : Arguments) (settings : Settings) :
    Allows .anything a settings := ⟨fun _ _ _ => trivial, fun _ _ _ => trivial⟩

section Running

variable {p : Permit} {a : Arguments} {platform : Platform} {settings : Settings}

omit [Scratch.Engine η] in
theorem confined_guard {B : Course η → Failure → Prop} :
    Confined p (fun _ => True) B (guard : Work η Unit) :=
  .change fun _ => .program (fun _ _ => rfl) id .same

omit [Scratch.Engine η] in
theorem confined_enter {B : Course η → Failure → Prop} {scratch : Scratch η}
    (h : scratch.MayGo p) : Confined p (fun _ => True) B (enter scratch : Work η Unit) := by
  refine .change fun _ => .program (fun _ => id) (fun _ scratch' hs path hpath => ?_) .same
  obtain rfl := Option.some.inj hs
  exact h path hpath

theorem confined_openPlan (h : Allows p a settings) :
    Confined p (fun opened => Planned platform.importer a settings opened.1 ∧ opened.2.MayGo p)
      (Fails platform a settings) (openPlan platform settings a : Work η _) := by
  refine Confined.bind confined_plan fun plan hplan => ?_
  refine Confined.bind ((confined_validate plan a.paths a.paths).mono (fun _ h => h)
    fun _ _ hf => .plan hplan hf) fun _ _ => ?_
  refine Confined.bind (confined_diagnose _) fun _ _ => ?_
  refine Confined.bind (.mapError ((Scratch.confined_openAt plan.volatile fun q hq => ?_).mono
    (fun _ h => h) fun _ _ hf => .plan hplan (.scratch hf))) fun scratch hscratch =>
      .pure ⟨hplan, hscratch⟩
  rw [hplan.scratchDatabase] at hq
  obtain ⟨path, hpath, rfl⟩ := Option.map_eq_some_iff.1 hq
  exact h.scratch path hpath

theorem confined_openRun (hl : settings.logsDirectory.root ≠ "") (h : Allows p a settings) :
    Confined p (fun opened => Planned platform.importer a settings opened.1 ∧ opened.2.MayGo p)
      (Fails platform a settings) (openRun platform settings a : Work η _) := by
  refine Confined.bind ((confined_setUpLogging hl h.log).mono (fun _ h => h) fun _ _ hf => hf.1)
    fun _ _ => ?_
  exact Confined.bind confined_guard fun _ _ => confined_openPlan h

/-- A run is on its guard once its logging is set up, and no failure to do that has an answer. -/
theorem guarded_openRun (hl : settings.logsDirectory.root ≠ "") {c c' : Course η}
    {answer : Except Failure (Plan × Scratch η)}
    (h : openRun platform settings a c = (answer, c')) :
    c'.now.isGuarded = true ∨ ∃ f, answer = .error f ∧ f.answer? = none := by
  have hset := (confined_setUpLogging hl fun _ _ _ => trivial :
    Confined .anything (fun _ => True)
      (fun c f => Fails platform a settings c f ∧ f.answer? = none)
      (setUpLogging settings a : Work η Unit)) c (within_anything _)
  rw [openRun, Task.bind_apply] at h
  rcases hlog : (setUpLogging settings a : Work η Unit) c with ⟨f | _, c₁⟩
  · rw [hlog] at h hset
    obtain ⟨rfl, rfl⟩ := Prod.mk.inj h
    exact .inr ⟨f, rfl, hset.2.2⟩
  · rw [hlog] at h
    obtain ⟨c₂, hguard, hguarded⟩ : ∃ c₂, (guard : Work η Unit) c₁ = (.ok (), c₂) ∧
        c₂.now.isGuarded = true := ⟨_, rfl, rfl⟩
    dsimp only at h
    rw [Task.bind_apply_of_ok hguard] at h
    have hallows : Allows { Permit.anything with unguards := False } a settings :=
      ⟨fun _ _ _ => trivial, fun _ _ _ => trivial⟩
    have hplan : Confined _ _ (Fails platform a settings)
        (openPlan platform settings a : Work η (Plan × Scratch η)) := confined_openPlan hallows
    have hruns := (hplan c₂ fun _ _ _ _ => trivial).1
    rw [h] at hruns
    exact .inl (hruns.isGuarded id hguarded)

theorem confined_compile (plan : Plan) (paths : List String) (scratch : Scratch η) :
    Confined p (fun compiled => compiled.1.metadataPath = plan.metadataPath.map .ofString)
      (plan.Fails paths) (plan.compile paths scratch) := by
  refine Confined.bind (.report _) fun _ _ => ?_
  refine Confined.bind confined_sources fun found hfound => ?_
  refine Confined.bind (confined_withoutClashes _) fun remaining hr => ?_
  refine Confined.bind (confined_batchOver scratch) fun batch hbatch => ?_
  refine Confined.bind (.mapError ((confined_batchCompile _ _ _).mono (fun _ h => h) ?_))
    fun result _ => .pure hbatch
  rintro _ failure ⟨source, hm, hn⟩
  rcases hfound source (hr source hm) with hlisted | hnone
  · exact .source hlisted hn failure
  · rw [hnone] at hn
    cases hn

/-- A batch that is compiled is then finished, which writes its document unless it fails. -/
theorem load_outcome {plan : Plan} {scratch : Scratch η} {paths : List String} {c c' : Course η}
    {outcome : Except Failure Batch.Result} (hk : scratch.MayGo p) (hc : c.now.Within p)
    (h : (enter scratch >>= fun _ => plan.load paths scratch) c = (outcome, c'))
    (hw : (∀ compiled c₁, (enter scratch >>= fun _ => plan.compile paths scratch) c =
        (.ok compiled, c₁) → ∀ q text, plan.metadataPath = some q →
          Batch.document compiled.2.metadata = .ok text → p.writes (.ofString q) text) ∨
      ∃ f, outcome = .error f) :
    Runs p c c' ∧ ∀ f, outcome = .error f → plan.Fails paths c' f := by
  have hcompile : Confined p _ (plan.Fails paths) (enter scratch >>= fun _ =>
      plan.compile paths scratch) :=
    Confined.bind (confined_enter hk) fun _ _ => confined_compile plan paths scratch
  obtain ⟨hruns, hanswer⟩ := hcompile c hc
  have hload : (enter scratch >>= fun _ => plan.load paths scratch) =
      (enter scratch >>= fun _ => plan.compile paths scratch) >>= fun compiled =>
        Task.mapError .batch (compiled.1.finish compiled.2) := by
    rw [bind_assoc]
    simp only [Plan.load_eq_compile]
  rw [hload, Task.bind_apply] at h
  rcases hx : (enter scratch >>= fun _ => plan.compile paths scratch) c with ⟨f | compiled, c₁⟩ <;>
    rw [hx] at h hruns hanswer hw
  · obtain ⟨rfl, rfl⟩ := Prod.mk.inj h
    exact ⟨hruns, fun f' hf => Except.error.inj hf ▸ hanswer⟩
  · dsimp only at h
    have hfinish : Runs p c₁ c' := by
      have hrest := runs_finish hanswer
        (hw.imp (fun hw => hw compiled c₁ rfl) fun ⟨f, hf⟩ => ⟨f, by rw [h, hf]⟩)
      rwa [h] at hrest
    refine ⟨hruns.trans hfinish, fun f hf => ?_⟩
    rw [hf] at h
    obtain ⟨failure, rfl, hunwritten⟩ := unwritten_of_finish hanswer h
    exact .metadata hunwritten

/-- Wrapping up fails with what failed before, or because the scratch database cannot be closed. -/
theorem confined_wrapUp (last : Report) (outcome : Except Failure Batch.Result) :
    Confined p (fun _ => True) (fun c f => outcome = .error f ∨
        ∃ failure, f = .closing failure ∧ Scratch.Unremovable c failure)
      (wrapUp last outcome : Work η Nat) := by
  refine Confined.bind (confined_exit.mono (fun _ h => h) fun _ _ h => .inr h) fun _ _ => ?_
  refine Confined.bind (.checked fun _ f hf => .inl hf) fun result _ => ?_
  refine Confined.bind (.report _) fun _ _ => Confined.ite (fun _ => ?_) fun _ => ?_
  · exact Confined.bind (.report _) fun _ _ => .pure trivial
  · exact Confined.bind (.report _) fun _ _ => .pure trivial

/-- What a run comes to that is complete: its exit code, once its scratch database is closed. -/
theorem bareRun_of_complete {c c' : Course η} {result : Batch.Result}
    (h : completeRun platform a c = (.ok result, c')) :
    (bareRun platform a c).1 = (exit c').1.map fun _ => exitCode result := by
  cases goes platform a c with
  | unopened _ _ completed _ => cases (Prod.mk.inj (completed.symm.trans h)).1
  | opened _ _ _ completed bare =>
    obtain ⟨rfl, rfl⟩ := Prod.mk.inj (completed.symm.trans h)
    rw [bare, wrapUp_apply]
    cases (exit _ : Except Failure Unit × Course η).1 <;> rfl

/-- A run is what it comes to, with an answer to its failure. -/
theorem runAll_apply (platform : Platform) (a : Arguments) (c : Course η) :
    runAll platform a c = match bareRun platform a c with
      | (.ok code, c') => (.ok code, c')
      | (.error f, c') => settle f c' := by
  obtain ⟨settings, hsettings⟩ : ∃ settings, settings =
      settingsIn platform.environment c.now.session := ⟨_, rfl⟩
  have hl : settings.logsDirectory.root ≠ "" := by
    rw [hsettings]
    exact settingsIn_logsDirectory_root _ _
  have hrun : runAll platform a c =
      (setUpLogging settings a >>= fun _ => attempt platform settings a) c := by
    rw [hsettings]
    exact Task.bind_apply_of_ok (Task.directory_apply c)
  have hinner : (openPlan platform settings a >>= fun (plan, scratch) =>
      within scratch (plan.load a.paths scratch) >>= fun result =>
        Task.report (.info mainLog s!"Metadata file: {Plan.shown plan.metadataPath}") >>= fun _ =>
          conclude result) =
      (plan platform settings a >>= fun p => p.run a.paths >>= conclude : Work η Nat) := by
    simp only [openPlan, Plan.run, bind_assoc, pure_bind]
  have hbare : bareRun platform a c = (setUpLogging settings a >>= fun _ => guard >>= fun _ =>
      plan platform settings a >>= fun p => p.run a.paths >>= conclude : Work η Nat) c := by
    rw [← hinner, hsettings]
    simp only [bareRun, openRun, bind_assoc]
    exact Task.bind_apply_of_ok (Task.directory_apply c)
  have hset := (confined_setUpLogging hl fun _ _ _ => trivial :
    Confined .anything (fun _ => True)
      (fun c f => Fails platform a settings c f ∧ f.answer? = none)
      (setUpLogging settings a : Work η Unit)) c (within_anything _)
  rw [hrun, hbare, Task.bind_apply, Task.bind_apply]
  rcases hlog : (setUpLogging settings a : Work η Unit) c with ⟨f | _, c₁⟩
  · rw [hlog] at hset
    exact (settle_of_unanswered hset.2.2 c₁).symm
  · obtain ⟨c₂, hguard⟩ : ∃ c₂, (guard : Work η Unit) c₁ = (.ok (), c₂) := ⟨_, rfl⟩
    dsimp only
    rw [attempt, Task.bind_apply_of_ok hguard, Task.bind_apply_of_ok hguard,
      Task.bind_apply_of_ok (Task.outcome_apply _ c₂)]
    rcases (plan platform settings a >>= fun p => p.run a.paths >>= conclude : Work η Nat) c₂ with
      ⟨f | code, c'⟩ <;> rfl

/-- A run that succeeds is complete, and its scratch database could be closed. -/
theorem bareRun_eq_ok_iff {c : Course η} {code : Nat} :
    (bareRun platform a c).1 = .ok code ↔
      ∃ result c', completeRun platform a c = (.ok result, c') ∧ (exit c').1 = .ok () ∧
        exitCode result = code := by
  constructor
  · intro h
    cases goes platform a c with
    | unopened _ _ _ bare =>
      rw [bare] at h
      cases h
    | @opened _ _ outcome c₁ c' last _ _ _ completed bare =>
      rw [bare, wrapUp_apply] at h
      obtain ⟨_, hexit, houtcome⟩ := Outcome.bind_eq_ok_iff.1 h
      obtain ⟨result, rfl, hcode⟩ := Outcome.map_eq_ok_iff.1 houtcome
      exact ⟨result, c', completed, hexit, hcode⟩
  · rintro ⟨result, c', h, hexit, rfl⟩
    rw [bareRun_of_complete h, hexit]
    rfl

/-- What a run comes to before it is answered: it compiles its batch, then it is complete, which writes
the document of that batch unless it fails, and goes on without writing anything. -/
structure Course.Comes (p : Permit) (platform : Platform) (a : Arguments) (c : Course η) : Prop where
  compiles : Runs p c (compileRun platform a c).2 ∧
    ∀ compiled, (compileRun platform a c).1 = .ok compiled → compiled.1.metadataPath =
      (a.metadataPath (settingsIn platform.environment c.now.session)).map .ofString
  completes : (∀ compiled c₁, compileRun platform a c = (.ok compiled, c₁) →
      ∀ q text, a.metadataPath (settingsIn platform.environment c.now.session) = some q →
        Batch.document compiled.2.metadata = .ok text → p.writes (.ofString q) text) ∨
    (∃ f, (completeRun platform a c).1 = .error f) → Runs p c (completeRun platform a c).2
  wraps : Runs p (completeRun platform a c).2 (bareRun platform a c).2
  fails : ∀ f, (bareRun platform a c).1 = .error f →
    Fails platform a (settingsIn platform.environment c.now.session) (bareRun platform a c).2 f ∧
      ((completeRun platform a c).1 = .error f ∨ ∃ failure, f = .closing failure)
  guarded : ∀ f, (bareRun platform a c).1 = .error f →
    (bareRun platform a c).2.now.isGuarded = true ∨ f.answer? = none

theorem comes {c : Course η} (h : Allows p a (settingsIn platform.environment c.now.session))
    (hc : c.now.Within p) : c.Comes p platform a := by
  have hl := settingsIn_logsDirectory_root platform.environment c.now.session
  have hopen : Confined _ _ (Fails platform a _) (openRun platform _ a : Work η _) :=
    confined_openRun hl h
  obtain ⟨hopened, hanswer⟩ := hopen c hc
  cases goes platform a c with
  | unopened opened compiled completed bare =>
    rw [opened] at hopened hanswer
    have hguarded := guarded_openRun hl opened
    constructor
    · rw [compiled]
      exact ⟨hopened, nofun⟩
    · intro _
      rwa [completed]
    · rw [completed, bare]
    · intro f hf
      rw [bare] at hf ⊢
      rw [completed]
      exact Except.error.inj hf ▸ ⟨hanswer, .inl rfl⟩
    · intro f hf
      rw [bare] at hf ⊢
      refine hguarded.imp_right fun ⟨f', hf', hnone⟩ => ?_
      rwa [← Except.error.inj hf, Except.error.inj hf']
  | @opened plan scratch outcome c₁ c' last opened compiled loaded completed bare =>
    rw [opened] at hopened hanswer
    obtain ⟨hplan, hscratch⟩ := hanswer
    have hguarded : c₁.now.isGuarded = true :=
      (guarded_openRun hl opened).resolve_right fun ⟨_, hf, _⟩ => nomatch hf
    have hc₁ := hopened.within hc
    obtain ⟨hcompiled, hpath⟩ := Confined.bind (confined_enter hscratch)
      (fun _ _ => confined_compile plan a.paths scratch) c₁ hc₁
    -- Whatever is written, the course stays on its guard and within what may be removed.
    obtain ⟨hloaded, hfails⟩ := load_outcome
      (p := { p with writes := fun _ _ => True, unguards := False }) hscratch hc₁ loaded
      (.inl fun _ _ _ _ _ _ _ => trivial)
    have hc' : c'.now.Within p := hloaded.within hc₁
    obtain ⟨hwraps, hwrapped⟩ := confined_wrapUp last outcome c' hc'
    have hguards := (confined_wrapUp (p := { p with unguards := False }) last outcome c' hc').1
    rw [← bare] at hwraps hwrapped hguards
    constructor
    · rw [compiled]
      refine ⟨hopened.trans hcompiled, fun found hfound => ?_⟩
      rw [hfound] at hpath
      rw [← hplan.metadataPath]
      exact hpath
    · intro hw
      rw [completed] at hw ⊢
      refine hopened.trans (load_outcome hscratch hc₁ loaded (hw.imp_left fun hw found c₂ hx => ?_)).1
      rw [hplan.metadataPath]
      exact hw found c₂ (compiled.trans hx)
    · rwa [completed]
    · intro f hf
      rw [hf] at hwrapped
      rw [completed]
      rcases hwrapped with hfailed | ⟨failure, rfl, hclosing⟩
      · exact ⟨.plan hplan ((hfails f hfailed).mono hwraps), .inl hfailed⟩
      · exact ⟨.plan hplan (.closing hclosing), .inr ⟨failure, rfl⟩⟩
    · intro f _
      exact .inl (hguards.isGuarded id (hloaded.isGuarded id hguarded))

end Running

/-- What a run answers to what it comes to. -/
def answered : Except Failure Nat → Except Failure Nat
  | .ok code => .ok code
  | .error f => settled f

section Answers

variable {platform : Platform} {a : Arguments} {c : Course η}

theorem runAll_fst : (runAll platform a c).1 = answered (bareRun platform a c).1 := by
  have hcomes : c.Comes .anything platform a := comes (allows_anything a _) (within_anything c.now)
  rw [runAll_apply]
  rcases hb : bareRun platform a c with ⟨f | code, c'⟩
  · have hguarded := hcomes.guarded f (congrArg Prod.fst hb)
    rw [hb] at hguarded
    exact settle_apply hguarded
  · rfl

theorem runs_runAll {p : Permit} (hp : p.unguards) :
    Runs p (bareRun platform a c).2 (runAll platform a c).2 := by
  rw [runAll_apply]
  rcases bareRun platform a c with ⟨f | code, c'⟩
  · exact runs_settle hp f c'
  · exact .refl

end Answers

end StoredRoutine.CommandLine
