import StoredRoutine.Proofs.RunBatches

/-!
How a run is set up and planned, and how its scratch database is opened. All of this is confined to what
the run may touch anyway, and whatever fails is one of the failures that are listed here.
-/
namespace StoredRoutine

namespace Path

/-- An absolute path leads to the same place from every directory. -/
theorem resolve_of_isAbsolute {p : Path} (h : p.isAbsolute = true) (directory : Place) :
    p.resolve directory = p.resolve [] := by
  rw [resolve, resolve, absoluteParts, absoluteParts, if_pos h, if_pos h]

/-- A path whose text begins with a slash is the same kind of path when it is read again. -/
theorem isAbsolute_ofString_toString {p : Path} (h : p.root = "/" ∨ p.root = "//") :
    (ofString p.toString).isAbsolute = true := by
  have hroot : p.root ≠ "" := by rcases h with h | h <;> simp [h]
  rw [isAbsolute_ofString, String.startsWith_string_iff, toString, if_neg (by simp [hroot]),
    String.toList_append]
  rcases h with h | h
  · exact ⟨_, by rw [h]⟩
  · exact ⟨'/' :: ("/".intercalate p.parts).toList, by rw [h]; rfl⟩

theorem join_root {p q : Path} (hp : p.root = "/" ∨ p.root = "//")
    (hq : q.root = "" ∨ q.root = "/" ∨ q.root = "//") :
    (p.join q).root = "/" ∨ (p.join q).root = "//" := by
  rw [join]
  split
  · next h => exact hq.resolve_left (by simpa [isAbsolute] using h)
  · exact hp

theorem isAbsolute_join {p q : Path} (h : p.isAbsolute = true) : (p.join q).isAbsolute = true := by
  rw [join]
  split
  · next hq => exact hq
  · exact h

end Path

namespace Settings

variable {directory : Place} {environment : Environment}

/-- The directories of the settings do not depend on where the program is started. -/
theorem logsDirectory_root (directory : Place) (environment : Environment) :
    (ofEnvironment directory environment).logsDirectory.root = "/" ∨
      (ofEnvironment directory environment).logsDirectory.root = "//" :=
  Path.join_root (.inl rfl) (Path.rootOf_cases _)

theorem scratchDatabase_root {path : Path}
    (h : (ofEnvironment directory environment).scratchDatabase = some path) :
    path.root = "/" ∨ path.root = "//" := by
  obtain ⟨v, -, rfl⟩ := Option.map_eq_some_iff.1 h
  exact Path.join_root (.inl rfl) (Path.rootOf_cases _)

/-- The scratch database lies at one place from wherever its path is looked up. -/
theorem resolve_scratchDatabase {path : Path}
    (h : (ofEnvironment directory environment).scratchDatabase = some path) (here : Place) :
    (Path.ofString path.toString).resolve here = (Path.ofString path.toString).resolve directory := by
  have habsolute := Path.isAbsolute_ofString_toString (scratchDatabase_root h)
  rw [Path.resolve_of_isAbsolute habsolute, Path.resolve_of_isAbsolute habsolute directory]

end Settings

/-- A failure of what finds modules. -/
def Importer.Raises (importer : Importer) (fault : Raised) : Prop :=
  ∃ module s, (importer.load module s).1 = .error fault ∨
    ∃ name, (importer.member module name s).1 = .error fault

/-- A policy that some module has under some name. -/
def Importer.Offers (importer : Importer) (policy : NamePolicy) : Prop :=
  ∃ module name s, (importer.member module name s).1 = .ok (some (some policy))

namespace CommandLine

/-- Where the log file of a run lies. -/
def logPlace (settings : Settings) (file : String) (directory : Place) : Place :=
  (((Path.ofString settings.logsDirectory.toString).join (.ofString file)).resolve directory).parts

theorem logPlace_eq (directory : Place) (environment : Environment) (file : String)
    (here : Place) :
    logPlace (Settings.ofEnvironment directory environment) file here =
      logPlace (Settings.ofEnvironment directory environment) file directory := by
  have habsolute := Path.isAbsolute_join (q := .ofString file)
    (Path.isAbsolute_ofString_toString (Settings.logsDirectory_root directory environment))
  rw [logPlace, logPlace, Path.resolve_of_isAbsolute habsolute,
    Path.resolve_of_isAbsolute habsolute directory]

/-- The path of the metadata that a run asks for. -/
def Arguments.metadataPath (a : Arguments) (settings : Settings) : Option String :=
  a.metadata.text <|> settings.metadataPath.map (·.toString)

/-- The path of the replacement values that a run asks for. -/
def Arguments.placeholdersPath (a : Arguments) (settings : Settings) : Option String :=
  nonempty a.placeholders.text <|> settings.placeholdersFile.map (·.toString)

/-- The plan of a run with its replacement values and its policy. -/
def Arguments.planWith (a : Arguments) (settings : Settings) (values : OrderedMap Text Text)
    (policy : Option NamePolicy) : Plan where
  metadataPath := a.metadataPath settings
  sourcePattern := a.sources.text <|> settings.sourcePattern
  sourceRoot := settings.sourceRoot
  initScript := a.initScript.text <|> settings.initScript.map (·.toString)
  scratchDatabase := settings.scratchDatabase.map (·.toString)
  volatile := settings.volatile
  configured := values
  policy := policy

/-- A plan that a run may come to with its arguments and settings. -/
def Planned (importer : Importer) (a : Arguments) (settings : Settings) (plan : Plan) : Prop :=
  ∃ values policy, (∀ q, policy = some q → importer.Offers q) ∧
    plan = a.planWith settings values policy

theorem Planned.metadataPath {importer : Importer} {a : Arguments} {settings : Settings}
    {plan : Plan} (h : Planned importer a settings plan) :
    plan.metadataPath = a.metadataPath settings := by
  obtain ⟨values, policy, -, rfl⟩ := h
  rfl

theorem Planned.scratchDatabase {importer : Importer} {a : Arguments} {settings : Settings}
    {plan : Plan} (h : Planned importer a settings plan) :
    plan.scratchDatabase = settings.scratchDatabase.map (·.toString) := by
  obtain ⟨values, policy, -, rfl⟩ := h
  rfl

variable {η : Type}

/-- How a run may fail. -/
inductive Fails [Scratch.Engine η] (platform : Platform) (a : Arguments) (settings : Settings)
    (c : Course η) : Failure → Prop where
  | logDirectory (h : (nonempty a.logFile.text).isSome = true) (failure : AccessFailure) :
    Fails platform a settings c (.access failure)
  | logging (h : (nonempty a.logFile.text).isSome = true) (failure : Log.SetupFailure) :
    Fails platform a settings c (.logging failure)
  | placeholders {path : String} (h : a.placeholdersPath settings = some path)
    {failure : EnvFile.ReadFailure}
    (hf : EnvFile.Unread platform.reader platform.environment path c failure) :
    Fails platform a settings c (.placeholders failure)
  /-- A path leads to no policy. -/
  | policy (path : String) (fault : NamePolicy.Fault) :
    Fails platform a settings c (.naming (.configured path fault))
  | importer {fault : Raised} (h : platform.importer.Raises fault) :
    Fails platform a settings c (.naming (.raised fault))
  | plan {plan : Plan} (h : Planned platform.importer a settings plan) {failure : Failure}
    (hf : plan.Fails a.paths c failure) : Fails platform a settings c failure

theorem Fails.mono [Scratch.Engine η] {p : Permit} {platform : Platform} {a : Arguments}
    {settings : Settings} {c c' : Course η} {f : Failure} (hc : Runs p c c')
    (h : Fails platform a settings c f) : Fails platform a settings c' f := by
  cases h with
  | logDirectory h failure => exact .logDirectory h failure
  | logging h failure => exact .logging h failure
  | placeholders h hf => exact .placeholders h (hf.mono hc)
  | policy path fault => exact .policy path fault
  | importer h => exact .importer h
  | plan h hf => exact .plan h (hf.mono hc)

/-- A refusal of the file system has no answer. -/
theorem Failure.answer?_access (failure : AccessFailure) :
    (Failure.access failure).answer? = none := by
  rcases failure with ⟨error, path, target⟩ | _ | fault | fault | fault
  · cases error <;> rfl
  · rfl
  · cases fault <;> rfl
  · rfl
  · rfl

theorem Failure.answer?_closing (failure : AccessFailure) :
    (Failure.closing failure).answer? = none := by
  rcases failure with ⟨error, path, target⟩ | _ | fault | fault | fault
  · cases error <;> rfl
  · rfl
  · cases fault <;> rfl
  · rfl
  · rfl

theorem Failure.answer?_logging (failure : Log.SetupFailure) :
    (Failure.logging failure).answer? = none := by
  cases failure with
  | level fault => cases fault <;> rfl
  | path fault => rfl
  | access failure => exact answer?_access failure

/-- A policy is one that the importer offers, and nothing but the importer fails in a way of its own. -/
theorem confined_find {p : Permit} (importer : Importer) (path : String) :
    Confined p (fun policy => ∀ q, policy = some q → importer.Offers q)
      (fun _ fault => fault.isMissing = true ∨
        ∃ raised, fault = .raised raised ∧ importer.Raises raised)
      (NamePolicy.find importer path : Task (Course η) _ _) := by
  rw [NamePolicy.find]
  refine Confined.ite (fun _ => .pure nofun) fun _ => ?_
  dsimp only
  refine Confined.ite (fun _ => .throw fun _ => .inl rfl) fun _ => ?_
  refine Confined.bind (.mapError (.lent (G := fun _ => True) (fun _ _ _ => trivial)
    fun _ s e he => .inr ⟨e, rfl, _, s, .inl he⟩)) fun _ _ => ?_
  refine Confined.bind (G := fun found => ∀ q, found = some (some q) → importer.Offers q)
    (.mapError (.lent (fun s a ha q hq => ?_) fun _ s e he => .inr ⟨e, rfl, _, s, .inr ⟨_, he⟩⟩))
    fun found hfound => ?_
  · exact ⟨_, _, s, hq ▸ ha⟩
  · match found with
    | some (some policy) =>
      exact Confined.pure fun q hq => hfound q (congrArg some hq)
    | some none => exact Confined.throw fun _ => .inl rfl
    | none => exact Confined.throw fun _ => .inl rfl

section Planning

variable {p : Permit} {a : Arguments} {settings : Settings} {platform : Platform}
  [Scratch.Engine η]

theorem confined_setUpLogging (hl : settings.logsDirectory.root ≠ "")
    (h : ∀ file, nonempty a.logFile.text = some file →
      ∀ here, p.opens (logPlace settings file here)) :
    Confined p (fun _ => True) (fun c f => Fails platform a settings c f ∧ f.answer? = none)
      (setUpLogging settings a : Work η Unit) := by
  rw [setUpLogging]
  cases hfile : nonempty a.logFile.text with
  | none =>
    refine Confined.ite (fun _ => ?_) fun _ => .pure trivial
    refine confined_logging fun l target ht => .inr ?_
    simpa [Log.Logging.setAllLevels, List.map_map] using ht
  | some file =>
    have hsome : (nonempty a.logFile.text).isSome = true := by rw [hfile]; rfl
    refine Confined.bind (.mapError ((confined_makeDirectories _ fun _ _ => trivial).mono
      (B := fun _ _ => True) (fun _ h => h) fun _ f _ =>
        ⟨.logDirectory hsome f, Failure.answer?_access f⟩)) fun _ _ => ?_
    refine Confined.mapError ((confined_setup fun _ directory path hd hpath here => ?_).mono
      (fun _ h => h) fun _ f _ => ⟨.logging hsome f, Failure.answer?_logging f⟩)
    have hnonempty : settings.logsDirectory.toString.toList ≠ [] := by
      rw [Path.toString, if_neg (by simp [hl]), String.toList_append]
      exact fun h => hl (String.toList_eq_nil_iff.1 (List.append_eq_nil_iff.1 h).1)
    have hd' : Except.ok (.ofString (String.ofList settings.logsDirectory.toString.toList)) =
        (.ok directory : Except Log.PathFault Path) := by
      rw [← hd]
      obtain ⟨c, cs, hcs⟩ := List.exists_cons_of_ne_nil hnonempty
      rw [hcs]
      rfl
    have hpath' : Except.ok (directory.join (.ofString (String.ofList file.toList))) =
        (.ok path : Except Log.PathFault Path) := hpath
    have hdirectory : Path.ofString settings.logsDirectory.toString = directory := by
      rw [← Except.ok.inj hd', String.ofList_toList]
    have hjoin : directory.join (.ofString file) = path := by
      rw [← Except.ok.inj hpath', String.ofList_toList]
    have hopens := h file hfile here
    rwa [logPlace, hdirectory, hjoin] at hopens

theorem confined_findPolicy (path : Option String) :
    Confined p (fun policy => ∀ q, policy = some q → platform.importer.Offers q)
      (Fails platform a settings) (findPolicy platform.importer path : Work η _) := by
  refine Confined.mapError (Confined.mapError ((confined_find _ _).mono (fun _ h => h)
    fun c fault hf => ?_))
  cases hm : fault.isMissing with
  | true =>
    rw [if_pos rfl]
    exact .policy _ _
  | false =>
    rw [if_neg Bool.false_ne_true]
    obtain ⟨raised, rfl, hraises⟩ := hf.resolve_left (by simp [hm])
    exact .importer hraises

theorem confined_readPlaceholders {path : String} (hpath : a.placeholdersPath settings = some path) :
    Confined p (fun _ => True) (Fails platform a settings)
      (readPlaceholders platform path : Work η _) :=
  .mapError ((confined_readValues _ _ path).mono (fun _ h => h)
    fun _ _ hf => .placeholders hpath hf)

/-- The values of the settings count if none are given on the command line. -/
theorem confined_replacementValues (hnone : nonempty a.placeholders.text = none) :
    Confined p (fun _ => True) (Fails platform a settings)
      (Task.mapError .placeholders
        (settings.replacementValues platform.reader platform.environment) :
        Work η (OrderedMap Text Text)) := by
  rw [Settings.replacementValues]
  cases hfile : settings.placeholdersFile with
  | none => exact Confined.mapError (.pure trivial)
  | some path =>
    have hpath : a.placeholdersPath settings = some path.toString := by
      rw [Arguments.placeholdersPath, hnone, hfile]
      rfl
    exact confined_readPlaceholders hpath

theorem confined_plan :
    Confined p (Planned platform.importer a settings) (Fails platform a settings)
      (plan platform settings a : Work η Plan) := by
  have hgiven : Confined p (fun given => given = none → nonempty a.placeholders.text = none)
      (Fails platform a settings)
      ((nonempty a.placeholders.text).mapM (readPlaceholders platform) : Work η _) := by
    cases hp : nonempty a.placeholders.text with
    | none => exact .pure fun _ => rfl
    | some path =>
      refine Confined.bind (confined_readPlaceholders ?_) fun _ _ => .pure fun he => by cases he
      rw [Arguments.placeholdersPath, hp]
      rfl
  have hchosen : ∀ {find : Work η (Option NamePolicy)} (values : OrderedMap Text Text),
      Confined p (fun policy => ∀ q, policy = some q → platform.importer.Offers q)
        (Fails platform a settings) find →
      Confined p (Planned platform.importer a settings) (Fails platform a settings)
        (do return a.planWith settings values (← find)) := fun values hfind =>
    hfind.bind fun policy hpolicy => .pure ⟨values, policy, hpolicy, rfl⟩
  rw [plan]
  refine Confined.bind hgiven fun given hnone => ?_
  refine Confined.bind (confined_findPolicy _) fun policy hpolicy => ?_
  cases given with
  | some values =>
    refine Confined.bind (G := fun _ => True) (.pure trivial) fun _ _ => ?_
    cases policy with
    | some found => exact hchosen _ (.pure hpolicy)
    | none => exact hchosen _ (confined_findPolicy _)
  | none =>
    refine Confined.bind (confined_replacementValues (hnone rfl)) fun _ _ => ?_
    cases policy with
    | some found => exact hchosen _ (.pure hpolicy)
    | none => exact hchosen _ (confined_findPolicy _)

end Planning

end CommandLine

end StoredRoutine
