import StoredRoutine.Proofs.BatchLoop
import StoredRoutine.Proofs.RunStages

/-!
What the batch of a run may do to a course: finding its sources, naming their methods, compiling them
and writing what came of it.
-/
namespace StoredRoutine

open CommandLine (Course Runs)

namespace Outcome

variable {α β ε : Type}

theorem exists_of_mapM_error {f : α → Except ε β} {l : List α} {e : ε}
    (h : l.mapM f = .error e) : ∃ a ∈ l, f a = .error e := by
  induction l with
  | nil => cases h
  | cons a l ih =>
    rw [List.mapM_cons] at h
    rcases bind_eq_error_iff.1 h with ha | ⟨b, -, hrest⟩
    · exact ⟨a, List.mem_cons_self, ha⟩
    · rcases bind_eq_error_iff.1 hrest with hl | ⟨bs, -, hp⟩
      · obtain ⟨a', hm, ha'⟩ := ih hl
        exact ⟨a', List.mem_cons_of_mem _ hm, ha'⟩
      · cases hp

theorem exists_of_mapM_ok {f : α → Except ε β} {l : List α} {bs : List β}
    (h : l.mapM f = .ok bs) {b : β} (hb : b ∈ bs) : ∃ a ∈ l, f a = .ok b := by
  induction l generalizing bs with
  | nil =>
    obtain rfl : [] = bs := Except.ok.inj h
    cases hb
  | cons a l ih =>
    rw [List.mapM_cons] at h
    obtain ⟨b', hb', hrest⟩ := bind_eq_ok_iff.1 h
    obtain ⟨bs', hbs', hp⟩ := bind_eq_ok_iff.1 hrest
    obtain rfl : b' :: bs' = bs := Except.ok.inj hp
    rcases List.mem_cons.1 hb with rfl | hb
    · exact ⟨a, List.mem_cons_self, hb'⟩
    · obtain ⟨a', hm, ha'⟩ := ih hbs' hb
      exact ⟨a', List.mem_cons_of_mem _ hm, ha'⟩

theorem exists_of_filterAuxM_error {f : α → Except ε Bool} {l kept : List α} {e : ε}
    (h : l.filterAuxM f kept = .error e) : ∃ a ∈ l, f a = .error e := by
  induction l generalizing kept with
  | nil => cases h
  | cons a l ih =>
    rw [List.filterAuxM] at h
    rcases bind_eq_error_iff.1 h with ha | ⟨b, -, hrest⟩
    · exact ⟨a, List.mem_cons_self, ha⟩
    · obtain ⟨a', hm, ha'⟩ := ih hrest
      exact ⟨a', List.mem_cons_of_mem _ hm, ha'⟩

theorem exists_of_filterM_error {f : α → Except ε Bool} {l : List α} {e : ε}
    (h : l.filterM f = .error e) : ∃ a ∈ l, f a = .error e := by
  rw [List.filterM] at h
  rcases bind_eq_error_iff.1 h with h | ⟨_, -, h⟩
  · exact exists_of_filterAuxM_error h
  · cases h

end Outcome

namespace Glob

variable {t : FileTree} {directory : Place}

/-- Nothing but the length of a path keeps from following a pattern. -/
theorem error_of_select {directoriesOnly : Bool} {cs : List Component} {base : Path}
    {f : OsFailure} (h : select t directory directoriesOnly cs base = .error f) :
    f.error = .nameTooLong := by
  have hfits : ∀ {rest : List Component} {path : Path},
      (if rest.isEmpty && !directoriesOnly then t.hasAny directory path.toString
        else t.hasDirectory directory path.toString) = .error f → f.error = .nameTooLong := by
    intro rest path h
    have hmap : ∀ {g : Option Node → Bool},
        (t.find? directory path.toString).map g = .error f → f.error = .nameTooLong := by
      intro g h
      cases hf : t.find? directory path.toString with
      | error f' =>
        rw [hf] at h
        exact Except.error.inj h ▸ FileTree.error_of_find? hf
      | ok node =>
        rw [hf] at h
        cases h
    split at h
    · exact hmap h
    · exact hmap h
  induction cs generalizing base with
  | nil => cases h
  | cons c cs ih =>
    cases c with
    | named name =>
      rw [select] at h
      rcases Outcome.bind_eq_error_iff.1 h with h | ⟨there, -, h⟩
      · exact hfits h
      · split at h
        · exact ih h
        · cases h
    | wildcard items =>
      rw [select] at h
      rcases Outcome.bind_eq_error_iff.1 h with h | ⟨matching, -, h⟩
      · obtain ⟨path, -, h⟩ := Outcome.exists_of_filterM_error h
        exact hfits h
      · rcases Outcome.bind_eq_error_iff.1 h with h | ⟨found, -, h⟩
        · obtain ⟨path, -, h⟩ := Outcome.exists_of_mapM_error h
          exact ih h
        · cases h
    | recursive =>
      rw [select] at h
      rcases Outcome.bind_eq_error_iff.1 h with h | ⟨found, -, h⟩
      · obtain ⟨path, -, h⟩ := Outcome.exists_of_mapM_error h
        exact ih h
      · cases h

/-- Finding files fails on a text that is no pattern, or on the length of a path. -/
theorem error_of_find {root : Path} {pattern : String} {fault : Fault}
    (h : find t directory root pattern = .error fault) :
    Pattern.parse pattern = .error fault ∨
      ∃ failure, fault = .os failure ∧ failure.error = .nameTooLong := by
  rw [find] at h
  rcases Outcome.bind_eq_error_iff.1 h with h | ⟨parsed, -, h⟩
  · exact .inl h
  · rcases Outcome.bind_eq_error_iff.1 h with h | ⟨found, -, h⟩
    · obtain ⟨failure, hfound, rfl⟩ := Outcome.mapError_eq_error_iff.1 h
      refine .inr ⟨failure, rfl, ?_⟩
      rcases Outcome.bind_eq_error_iff.1 hfound with h | ⟨there, -, h⟩
      · rw [FileTree.hasDirectory] at h
        cases hf : t.find? directory root.toString with
        | error f' =>
          rw [hf] at h
          exact Except.error.inj h ▸ FileTree.error_of_find? hf
        | ok node =>
          rw [hf] at h
          cases h
      · split at h
        · exact error_of_select h
        · cases h
    · cases h

/-- What is found is a file, so its path holds no NUL. -/
theorem contains_nul_of_find {root : Path} {pattern : String} {paths : List Path}
    (h : find t directory root pattern = .ok paths) {path : Path} (hm : path ∈ paths) :
    path.toString.contains '\x00' = false := by
  rw [find] at h
  obtain ⟨parsed, -, h⟩ := Outcome.bind_eq_ok_iff.1 h
  obtain ⟨found, -, h⟩ := Outcome.bind_eq_ok_iff.1 h
  obtain rfl := Except.ok.inj h
  have hfile := (List.mem_filter.1 (List.mem_mergeSort.1 hm)).2
  by_contra hnul
  rw [FileTree.isFile, FileTree.node?, if_pos (by simpa using hnul)] at hfile
  cases hfile

end Glob

section Loading

open Routine (Source)

variable {η ε : Type} {p : Permit} {B : Course η → ε → Prop}

theorem confined_diagnose (d : Diagnostic) :
    Confined p (fun _ => True) B (Task.diagnose d : Task (Course η) ε Unit) :=
  .report _

theorem runs_reports (rs : List Report) (c : Course η) :
    Runs p c (rs.foldl (fun c r => Host.report r c) c) := by
  induction rs generalizing c with
  | nil => exact .refl
  | cons r rs ih => exact (ih _).head (.leave (.report r))

/-- Loading a source reports, and fails locally unless its path holds a NUL. -/
theorem confined_load (pairs : Placeholder.Pairs) (source : Source) :
    Confined p (fun _ => True)
      (fun _ failure => source.path.contains '\x00' = false → failure.isLocal = true)
      (Routine.load pairs source : Task (Course η) _ _) := by
  intro c _
  obtain ⟨reports, hreports⟩ := Routine.load_snd pairs source c
  constructor
  · rw [hreports]
    exact (runs_reports reports _).head (.leave (.report (Routine.announcement source)))
  · cases ho : (Routine.load pairs source c).1 with
    | ok record => trivial
    | error failure =>
      rw [Routine.load_fst] at ho
      exact fun hnul => Routine.isLocal_of_outcomeIn hnul ho

/-- Only a path with a NUL ends the loads of a batch. -/
theorem confined_loadEach (pairs : Placeholder.Pairs) (sources : List Source)
    (result : Batch.Result) :
    Confined p (fun _ => True)
      (fun _ _ => ∃ source ∈ sources, source.path.contains '\x00' = true)
      (Batch.loadEach pairs sources result : Task (Course η) _ _) := by
  induction sources generalizing result with
  | nil => exact Confined.pure trivial
  | cons source sources ih =>
    have hrest : ∀ result, Confined p (fun _ => True)
        (fun _ _ => ∃ other ∈ source :: sources, other.path.contains '\x00' = true)
        (Batch.loadEach pairs sources result : Task (Course η) _ _) := fun result =>
      (ih result).mono (fun _ h => h) fun _ _ ⟨other, hm, hn⟩ =>
        ⟨other, List.mem_cons_of_mem _ hm, hn⟩
    rw [Batch.loadEach]
    refine Confined.bind (Confined.outcome (confined_load pairs source)) fun outcome ho => ?_
    cases outcome with
    | ok record => exact hrest _
    | error failure =>
      refine Confined.ite (fun _ => Confined.bind (.reportAll _) fun _ _ => hrest _)
        fun hlocal => .throw fun _ => ⟨source, List.mem_cons_self, ?_⟩
      by_contra hnul
      exact hlocal (ho.2 failure rfl (Bool.eq_false_iff.2 hnul))

theorem confined_withoutClashes (sources : List Source) :
    Confined p (fun remaining => ∀ source ∈ remaining.1, source ∈ sources) B
      (Batch.withoutClashes sources : Task (Course η) ε _) :=
  Confined.bind (.reportAll _) fun _ _ => .pure fun _ h => (List.mem_filter.1 h).1

theorem confined_batchCompile (batch : Batch) (remaining : List Source)
    (conflicting : List String) :
    Confined p (fun _ => True)
      (fun _ _ => ∃ source ∈ remaining, source.path.contains '\x00' = true)
      (batch.compile remaining conflicting : Task (Course η) _ _) := by
  refine Confined.bind ((confined_loadEach _ _ _).mono (fun _ h => h)
    fun _ _ ⟨source, hm, hn⟩ => ⟨source, (Batch.mem_inNameOrder _).1 hm, hn⟩)
    fun result _ => Confined.bind (.report _) fun _ _ => .pure trivial

end Loading

/-- A failure that a policy raises, or for which what it makes of a name is to blame. -/
def NamePolicy.Raises (policy : NamePolicy) (fault : Raised) : Prop :=
  ∃ name s, (policy.apply name s).1 = .error fault ∨
    ∃ result, (policy.apply name s).1 = .ok result ∧ result.methodName = .error fault

namespace CommandLine

open Routine (Source)

variable {η : Type}

/-- How the metadata of a run may fail to be written. -/
inductive Unwritten (path : Option String) (c : Course η) : Batch.WriteFailure → Prop where
  | system (target : Path) (failure : OsFailure) : Unwritten path c (.os target failure)
  | undecodable {q : String} {fault : Encoding.DecodeFault} (h : path = some q)
    (hs : c.SawUndecodable (Path.ofString q).toString fault) :
    Unwritten path c (.access (.undecodable fault))
  | nulByte {q : String} (h : path = some q) (hn : q.contains '\x00' = true) :
    Unwritten path c (.access .nulByte)

/-- How a plan may fail. -/
inductive Plan.Fails [Scratch.Engine η] (plan : Plan) (paths : List String) (c : Course η) :
    Failure → Prop where
  | settings (failure : Settings.Missing) : Fails plan paths c (.settings failure)
  | missingInitScript (path : String) : Fails plan paths c (.missingInitScript path)
  | scriptPath {failure : OsFailure} (h : failure.error = .nameTooLong) :
    Fails plan paths c (.access (.os failure))
  | scratch {failure : Scratch.OpenFailure}
    (h : Scratch.Unopened plan.scratchDatabase (nonempty plan.initScript) c failure) :
    Fails plan paths c (.scratch failure)
  | pattern {fault : Glob.Fault} (hp : paths = [])
    (h : Glob.Pattern.parse (plan.sourcePattern.getD "") = .error fault ∨
      ∃ failure, fault = .os failure ∧ failure.error = .nameTooLong) :
    Fails plan paths c (.batch (.pattern fault))
  | naming {policy : NamePolicy} {fault : Raised} (h : plan.policy = some policy)
    (hf : policy.Raises fault) : Fails plan paths c (.naming (.raised fault))
  | catalog {db : Scratch.Database (Scratch.Filmed (Scratch.Live η))} {failure : Scratch.Failure}
    (h : (Scratch.Database.catalog db).1 = .error failure) : Fails plan paths c (.catalog failure)
  | source {path : String} (h : path ∈ paths) (hn : path.contains '\x00' = true)
    (failure : Routine.LoadFailure) : Fails plan paths c (.batch (.source failure))
  | metadata {failure : Batch.WriteFailure} (h : Unwritten plan.metadataPath c failure) :
    Fails plan paths c (.batch (.metadata failure))
  | closing {failure : AccessFailure} (h : Scratch.Unremovable c failure) :
    Fails plan paths c (.closing failure)

theorem Unwritten.mono {p : Permit} {path : Option String} {c c' : Course η}
    {f : Batch.WriteFailure} (hc : Runs p c c') (h : Unwritten path c f) :
    Unwritten path c' f := by
  cases h with
  | system target failure => exact .system target failure
  | undecodable h hs => exact .undecodable h (hc.saw hs)
  | nulByte h hn => exact .nulByte h hn

theorem Plan.Fails.mono [Scratch.Engine η] {p : Permit} {plan : Plan} {paths : List String}
    {c c' : Course η} {f : Failure} (hc : Runs p c c') (h : plan.Fails paths c f) :
    plan.Fails paths c' f := by
  cases h with
  | settings failure => exact .settings failure
  | missingInitScript path => exact .missingInitScript path
  | scriptPath h => exact .scriptPath h
  | scratch h => exact .scratch (h.mono hc)
  | pattern hp h => exact .pattern hp h
  | naming h hf => exact .naming h hf
  | catalog h => exact .catalog h
  | source h hn failure => exact .source h hn failure
  | metadata h => exact .metadata (h.mono hc)
  | closing h =>
    obtain ⟨path, rfl, h⟩ := h
    exact .closing ⟨path, rfl, hc.saw h⟩

section Finding

variable {p : Permit}

theorem confined_ofListed {ε α : Type} {G : α → Prop} {B : Course η → ε → Prop}
    {describe : String → Task (Course η) ε α} {paths : List String}
    (h : ∀ path ∈ paths, Confined p G B (describe path)) :
    Confined p (fun found => ∀ x ∈ found.1, G x) B (Batch.ofListed describe paths) := by
  induction paths with
  | nil => exact Confined.pure fun _ hx => absurd hx List.not_mem_nil
  | cons path paths ih =>
    have hrest := ih fun path' hm => h path' (List.mem_cons_of_mem _ hm)
    rw [Batch.ofListed]
    refine Confined.bind .files fun files _ => Confined.bind .directory fun directory _ => ?_
    refine Confined.ite (fun _ => ?_) fun _ => ?_
    · refine Confined.bind (h path List.mem_cons_self) fun x hx => ?_
      exact Confined.bind hrest fun found hfound =>
        .pure (List.forall_mem_cons.2 ⟨hx, hfound⟩)
    · exact Confined.bind (confined_diagnose _) fun _ _ =>
        Confined.bind hrest fun found hfound => .pure hfound

theorem confined_findPaths (pattern root : String) :
    Confined p (fun found => ∀ path ∈ found, path.toString.contains '\x00' = false)
      (fun _ fault => Glob.Pattern.parse pattern = .error fault ∨
        ∃ failure, fault = .os failure ∧ failure.error = .nameTooLong)
      (Batch.findPaths pattern root : Task (Course η) _ _) := by
  refine Confined.examine (fun _ _ h => Glob.error_of_find h) fun found ⟨_, _, hfound⟩ =>
    Confined.bind (.report _) fun _ _ => .pure fun _ hm => Glob.contains_nul_of_find hfound hm

end Finding

/-- A source that comes from a list, or whose path holds no NUL. -/
def Sound (paths : List String) (path : String) : Prop :=
  path ∈ paths ∨ path.contains '\x00' = false

/-- What a source is described by: its path, and a result of the policy that names its method unless
the policy is to blame. -/
def Plan.Describes (plan : Plan) (path : String)
    (described : Source × Option NamePolicy.Result) : Prop :=
  described.1.path = path ∧ ∀ fault, withMethod described.1 described.2 = .error fault →
    ∃ policy, plan.policy = some policy ∧ policy.Raises fault

theorem Plan.path_of_withMethod {source named : Source} {result : Option NamePolicy.Result}
    (h : Plan.withMethod source result = .ok named) : named.path = source.path := by
  cases result with
  | none =>
    obtain rfl := Except.ok.inj h
    rfl
  | some result =>
    obtain ⟨name, -, h⟩ := Outcome.bind_eq_ok_iff.1 h
    obtain rfl := Except.ok.inj h
    rfl

section Stages

variable {p : Permit} {plan : Plan} {paths : List String} [Scratch.Engine η]

theorem confined_validate (plan : Plan) (paths paths' : List String) :
    Confined p (fun _ => True) (plan.Fails paths) (plan.validate paths' : Work η Unit) := by
  refine Confined.bind (.checked fun _ f hf => ?_) fun _ _ => ?_
  · obtain ⟨failure, -, rfl⟩ := Outcome.mapError_eq_error_iff.1 hf
    exact .settings failure
  · cases nonempty plan.initScript with
    | none => exact Confined.pure trivial
    | some script =>
      refine Confined.examine (fun c f hf => ?_) fun there _ =>
        Confined.ite (fun _ => .throw fun _ => .missingInitScript script) fun _ => .pure trivial
      obtain ⟨failure, hfile, rfl⟩ := Outcome.mapError_eq_error_iff.1 hf
      exact .scriptPath (FileTree.error_of_hasFile hfile)

theorem confined_describe (path : String) :
    Confined p (plan.Describes path) (plan.Fails paths) (plan.describe path : Work η _) := by
  rw [Plan.describe]
  cases hpolicy : plan.policy with
  | none => exact Confined.pure ⟨rfl, nofun⟩
  | some policy =>
    refine Confined.bind (G := fun result => ∀ fault, result.methodName = .error fault →
      policy.Raises fault) (.mapError (.lent (fun s result hr fault hf => ?_) fun _ s fault hf => ?_))
      fun result hresult => .pure ⟨rfl, fun fault hf => ⟨policy, hpolicy, hresult fault ?_⟩⟩
    · exact ⟨_, s, .inr ⟨result, hr, hf⟩⟩
    · exact .naming hpolicy ⟨_, s, .inl hf⟩
    · rcases Outcome.bind_eq_error_iff.1 hf with h | ⟨_, -, h⟩
      · exact h
      · cases h

theorem confined_sources :
    Confined p (fun found => ∀ source ∈ found.1, Sound paths source.path)
      (plan.Fails paths) (plan.sources paths : Work η _) := by
  have hnamed : ∀ (described : List (Source × Option NamePolicy.Result)) (missing : List String),
      (∀ x ∈ described, ∃ path, Sound paths path ∧ plan.Describes path x) →
      Confined p (fun found => ∀ source ∈ found.1, Sound paths source.path)
        (plan.Fails paths) (do
          let sources ← Task.ofExcept
            ((described.mapM fun x => Plan.withMethod x.1 x.2).mapError (.naming ∘ .raised))
          return (sources, missing) : Work η (List Source × List String)) := by
    intro described missing hdescribed
    refine Confined.bind (G := fun sources => ∀ source ∈ sources, Sound paths source.path)
      (.ofExcept (fun sources hs source hm => ?_) fun _ f hf => ?_) fun sources hs => .pure hs
    · obtain ⟨x, hx, hw⟩ := Outcome.exists_of_mapM_ok (Outcome.mapError_eq_ok_iff.1 hs) hm
      obtain ⟨path, hsound, rfl, -⟩ := hdescribed x hx
      rwa [Plan.path_of_withMethod hw]
    · obtain ⟨fault, hfault, rfl⟩ := Outcome.mapError_eq_error_iff.1 hf
      obtain ⟨x, hx, hw⟩ := Outcome.exists_of_mapM_error hfault
      obtain ⟨path, -, -, hraises⟩ := hdescribed x hx
      obtain ⟨policy, hpolicy, hraises⟩ := hraises fault hw
      exact .naming hpolicy hraises
  have hdescribe : ∀ path, Sound paths path → Confined p
      (fun x => ∃ path, Sound paths path ∧ plan.Describes path x)
      (plan.Fails paths) (plan.describe path : Work η _) := fun path hpath =>
    (confined_describe path).mono (fun x hx => ⟨path, hpath, hx⟩) fun _ _ hf => hf
  rw [Plan.sources]
  refine Confined.ite (fun hempty => ?_) fun _ => ?_
  · refine Confined.bind (G := fun found => ∀ x ∈ found,
      ∃ path, Sound paths path ∧ plan.Describes path x) ?_
      fun described hdescribed => hnamed described [] hdescribed
    refine Confined.bind (.mapError ((confined_findPaths _ _).mono (fun _ h => h)
      fun _ fault hf => .pattern (List.isEmpty_iff.1 hempty) hf)) fun found hfound => ?_
    exact .mapM fun path hm => hdescribe _ (.inr (hfound path hm))
  · exact Confined.bind (confined_ofListed fun path hm => hdescribe path (.inl hm))
      fun found hfound => hnamed found.1 found.2 hfound

/-- The batch of a plan has the columns of its scratch database. -/
theorem confined_batchOver (scratch : Scratch η) :
    Confined p (fun batch => batch.metadataPath = plan.metadataPath.map .ofString)
      (plan.Fails paths) (plan.batchOver scratch : Work η Batch) := by
  refine Confined.bind (Scratch.confined_perform _ _) fun r hr => ?_
  obtain ⟨-, live, hr⟩ := hr
  refine Confined.bind (.checked fun _ f hf => ?_) fun _ _ => .pure rfl
  obtain ⟨failure, hfailure, rfl⟩ := Outcome.mapError_eq_error_iff.1 hf
  exact .catalog (hr.symm.trans hfailure)

end Stages

end CommandLine

end StoredRoutine
