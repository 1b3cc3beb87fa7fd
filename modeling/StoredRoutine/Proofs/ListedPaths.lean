import StoredRoutine.Batch.Load
import StoredRoutine.Proofs.BatchAccounting
import StoredRoutine.Proofs.MetadataDocument

/-!
What the user is told about the sources of a list. Paths without a file are reported first, then each
method name that sources share, then each source that does not compile, and in the end all of them
once more as an overview. Every failed path is reported as often as it is listed.
-/
namespace StoredRoutine

namespace Workspace

/-- A workspace with more reports. -/
def told (w : Workspace) (rs : List Report) : Workspace := { w with reports := w.reports ++ rs }

@[simp] theorem files_told (w : Workspace) (rs : List Report) : (w.told rs).files = w.files := rfl

@[simp] theorem directory_told (w : Workspace) (rs : List Report) :
    (w.told rs).directory = w.directory := rfl

@[simp] theorem reports_told (w : Workspace) (rs : List Report) :
    (w.told rs).reports = w.reports ++ rs := rfl

theorem told_nil (w : Workspace) : w.told [] = w := by simp [told]

theorem told_told (w : Workspace) (rs rs' : List Report) :
    (w.told rs).told rs' = w.told (rs ++ rs') := by
  simp [told]

theorem foldl_report (rs : List Report) (w : Workspace) :
    rs.foldl (fun s r => Host.report r s) w = w.told rs := by
  induction rs generalizing w with
  | nil => exact w.told_nil.symm
  | cons r rs ih => exact (ih _).trans (w.told_told [r] rs)

end Workspace

namespace Diagnostic

def isErrorList : Diagnostic → Bool
  | .errorList _ _ => true
  | _ => false

def isWarningList : Diagnostic → Bool
  | .warningList _ _ => true
  | _ => false

/-- Whether a message lists what went wrong. -/
def isList (d : Diagnostic) : Bool := d.isErrorList || d.isWarningList

end Diagnostic

theorem Report.diagnostics_append (rs rs' : List Report) :
    diagnostics (rs ++ rs') = diagnostics rs ++ diagnostics rs' := by
  simp [diagnostics]

/-- The messages of some reports that list what went wrong. -/
def Report.lists (rs : List Report) : List Diagnostic := (diagnostics rs).filter Diagnostic.isList

@[simp] theorem Report.lists_append (rs rs' : List Report) :
    lists (rs ++ rs') = lists rs ++ lists rs' := by
  simp [lists, diagnostics_append]

theorem Report.lists_map_diagnostic (ds : List Diagnostic) :
    lists (ds.map Report.diagnostic) = ds.filter Diagnostic.isList := by
  simp [lists, diagnostics, List.filterMap_map]

namespace Routine

/-- No list is made while a routine is loaded, whatever becomes of it. -/
theorem load_told (pairs : Placeholder.Pairs) (source : Source) (w : Workspace) :
    ∃ rs, (load pairs source w).2 = w.told rs ∧ Report.lists rs = [] := by
  have hannounced : announced source w = w.told [announcement source] := rfl
  cases h : readSource (Host.files (announced source w)) (Host.directory (announced source w))
      source.path with
  | error failure =>
    rw [load_of_unreadable pairs source w h]
    exact ⟨_, hannounced, rfl⟩
  | ok text =>
    rw [load_of_readable pairs source w h, Workspace.foldl_report, hannounced, Workspace.told_told]
    refine ⟨_, rfl, ?_⟩
    rw [Report.lists_append]
    cases compile _ pairs source text with
    | ok record => rfl
    | error failure =>
      cases failure with
      | parameters mismatch =>
        simp [outcomeReports, Parameter.Mismatch.notes, announcement, Report.lists,
          Report.diagnostics, Diagnostic.isList, Diagnostic.isErrorList, Diagnostic.isWarningList]
      | _ => rfl

/-- Loading takes no notice of what was reported before. -/
theorem load_fst_told (pairs : Placeholder.Pairs) (source : Source) (w : Workspace)
    (rs : List Report) : (load pairs source (w.told rs)).1 = (load pairs source w).1 := by
  rw [load_fst_of_quiet, load_fst_of_quiet]
  rfl

end Routine

namespace Batch

open Routine (Source Metadata)

/-- Why a source cannot be loaded, if it cannot. -/
def fault? (batch : Batch) (w : Workspace) (source : Source) : Option Routine.LoadFailure :=
  match (Routine.load batch.replacePairs source w).1 with
  | .ok _ => none
  | .error failure => some failure

/-- The sources among some that cannot be loaded, and why. -/
def faults (batch : Batch) (w : Workspace) (sources : List Source) :
    List (Source × Routine.LoadFailure) :=
  sources.filterMap fun source => (batch.fault? w source).map (source, ·)

/-- What the user is told about a source that cannot be loaded. -/
def faultList (fault : Source × Routine.LoadFailure) : Diagnostic :=
  .errorList fault.2.message [Routine.failureNotice fault.1.path]

section Loop

variable (batch : Batch) (w : Workspace)

theorem faults_cons (source : Source) (sources : List Source) :
    batch.faults w (source :: sources) =
      ((batch.fault? w source).map (source, ·)).toList ++ batch.faults w sources := by
  rw [faults, List.filterMap_cons]
  cases batch.fault? w source <;> rfl

theorem faults_told (rs : List Report) (sources : List Source) :
    batch.faults (w.told rs) sources = batch.faults w sources := by
  simp only [faults, fault?, Routine.load_fst_told]

theorem map_path_faults (sources : List Source) :
    (batch.faults w sources).map (·.1.path) =
      (sources.filter fun source => (batch.record? w source).isNone).map (·.path) := by
  induction sources with
  | nil => rfl
  | cons source sources ih =>
    have hrecord : (batch.record? w source).isNone = (batch.fault? w source).isSome := by
      rw [record?, fault?]
      cases (Routine.load batch.replacePairs source w).1 <;> rfl
    rw [faults_cons, List.map_append, ih, List.filter_cons, hrecord]
    cases batch.fault? w source <;> rfl

/-- While sources are loaded, one list is made for each that fails, in their order. -/
theorem loadEach_told (sources : List Source) (result : Result)
    (hp : ∀ source ∈ sources, source.path.contains '\x00' = false) :
    ∃ rs, (loadEach batch.replacePairs sources result w).2 = w.told rs ∧
      Report.lists rs = (batch.faults w sources).map faultList := by
  induction sources generalizing result w with
  | nil => exact ⟨[], w.told_nil.symm, rfl⟩
  | cons source sources ih =>
    have hrest : ∀ other ∈ sources, other.path.contains '\x00' = false :=
      fun other h => hp other (List.mem_cons_of_mem _ h)
    obtain ⟨rs, hrs, hlists⟩ := Routine.load_told batch.replacePairs source w
    rw [loadEach, Task.bind_apply_of_ok (Task.outcome_apply _ w), faults_cons, fault?, hrs]
    cases ho : (Routine.load batch.replacePairs source w).1 with
    | ok record =>
      obtain ⟨rs', hrs', hlists'⟩ := ih (w.told rs)
        { result with metadata := result.metadata.insert source.routineName record } hrest
      refine ⟨rs ++ rs', by rw [← Workspace.told_told]; exact hrs', ?_⟩
      rw [Report.lists_append, hlists, hlists', faults_told]
      rfl
    | error failure =>
      have hl : failure.isLocal = true := by
        rw [Routine.load_fst_of_quiet] at ho
        exact Routine.isLocal_of_outcomeIn (hp source List.mem_cons_self) ho
      simp only [hl, if_true]
      rw [Task.bind_apply_of_ok (Task.reportAll_apply _ _), Workspace.foldl_report]
      obtain ⟨rs', hrs', hlists'⟩ := ih ((w.told rs).told (failureReports source failure))
        ⟨result.metadata.erase source.routineName, result.failedPaths ++ [source.path]⟩ hrest
      refine ⟨rs ++ (failureReports source failure ++ rs'), ?_, ?_⟩
      · rw [← Workspace.told_told, ← Workspace.told_told]
        exact hrs'
      · rw [Report.lists_append, Report.lists_append, hlists, hlists', faults_told, faults_told]
        rfl

end Loop

section Run

variable (batch : Batch) (sources : List Source) (w : Workspace)

/-- The sources that a batch loads, in its order. -/
def taken : List Source := inNameOrder (sources.filter (! shares sources ·))

/-- What is logged when a batch has gone through its sources. -/
def summary (result : Result) : Report :=
  .info batchLog
    s!"Loaded {result.metadata.size} routine(s), {result.failedPaths.length} failed"

/-- A batch gives the result of its loads, and logs it. -/
theorem run_of_loads {result : Result} {w' : Workspace}
    (h : batch.loads sources w = (.ok result, w')) :
    batch.run sources w = (.ok result, w'.told [summary result]) := by
  rw [run, Task.bind_apply_of_ok (withoutClashes_apply sources w)]
  exact (Task.bind_apply_of_ok h).trans
    ((Task.bind_apply_of_ok (Task.report_apply _ _)).trans (Task.pure_apply _ _))

theorem clashReports_eq : clashReports sources = (sharedNames sources).map fun name =>
    .errorList (clashMessage name) ((named sources name).map (·.path)) := by
  rw [clashReports, clashingNames_eq]
  rfl

theorem filter_isList_clashReports :
    (clashReports sources).filter Diagnostic.isList = clashReports sources :=
  List.filter_eq_self.2 fun d h => by
    obtain ⟨name, -, rfl⟩ := List.mem_map.1 h
    rfl

/-- What a batch comes to, and the lists that it makes. -/
theorem run_told (hp : ∀ source ∈ sources, source.path.contains '\x00' = false) :
    ∃ result rs, batch.run sources w = (.ok result, w.told rs) ∧
      result.failedPaths = (sources.filter (shares sources)).map (·.path) ++
        (batch.faults w (taken sources)).map (·.1.path) ∧
      Report.lists rs =
        clashReports sources ++ (batch.faults w (taken sources)).map faultList := by
  have hnul : ∀ source ∈ taken sources, source.path.contains '\x00' = false :=
    fun source h => hp source (List.mem_filter.1 ((mem_inNameOrder _).1 h)).1
  obtain ⟨w₁, hw₁⟩ : ∃ w₁, w.told ((clashReports sources).map Report.diagnostic) = w₁ := ⟨_, rfl⟩
  obtain ⟨start, hstart⟩ : ∃ start : Result,
      ⟨∅, (sources.filter (shares sources)).map (·.path)⟩ = start := ⟨_, rfl⟩
  obtain ⟨rs, hrs, hlists⟩ := loadEach_told batch w₁ (taken sources) start hnul
  have hloads : batch.loads sources w =
      (.ok (start.collect (batch.record? w₁) (taken sources)), w₁.told rs) := by
    rw [loads, separate_eq_filter, clashesReported, Workspace.foldl_report, hw₁, hstart]
    exact Prod.ext (loadEach_apply _ _ _ _ hnul) hrs
  subst hw₁ hstart
  have hrun := run_of_loads batch sources w hloads
  rw [Workspace.told_told, Workspace.told_told] at hrun
  refine ⟨_, _, hrun, ?_, ?_⟩
  · rw [Result.failedPaths_collect, ← faults_told batch w, map_path_faults]
  · rw [Report.lists_append, Report.lists_append, Report.lists_map_diagnostic,
      filter_isList_clashReports, hlists, faults_told]
    exact congrArg _ (List.append_nil _)

end Run

section Listed

variable (batch : Batch) (w : Workspace)

/-- The paths of a list that name something. -/
def present (paths : List String) : List String :=
  paths.filter (w.files.pathExists w.directory ·)

/-- The paths of a list that name nothing. -/
def absent (paths : List String) : List String :=
  paths.filter (! w.files.pathExists w.directory ·)

theorem listedSources_apply (paths : List String) :
    (batch.listedSources paths : Task Workspace Failure _) w =
      (.ok ((present w paths).map batch.describe, absent w paths),
        w.told (((absent w paths).map missingMessage).map Report.diagnostic)) := by
  induction paths generalizing w with
  | nil => exact congrArg (Prod.mk _) w.told_nil.symm
  | cons path paths ih =>
    have hrest : ∀ w', ofListed (fun path => pure (batch.describe path)) paths w' = _ :=
      fun w' => ih w'
    rw [listedSources, ofListed, Task.bind_apply_of_ok (Task.files_apply w),
      Task.bind_apply_of_ok (Task.directory_apply w)]
    cases hthere : w.files.pathExists w.directory path with
    | true =>
      have hpresent : present w (path :: paths) = path :: present w paths :=
        List.filter_cons_of_pos hthere
      have habsent : absent w (path :: paths) = absent w paths :=
        List.filter_cons_of_neg (by rw [hthere]; decide)
      rw [if_pos rfl, Task.bind_apply_of_ok (Task.pure_apply _ _),
        Task.bind_apply_of_ok (hrest w), hpresent, habsent]
      rfl
    | false =>
      have hpresent : present w (path :: paths) = present w paths :=
        List.filter_cons_of_neg (by rw [hthere]; decide)
      have habsent : absent w (path :: paths) = path :: absent w paths :=
        List.filter_cons_of_pos (by rw [hthere]; decide)
      rw [if_neg Bool.false_ne_true, Task.diagnose, Task.bind_apply_of_ok (Task.report_apply _ _),
        Task.bind_apply_of_ok (hrest _), hpresent, habsent]
      exact congrArg (Prod.mk _) (w.told_told [.diagnostic (missingMessage path)] _)

/-- What is found is loaded by compiling it as a batch that is known, and then finishing it. -/
theorem loadFound_eq_run {σ ε : Type} [Host σ] (raise : Failure → ε)
    (found : Task σ ε (List Source × List String)) :
    loadFound raise found (pure batch) = found >>= fun f =>
      Task.mapError (raise ∘ .source) (batch.run f.1) >>= fun result => Task.mapError raise
        (batch.finish { result with failedPaths := f.2 ++ result.failedPaths }) := by
  have hclashes : ∀ sources, (withoutClashes sources : Task σ ε _) =
      Task.mapError (raise ∘ .source) (withoutClashes sources) := fun sources => by
    funext s
    rw [withoutClashes, withoutClashes, Task.mapError_apply,
      Task.bind_apply_of_ok (Task.reportAll_apply _ s),
      Task.bind_apply_of_ok (Task.reportAll_apply _ s)]
    rfl
  rw [loadFound]
  congr 1
  funext f
  obtain ⟨sources, missing⟩ := f
  dsimp only
  rw [run, Task.mapError_bind, bind_assoc, hclashes]
  rfl

/-- Writing the metadata has nothing to tell the user. -/
theorem diagnostics_writeMetadata (path : Option Path) (metadata : OrderedMap String Metadata) :
    Report.diagnostics (writeMetadata path metadata w).2.reports =
      Report.diagnostics w.reports := by
  rw [writeMetadata, Task.bind_apply, Task.ofExcept_apply]
  cases (document metadata).mapError WriteFailure.unwritable with
  | error failure => rfl
  | ok text =>
    cases path with
    | none => rfl
    | some path =>
      simp only [Task.mapError_apply]
      rw [writeText, Task.bind_apply_of_ok (Task.pass_apply _ _), Workspace.pass_eq,
        Task.bind_apply, Task.withFiles_apply]
      cases (FileTree.writeAtomically _ _ _ _ _).2 with
      | error failure => rfl
      | ok written =>
        dsimp only
        rw [Task.bind_apply_of_ok (Task.report_apply _ _)]
        cases written <;> simp [Report.diagnostics, Host.report, Host.setFiles, Report.info,
          Report.debug]

/-- What was reported before has no part in how the metadata is written. -/
theorem writeMetadata_fst_told (path : Option Path) (metadata : OrderedMap String Metadata)
    (rs : List Report) :
    (writeMetadata path metadata (w.told rs)).1 = (writeMetadata path metadata w).1 := by
  rw [writeMetadata, Task.bind_apply, Task.bind_apply, Task.ofExcept_apply, Task.ofExcept_apply]
  cases (document metadata).mapError WriteFailure.unwritable with
  | error failure => rfl
  | ok text =>
    cases path with
    | none => rfl
    | some path =>
      have hfiles : Host.files (w.told rs) = Host.files w := rfl
      have hdirectory : Host.directory (w.told rs) = Host.directory w := rfl
      simp only [Task.mapError_apply]
      rw [writeText, Task.bind_apply_of_ok (Task.pass_apply _ _),
        Task.bind_apply_of_ok (Task.pass_apply _ _), Workspace.pass_eq, Workspace.pass_eq,
        Task.bind_apply, Task.bind_apply, Task.withFiles_apply, Task.withFiles_apply, hfiles,
        hdirectory]
      cases (FileTree.writeAtomically _ _ _ _ _).2 <;> rfl

/-- A batch is finished once its metadata is written. -/
theorem finish_of_written {result : Result} {written : Bool}
    (h : (writeMetadata batch.metadataPath result.metadata w).1 = .ok written) :
    batch.finish result w = (.ok result,
      (writeMetadata batch.metadataPath result.metadata w).2.told (overview result)) := by
  have hwrite : (Task.mapError Failure.metadata
      (writeMetadata batch.metadataPath result.metadata)) w =
        (.ok written, (writeMetadata batch.metadataPath result.metadata w).2) := by
    rw [Task.mapError_apply, h]
    rfl
  rw [finish, Task.bind_apply_of_ok hwrite, Task.bind_apply_of_ok (Task.reportAll_apply _ _),
    Workspace.foldl_report, Task.pure_apply]

/-- Metadata that cannot be written ends a batch. -/
theorem finish_of_unwritten {result : Result} {failure : WriteFailure}
    (h : (writeMetadata batch.metadataPath result.metadata w).1 = .error failure) :
    (batch.finish result w).1 = .error (.metadata failure) := by
  have hwrite : (Task.mapError Failure.metadata
      (writeMetadata batch.metadataPath result.metadata)) w =
        (.error (.metadata failure), (writeMetadata batch.metadataPath result.metadata w).2) := by
    rw [Task.mapError_apply, h]
    rfl
  rw [finish, Task.bind_apply_of_error hwrite]

/-- What goes wrong with paths of a list. -/
inductive Complaint where
  | missing (path : String)
  | clash (name : String) (paths : List String)
  | fault (path : String) (failure : Routine.LoadFailure)

namespace Complaint

/-- How the user is told. -/
def call : Complaint → Diagnostic
  | missing path => missingMessage path
  | clash name paths => .errorList (clashMessage name) paths
  | fault path failure => .errorList failure.message [Routine.failureNotice path]

/-- The paths that are complained about. -/
def paths : Complaint → List String
  | missing path => [path]
  | clash _ paths => paths
  | fault path _ => [path]

end Complaint

/-- All that goes wrong with the paths of a list: with those that name nothing, with the sources
that share a method name, and with those of the others, in a given order, that do not compile. -/
def complaints (paths : List String) (order : List Source) : List Complaint :=
  let sources := (present w paths).map batch.describe
  (absent w paths).map .missing ++
    ((sharedNames sources).map fun name => .clash name ((named sources name).map (·.path))) ++
    (batch.faults w order).map fun fault => .fault fault.1.path fault.2

theorem isErrorList_call (complaint : Complaint) : complaint.call.isErrorList = true := by
  cases complaint <;> rfl

theorem map_call_complaints (paths : List String) (order : List Source) :
    (complaints batch w paths order).map Complaint.call =
      (absent w paths).map missingMessage ++
        clashReports ((present w paths).map batch.describe) ++
        (batch.faults w order).map faultList := by
  rw [complaints, List.map_append, List.map_append, List.map_map, List.map_map, List.map_map,
    clashReports_eq]
  rfl

/-- Each failed path is complained about. -/
theorem flatMap_paths_complaints (paths : List String) (order : List Source) :
    let sources := (present w paths).map batch.describe
    ((complaints batch w paths order).flatMap Complaint.paths).Perm
      (absent w paths ++ (sources.filter (shares sources)).map (·.path) ++
        (batch.faults w order).map (·.1.path)) := by
  intro sources
  have hmissing : ((absent w paths).map Complaint.missing).flatMap Complaint.paths =
      absent w paths := by
    rw [List.flatMap_map]
    exact List.flatMap_singleton' _
  have hfaults : ((batch.faults w order).map fun fault =>
      Complaint.fault fault.1.path fault.2).flatMap Complaint.paths =
        (batch.faults w order).map (·.1.path) := by
    rw [List.flatMap_map]
    exact (List.map_eq_flatMap).symm
  have hclashes : (((sharedNames sources).map fun name =>
      Complaint.clash name ((named sources name).map (·.path))).flatMap Complaint.paths).Perm
        ((sources.filter (shares sources)).map (·.path)) := by
    rw [List.flatMap_map]
    have h := (flatMap_named_sharedNames sources).map (·.path)
    rwa [List.map_flatMap] at h
  rw [complaints, List.flatMap_append, List.flatMap_append, hmissing, hfaults]
  exact (hclashes.append_left _).append_right _

/-- Loading a list comes to a batch of the paths that name something, whose result is finished in a
state with the same files. -/
theorem loadList_eq_finish (paths : List String)
    (hp : ∀ path ∈ paths, path.contains '\x00' = false) :
    let sources := (present w paths).map batch.describe
    ∃ (result : Result) (reports : List Report),
      batch.loadList paths w = batch.finish result (w.told reports) ∧
      result.failedPaths = absent w paths ++ (sources.filter (shares sources)).map (·.path) ++
        (batch.faults w (taken sources)).map (·.1.path) ∧
      Report.lists reports = (complaints batch w paths (taken sources)).map Complaint.call := by
  intro sources
  obtain ⟨missing, hmissing⟩ : ∃ missing : List Report,
      ((absent w paths).map missingMessage).map Report.diagnostic = missing := ⟨_, rfl⟩
  have hnul : ∀ source ∈ sources, source.path.contains '\x00' = false := fun source h => by
    obtain ⟨path, hm, rfl⟩ := List.mem_map.1 h
    exact hp path (List.mem_filter.1 hm).1
  obtain ⟨result, rs, hrun, hfailed, hlists⟩ := run_told batch sources (w.told missing) hnul
  rw [faults_told] at hfailed hlists
  have hlisted := listedSources_apply batch w paths
  rw [hmissing] at hlisted
  refine ⟨{ result with failedPaths := absent w paths ++ result.failedPaths }, missing ++ rs,
    ?_, by rw [hfailed, List.append_assoc], ?_⟩
  · rw [loadList, loadFound_eq_run, Task.bind_apply_of_ok hlisted]
    simp only [Task.mapError_id]
    refine (Task.bind_apply_of_ok ?_).trans (congrArg _ (w.told_told missing rs))
    rw [Task.mapError_apply, hrun]
    rfl
  · have hcalls : Report.lists missing = (absent w paths).map missingMessage := by
      rw [← hmissing, Report.lists_map_diagnostic]
      exact List.filter_eq_self.2 fun d h => by
        obtain ⟨path, -, rfl⟩ := List.mem_map.1 h
        rfl
    rw [Report.lists_append, hlists, hcalls, map_call_complaints, List.append_assoc]

theorem filter_isErrorList_of_isList {ds : List Diagnostic} {complaints : List Complaint}
    (h : ds.filter Diagnostic.isList = complaints.map Complaint.call) :
    ds.filter Diagnostic.isErrorList = complaints.map Complaint.call ∧
      ds.filter Diagnostic.isWarningList = [] := by
  have hsplit : ∀ p : Diagnostic → Bool, (∀ d, p d = true → d.isList = true) →
      ds.filter p = (complaints.map Complaint.call).filter p := fun p hp => by
    rw [← h, List.filter_filter]
    refine List.filter_congr fun d _ => ?_
    cases hd : p d with
    | true => rw [hp d hd, Bool.and_self]
    | false => rfl
  constructor
  · rw [hsplit _ fun d hd => by rw [Diagnostic.isList, hd, Bool.true_or]]
    exact List.filter_eq_self.2 fun d hd => by
      obtain ⟨complaint, -, rfl⟩ := List.mem_map.1 hd
      exact isErrorList_call complaint
  · rw [hsplit _ fun d hd => by rw [Diagnostic.isList, hd, Bool.or_true]]
    exact List.filter_eq_nil_iff.2 fun d hd => by
      obtain ⟨complaint, -, rfl⟩ := List.mem_map.1 hd
      cases complaint <;> exact Bool.false_ne_true

/-- The overview is a single warning about all failed paths, or nothing if there are none. -/
theorem diagnostics_overview (result : Result) :
    Report.diagnostics (overview result) =
      if result.failedPaths = [] then [] else [.warningList overviewTitle result.failedPaths] := by
  rw [overview, Result.succeeded]
  cases result.failedPaths <;> rfl

end Listed

/-- Loading a list accounts for every path and reports it. Paths that name nothing are failed first,
in the order of the list, then those of the sources that share a method name, then those that do not
compile, in the order of routine names, where equal names keep the order of the list. There is one
list of errors for each of the first, one for each shared name with the paths that share it, and one
for each of the last with the reason; then comes one warning with all failed paths, if there are any,
as the last message. A path is failed as often as the errors are about it. -/
theorem loadList_reports_failed (batch : Batch) (paths : List String)
    (hp : ∀ path ∈ paths, path.contains '\x00' = false) (w : Workspace) :
    let sources := (present w paths).map batch.describe
    ∃ (result : Result) (calls : List Diagnostic) (order : List Source),
      order.Perm (sources.filter (! shares sources ·)) ∧
      order.Pairwise (fun a b => a.routineName ≤ b.routineName) ∧
      (∀ name, order.filter (·.routineName == name) =
        (sources.filter (! shares sources ·)).filter (·.routineName == name)) ∧
      result.failedPaths = absent w paths ++ (sources.filter (shares sources)).map (·.path) ++
        (batch.faults w order).map (·.1.path) ∧
      calls.filter Diagnostic.isErrorList =
        (complaints batch w paths order).map Complaint.call ∧
      calls.filter Diagnostic.isWarningList = (if result.failedPaths = [] then []
        else [.warningList overviewTitle result.failedPaths]) ∧
      (result.failedPaths ≠ [] →
        calls.getLast? = some (.warningList overviewTitle result.failedPaths)) ∧
      (∀ path, result.failedPaths.count path =
        ((complaints batch w paths order).flatMap Complaint.paths).count path) ∧
      (∀ failure, (writeMetadata batch.metadataPath result.metadata w).1 = .error failure →
        (batch.loadList paths w).1 = .error (.metadata failure)) ∧
      ∀ written, (writeMetadata batch.metadataPath result.metadata w).1 = .ok written →
        (batch.loadList paths w).1 = .ok result ∧
          Report.diagnostics (batch.loadList paths w).2.reports =
            Report.diagnostics w.reports ++ calls := by
  intro sources
  obtain ⟨result, reports, hload, hfailed, hlists⟩ := loadList_eq_finish batch w paths hp
  obtain ⟨herrors, hwarnings⟩ := filter_isErrorList_of_isList hlists
  have hoverview := diagnostics_overview result
  refine ⟨result, Report.diagnostics reports ++ Report.diagnostics (overview result),
    taken sources, inNameOrder_perm _, inNameOrder_pairwise _, filter_inNameOrder _, hfailed,
    ?_, ?_, ?_, ?_, ?_, ?_⟩
  · rw [List.filter_append, herrors, hoverview]
    split <;> exact List.append_nil _
  · rw [List.filter_append, hwarnings, hoverview]
    split <;> simp [Diagnostic.isWarningList]
  · intro hne
    rw [hoverview, if_neg hne, List.getLast?_concat]
  · intro path
    rw [hfailed]
    exact ((flatMap_paths_complaints batch w paths (taken sources)).count_eq path).symm
  · intro failure hw
    rw [hload]
    rw [← writeMetadata_fst_told w _ _ reports] at hw
    exact finish_of_unwritten batch _ hw
  · intro written hw
    rw [← writeMetadata_fst_told w _ _ reports] at hw
    rw [hload, finish_of_written batch _ hw, Workspace.reports_told, Report.diagnostics_append,
      diagnostics_writeMetadata, Workspace.reports_told, Report.diagnostics_append,
      List.append_assoc]
    exact ⟨rfl, rfl⟩

section Sample

/-- A path that names nothing and a source, both listed twice. -/
def repeatedPaths : List String := ["gone.psql", "y.psql", "y.psql", "gone.psql"]

/-- A source that is listed twice shares its method name with itself. -/
theorem loadList_plain_repeated :
    (∀ path ∈ repeatedPaths, path.contains '\x00' = false) ∧
      ∃ result, (plainBatch.loadList repeatedPaths plainWorkspace).1 = .ok result ∧
        result.failedPaths = ["gone.psql", "gone.psql", "y.psql", "y.psql"] ∧
        (Report.diagnostics (plainBatch.loadList repeatedPaths plainWorkspace).2.reports).filter
            Diagnostic.isErrorList =
          [.errorList "File not exists: 'gone.psql'" [],
            .errorList "File not exists: 'gone.psql'" [],
            .errorList
              "The following source files would result wrapper methods with equal name 'y'"
              ["y.psql", "y.psql"]] := by
  have hp : ∀ path ∈ repeatedPaths, path.contains '\x00' = false := by
    simp only [repeatedPaths, List.forall_mem_cons]
    exact ⟨by cbv, by cbv, by cbv, by cbv, fun _ h => absurd h List.not_mem_nil⟩
  refine ⟨hp, ?_⟩
  obtain ⟨result, calls, order, hperm, -, -, hfailed, herrors, -, -, -, -, hwritten⟩ :=
    loadList_reports_failed plainBatch repeatedPaths hp plainWorkspace
  have hgone : plainWorkspace.files.pathExists plainWorkspace.directory "gone.psql" = false := by cbv
  have hthere : plainWorkspace.files.pathExists plainWorkspace.directory "y.psql" = true := by cbv
  have hpresent : (present plainWorkspace repeatedPaths).map plainBatch.describe =
      [⟨"y.psql", "y", some "y"⟩, ⟨"y.psql", "y", some "y"⟩] := by
    rw [show present plainWorkspace repeatedPaths = ["y.psql", "y.psql"] by
      simp [present, repeatedPaths, hgone, hthere]]
    decide +kernel
  have habsent : absent plainWorkspace repeatedPaths = ["gone.psql", "gone.psql"] := by
    simp [absent, repeatedPaths, hgone, hthere]
  rw [hpresent] at hperm hfailed
  have horder : order = [] := hperm.trans (.of_eq (by decide +kernel)) |>.eq_nil
  subst horder
  obtain ⟨text, ht⟩ : ∃ text, document result.metadata = .ok text := by
    obtain ⟨text, ht, -⟩ := documentOf_reads_back (plain_json result.metadata)
    exact ⟨text, ht⟩
  have hwrite : (writeMetadata plainBatch.metadataPath result.metadata plainWorkspace).1 =
      .ok false := by
    rw [writeMetadata, ht]
    rfl
  obtain ⟨hload, hcalls⟩ := hwritten false hwrite
  refine ⟨result, hload, ?_, ?_⟩
  · rw [hfailed, habsent]
    decide +kernel
  · rw [hcalls]
    refine herrors.trans ?_
    rw [complaints, habsent, hpresent]
    decide +kernel

end Sample

end Batch

end StoredRoutine
