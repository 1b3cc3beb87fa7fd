import StoredRoutine.Proofs.BatchAccounting
import StoredRoutine.Proofs.MetadataWrites

/-!
The order in which the sources of a batch are given does not matter under a naming policy. Which
sources clash depends on how often a method name occurs and on nothing else, and those that remain
have distinct routine names, so sorting them leaves one order only.
-/
namespace StoredRoutine.Batch

open Routine (Source Metadata)

section Separation

variable {sources sources' : List Source}

theorem clashes_of_perm (h : sources.Perm sources') :
    clashes (clashingNames sources) = clashes (clashingNames sources') := by
  have hm : ∀ name, name ∈ clashingNames sources ↔ name ∈ clashingNames sources' := fun name => by
    simp only [clashingNames, List.mem_eraseDups, List.mem_filter, decide_eq_true_eq,
      (h.filterMap _).mem_iff, (h.filterMap _).count_eq]
  funext source
  rw [clashes, clashes]
  congr 1
  funext name
  rw [Bool.eq_iff_iff, List.contains_iff_mem, List.contains_iff_mem, hm]

/-- Sources in another order are separated alike. -/
theorem separate_perm (h : sources.Perm sources') :
    (separate sources).1.Perm (separate sources').1 ∧
      (separate sources).2.Perm (separate sources').2 := by
  rw [separate, separate, clashes_of_perm h]
  exact ⟨h.filter _, (h.filter _).map _⟩

/-- Sources of distinct names have one order only. -/
theorem inNameOrder_of_perm (h : sources.Perm sources')
    (hd : (sources.map (·.routineName)).Nodup) : inNameOrder sources = inNameOrder sources' := by
  have hasymm : ∀ a b : Source, a ∈ inNameOrder sources → b ∈ inNameOrder sources' →
      a.routineName < b.routineName → b.routineName < a.routineName → a = b :=
    fun a b _ _ hab hba => absurd hba (lt_asymm hab)
  exact List.Perm.eq_of_pairwise hasymm (inNameOrder_strict sources hd)
    (inNameOrder_strict sources' ((h.map _).nodup_iff.1 hd))
    ((inNameOrder_perm sources).trans (h.trans (inNameOrder_perm sources').symm))

/-- Under a naming policy every source has a method name, which decides whether it clashes. -/
theorem separate_of_described {batch : Batch} {policy : String → String}
    (hpolicy : batch.policy = some policy) (paths : List String) :
    separate (paths.map batch.describe) = (remaining (paths.map batch.describe),
      (conflicting (paths.map batch.describe)).map (·.path)) :=
  separate_eq fun source hs => by
    rw [methodName_of_described hpolicy paths source hs]
    exact Option.some_ne_none _

end Separation

/-- The records that sources add do not depend on the paths that failed before. -/
theorem Result.metadata_collect (outcome? : Source → Option Metadata) (result : Result)
    (failed : List String) (sources : List Source) :
    (collect outcome? ⟨result.metadata, failed⟩ sources).metadata =
      (collect outcome? result sources).metadata := by
  induction sources generalizing result failed with
  | nil => rfl
  | cons source sources ih =>
    rw [collect_cons, collect_cons]
    cases outcome? source with
    | some record => exact ih (result.add source (some record)) failed
    | none => exact ih (result.add source none) (failed ++ [source.path])

/-- A batch with a naming policy makes the same of its sources in whatever order they are given: the
same records and so the same document, and the same paths not loaded, of which only those that clash
come in the order given. A path that holds a NUL ends the batch in every order. -/
theorem run_of_perm {σ : Type} [Host σ] [QuietHost σ] (batch : Batch) {policy : String → String}
    (hpolicy : batch.policy = some policy) {paths paths' : List String} (h : paths.Perm paths')
    (s : σ) :
    let sources := paths.map batch.describe
    let sources' := paths'.map batch.describe
    ((∃ path ∈ paths, path.contains '\x00' = true) ∧
        (batch.run sources s).1 = .error .invalidPath ∧
        (batch.run sources' s).1 = .error .invalidPath) ∨
      ∃ (result result' : Result) (text : Text) (failed : List String),
        (batch.run sources s).1 = .ok result ∧ (batch.run sources' s).1 = .ok result' ∧
        result.metadata = result'.metadata ∧
        document result.metadata = .ok text ∧ document result'.metadata = .ok text ∧
        result.failedPaths.Perm result'.failedPaths ∧
        result.failedPaths = (conflicting sources).map (·.path) ++ failed ∧
        result'.failedPaths = (conflicting sources').map (·.path) ++ failed := by
  intro sources sources'
  have hperm : sources.Perm sources' := h.map _
  obtain ⟨hremaining, hconflicting⟩ := separate_perm hperm
  by_cases hnul : ∃ source ∈ (separate sources).1, source.path.contains '\x00' = true
  · obtain ⟨source, hs, hn⟩ := hnul
    obtain ⟨path, hpath, rfl⟩ := List.mem_map.1 (List.mem_filter.1 hs).1
    exact .inl ⟨⟨path, hpath, hn⟩, run_of_nul batch s ⟨_, hs, hn⟩,
      run_of_nul batch s ⟨_, hremaining.mem_iff.1 hs, hn⟩⟩
  · have hp : ∀ source ∈ (separate sources).1, source.path.contains '\x00' = false :=
      fun source hs => Bool.eq_false_iff.2 fun hn => hnul ⟨source, hs, hn⟩
    have hrun := run_apply_of_remaining batch sources s hp
    have hrun' := run_apply_of_remaining batch sources' s fun source hs =>
      hp source (hremaining.mem_iff.2 hs)
    rw [separate_of_described hpolicy paths] at hrun hremaining hconflicting
    rw [separate_of_described hpolicy paths'] at hrun' hremaining hconflicting
    -- both runs take the sources that remain in one order
    rw [← inNameOrder_of_perm hremaining (nodup_routineName_remaining hpolicy paths)] at hrun'
    have hmetadata := Result.metadata_collect (batch.record? s)
      ⟨∅, (conflicting sources').map (·.path)⟩ ((conflicting sources).map (·.path))
      (inNameOrder (remaining sources))
    obtain ⟨text, htext⟩ := exists_document (Result.collect (batch.record? s)
      ⟨∅, (conflicting sources').map (·.path)⟩ (inNameOrder (remaining sources))).metadata
    refine .inr ⟨_, _, text, ((inNameOrder (remaining sources)).filter fun source =>
      (batch.record? s source).isNone).map (·.path), hrun, hrun', hmetadata, hmetadata ▸ htext,
      htext, ?_, Result.failedPaths_collect _ _, Result.failedPaths_collect _ _⟩
    rw [Result.failedPaths_collect, Result.failedPaths_collect]
    exact hconflicting.append_right _

/-- The sources of one stem come in the order given, and all else is the same. -/
theorem run_of_swapped :
    ["b/x.psql", "y.psql", "a/x.psql"].Perm ["a/x.psql", "b/x.psql", "y.psql"] ∧
      ∃ (result result' : Result) (failed : List String),
        (plainBatch.run (["b/x.psql", "y.psql", "a/x.psql"].map plainBatch.describe)
          plainWorkspace).1 = .ok result ∧
        (plainBatch.run (["a/x.psql", "b/x.psql", "y.psql"].map plainBatch.describe)
          plainWorkspace).1 = .ok result' ∧
        result.metadata = result'.metadata ∧
        result.failedPaths = ["b/x.psql", "a/x.psql"] ++ failed ∧
        result'.failedPaths = ["a/x.psql", "b/x.psql"] ++ failed := by
  have hperm : ["b/x.psql", "y.psql", "a/x.psql"].Perm ["a/x.psql", "b/x.psql", "y.psql"] := by
    decide
  have hnul : ∀ path ∈ ["b/x.psql", "y.psql", "a/x.psql"], path.contains '\x00' = false := by
    simp only [List.forall_mem_cons]
    exact ⟨by cbv, by cbv, by cbv, fun _ h => absurd h List.not_mem_nil⟩
  have hc : (conflicting (["b/x.psql", "y.psql", "a/x.psql"].map plainBatch.describe)).map (·.path) =
      ["b/x.psql", "a/x.psql"] := by decide +kernel
  have hc' : (conflicting (["a/x.psql", "b/x.psql", "y.psql"].map plainBatch.describe)).map
      (·.path) = ["a/x.psql", "b/x.psql"] := by decide +kernel
  refine ⟨hperm, ?_⟩
  rcases run_of_perm plainBatch rfl hperm plainWorkspace with
    ⟨⟨path, hpath, hn⟩, -⟩ | ⟨result, result', -, failed, hrun, hrun', hm, -, -, -, hf, hf'⟩
  · rw [hnul path hpath] at hn
    cases hn
  · rw [hc] at hf
    rw [hc'] at hf'
    exact ⟨result, result', failed, hrun, hrun', hm, hf, hf'⟩

end StoredRoutine.Batch
