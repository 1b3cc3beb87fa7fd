import StoredRoutine.Proofs.BatchLoop
import StoredRoutine.Proofs.Conflicts

/-!
What becomes of the sources of a batch: with a naming policy every one is accounted for, and without
one exactly those are not whose name a later source takes.
-/
namespace StoredRoutine.Batch

/-!
What becomes of the sources of a batch that has a naming policy. Every source is accounted for once:
left out because its method name is shared, recorded under its routine name, or listed as failed.
That nothing is overwritten rests on the names: sources that remain after the others were left out
have distinct routine names, for equal ones would have given equal method names.
-/

section

open Routine (Source Metadata)

section Described

variable {batch : Batch} {policy : String → String}

theorem methodName_of_described (hpolicy : batch.policy = some policy) (paths : List String) :
    ∀ source ∈ paths.map batch.describe,
      source.methodName = some (policy source.routineName) := by
  intro source h
  obtain ⟨path, -, rfl⟩ := List.mem_map.1 h
  rw [describe, Source.ofPath, hpolicy, Option.map_some]

theorem mem_of_mem_remaining {sources : List Source} {source : Source}
    (h : source ∈ remaining sources) : source ∈ sources := by
  obtain ⟨i, -, rfl⟩ := List.mem_map.1 h
  exact List.getElem_mem _

/-- Under a naming policy, the sources that remain have distinct routine names. -/
theorem nodup_routineName_remaining (hpolicy : batch.policy = some policy) (paths : List String) :
    ((remaining (paths.map batch.describe)).map (·.routineName)).Nodup := by
  have hn := nodup_methodName_remaining (paths.map batch.describe)
  have he : (remaining (paths.map batch.describe)).map (·.methodName) =
      ((remaining (paths.map batch.describe)).map (·.routineName)).map fun name =>
        some (policy name) := by
    rw [List.map_map]
    exact List.map_congr_left fun source h =>
      methodName_of_described hpolicy paths source (mem_of_mem_remaining h)
  rw [he] at hn
  exact List.Nodup.of_map _ hn

end Described

/-- A batch with a naming policy gives a result, whatever its sources are. The sources that share
their method name with another one are failed, in the order given; the others are taken in strictly
ascending order of their routine names, and each has the record of its own load under that name or,
if it does not compile alone, its path among the failed. -/
theorem run_accounts_for_described {σ : Type} [Host σ] [QuietHost σ] (batch : Batch)
    {policy : String → String} (hpolicy : batch.policy = some policy) {paths : List String}
    (hp : ∀ path ∈ paths, path.contains '\x00' = false) (s : σ) :
    let sources := paths.map batch.describe
    ∃ (result : Result) (taken : List Source), (batch.run sources s).1 = .ok result ∧
      taken.Perm (remaining sources) ∧
      taken.Pairwise (fun a b => a.routineName < b.routineName) ∧
      result.metadata.entries = taken.filterMap (fun source =>
        (batch.record? s source).map (source.routineName, ·)) ∧
      result.metadata.keys.Pairwise (· < ·) ∧
      result.failedPaths = (conflicting sources).map (·.path) ++
        (taken.filter fun source => (batch.record? s source).isNone).map (·.path) ∧
      result.metadata.size + result.failedPaths.length = sources.length := by
  intro sources
  have hm : ∀ source ∈ sources, source.methodName ≠ none := fun source h => by
    rw [methodName_of_described hpolicy paths source h]
    exact Option.some_ne_none _
  have hp : ∀ source ∈ sources, source.path.contains '\x00' = false := fun source h => by
    obtain ⟨path, hm, rfl⟩ := List.mem_map.1 h
    exact hp path hm
  have hrun := run_apply batch sources s hp
  rw [separate_eq hm] at hrun
  have hd := nodup_routineName_remaining hpolicy paths
  have hstrict := inNameOrder_strict _ hd
  have hnames : ((inNameOrder (remaining sources)).map (·.routineName)).Nodup :=
    ((inNameOrder_perm _).map _).nodup_iff.2 hd
  have hentries := Result.entries_collect (batch.record? s)
    ⟨∅, (conflicting sources).map (·.path)⟩ hnames (fun _ _ => List.not_mem_nil)
  have hleaves : (inNameOrder (remaining sources)).Pairwise
      (Result.LeavesName (batch.record? s)) :=
    hstrict.imp fun hlt he => absurd he (String.ne_of_lt hlt)
  refine ⟨_, _, hrun, inNameOrder_perm _, hstrict, hentries, ?_,
    Result.failedPaths_collect _ _, ?_⟩
  · rw [OrderedMap.keys, hentries, List.pairwise_map]
    refine List.pairwise_filterMap.2 (hstrict.imp ?_)
    intro a b hlt e he e' he'
    obtain ⟨record, -, rfl⟩ := Option.map_eq_some_iff.1 he
    obtain ⟨record', -, rfl⟩ := Option.map_eq_some_iff.1 he'
    exact hlt
  · rw [Result.length_collect_eq_iff.2 hleaves, List.length_map, (inNameOrder_perm _).length_eq]
    exact length_conflicting_add_remaining sources

section Sample

/-- A batch that names methods like routines. -/
def plainBatch : Batch := ⟨some id, ∅, [], none⟩

def plainText : Text := "/**\n@type none\n*/\nselect 1".toList

/-- A directory with one source, which compiles. -/
def plainWorkspace : Workspace :=
  ⟨(∅ : FileTree).put ["y.psql"] (.file (Utf8.encode plainText)), [], []⟩

theorem record?_plain : ∃ record, plainBatch.record? plainWorkspace ⟨"y.psql", "y", some "y"⟩ =
    some record := by
  have ht : plainWorkspace.files.HasText [] "y.psql" plainText :=
    ⟨["y.psql"], by cbv, by decide +kernel⟩
  have hc : (Routine.compile [] plainBatch.replacePairs ⟨"y.psql", "y", some "y"⟩
      plainText).toOption.isSome = true := by decide +kernel
  rw [record?_of_hasText ht (by decide) (by cbv)]
  exact Option.isSome_iff_exists.1 hc

/-- Two sources of one stem fail, and the one between them is recorded. -/
theorem run_plain_leaves_out_shared_stem :
    (∀ path ∈ ["a/x.psql", "y.psql", "b/x.psql"], path.contains '\x00' = false) ∧
      ∃ result, (plainBatch.run (["a/x.psql", "y.psql", "b/x.psql"].map plainBatch.describe)
          plainWorkspace).1 = .ok result ∧
        result.failedPaths = ["a/x.psql", "b/x.psql"] ∧ result.metadata.keys = ["y"] := by
  have hp : ∀ path ∈ ["a/x.psql", "y.psql", "b/x.psql"], path.contains '\x00' = false := by
    simp only [List.forall_mem_cons]
    exact ⟨by cbv, by cbv, by cbv, fun _ h => absurd h List.not_mem_nil⟩
  refine ⟨hp, ?_⟩
  obtain ⟨result, taken, hrun, hperm, -, hentries, -, hfailed, -⟩ :=
    run_accounts_for_described plainBatch rfl hp plainWorkspace
  have hs : ["a/x.psql", "y.psql", "b/x.psql"].map plainBatch.describe =
      [⟨"a/x.psql", "x", some "x"⟩, ⟨"y.psql", "y", some "y"⟩,
        ⟨"b/x.psql", "x", some "x"⟩] := by decide +kernel
  have hr : remaining [⟨"a/x.psql", "x", some "x"⟩, ⟨"y.psql", "y", some "y"⟩,
      ⟨"b/x.psql", "x", some "x"⟩] = [⟨"y.psql", "y", some "y"⟩] := by decide +kernel
  have hc : conflicting [⟨"a/x.psql", "x", some "x"⟩, ⟨"y.psql", "y", some "y"⟩,
      ⟨"b/x.psql", "x", some "x"⟩] =
      [⟨"a/x.psql", "x", some "x"⟩, ⟨"b/x.psql", "x", some "x"⟩] := by decide +kernel
  rw [hs, hr] at hperm
  obtain rfl := List.perm_singleton.1 hperm
  obtain ⟨record, hrecord⟩ := record?_plain
  refine ⟨result, hrun, ?_, ?_⟩
  · rw [hfailed, hs, hc]
    simp [hrecord]
  · rw [OrderedMap.keys, hentries]
    simp [hrecord]

end Sample

end

/-!
What becomes of the sources of a batch without naming policy. Nothing is left out then, although two
sources may still have one routine name, and a source that compiles is lost when a later source of
its name takes the name over or fails. Every source is accounted for exactly if no source that
compiles is followed by another one of its name.
-/

open Routine (Source Metadata)

/-- The path of a source is listed as failed, or its own record stands under its name. -/
def AccountedFor (result : Result) (outcome? : Source → Option Metadata) (source : Source) : Prop :=
  source.path ∈ result.failedPaths ∨
    ∃ record, outcome? source = some record ∧
      result.metadata.get? source.routineName = some record

theorem accountedFor_collect {outcome? : Source → Option Metadata} {sources : List Source}
    (hp : sources.Pairwise (Result.LeavesName outcome?)) {source : Source}
    (hs : source ∈ sources) :
    AccountedFor (Result.collect outcome? ⟨∅, []⟩ sources) outcome? source := by
  cases ho : outcome? source with
  | none =>
    left
    rw [Result.failedPaths_collect]
    refine List.mem_append_right _ (List.mem_map.2 ⟨source, ?_, rfl⟩)
    exact List.mem_filter.2 ⟨hs, by rw [ho]; rfl⟩
  | some record => exact .inr ⟨record, ho, Result.get?_collect_of_leavesName _ hp hs ho⟩

theorem run_apply_of_unnamed {σ : Type} [Host σ] [QuietHost σ] (batch : Batch)
    {sources : List Source} (hm : ∀ source ∈ sources, source.methodName = none)
    (hp : ∀ source ∈ sources, source.path.contains '\x00' = false) (s : σ) :
    (batch.run sources s).1 =
      .ok (Result.collect (batch.record? s) ⟨∅, []⟩ (inNameOrder sources)) := by
  rw [run_apply batch sources s hp, separate_of_unnamed hm]

/-- A batch of sources without method names gives a result exactly if no path holds a NUL, and such
a result accounts for all of them, as many as there are, exactly if no source that compiles is
followed by another one of its routine name. -/
theorem run_accounts_for_unnamed_iff {σ : Type} [Host σ] [QuietHost σ] (batch : Batch)
    {sources : List Source} (hm : ∀ source ∈ sources, source.methodName = none) (s : σ) :
    ((∃ result, (batch.run sources s).1 = .ok result) ↔
        ∀ source ∈ sources, source.path.contains '\x00' = false) ∧
      ∀ result, (batch.run sources s).1 = .ok result →
        ((result.metadata.size + result.failedPaths.length = sources.length ∧
            ∀ source ∈ sources, AccountedFor result (batch.record? s) source) ↔
          sources.Pairwise fun a b =>
            a.routineName = b.routineName → batch.record? s a = none) := by
  have hnul : ∀ result, (batch.run sources s).1 = .ok result →
      ∀ source ∈ sources, source.path.contains '\x00' = false := by
    intro result h
    have hp := contains_nul_of_run h
    rwa [separate_of_unnamed hm] at hp
  refine ⟨⟨fun ⟨result, h⟩ => hnul result h, fun hp => ⟨_, run_apply_of_unnamed batch hm hp s⟩⟩, ?_⟩
  intro result hrun
  rw [run_apply_of_unnamed batch hm (hnul result hrun) s] at hrun
  obtain rfl := Except.ok.inj hrun
  have horder : (inNameOrder sources).Pairwise (Result.LeavesName (batch.record? s)) ↔
      sources.Pairwise (Result.LeavesName (batch.record? s)) :=
    pairwise_inNameOrder_iff sources fun a b hne he => absurd he hne
  rw [← (inNameOrder_perm sources).length_eq]
  constructor
  · rintro ⟨hlength, -⟩
    exact horder.1 (Result.length_collect_eq_iff.1 (by rw [hlength, List.length_nil, Nat.zero_add]))
  · intro h
    have hleaves := horder.2 h
    refine ⟨?_, fun source hs => ?_⟩
    · rw [Result.length_collect_eq_iff.2 hleaves, List.length_nil, Nat.zero_add]
    · exact accountedFor_collect hleaves ((mem_inNameOrder sources).2 hs)

section Sample

def unnamedBatch : Batch := ⟨none, ∅, [], none⟩

def stemText : Text := "/**\n@type none\n*/\nselect 1".toList

/-- Two directories with a source of one stem each, of which the first compiles. -/
def stemWorkspace : Workspace :=
  ⟨((((∅ : FileTree).put ["a"] .directory).put ["a", "x.psql"] (.file (Utf8.encode stemText))).put
    ["b"] .directory).put ["b", "x.psql"] (.file (Utf8.encode "select 2".toList)), [], []⟩

def compiling : Source := ⟨"a/x.psql", "x", none⟩

def failing : Source := ⟨"b/x.psql", "x", none⟩

theorem record?_compiling : ∃ record, unnamedBatch.record? stemWorkspace compiling = some record := by
  have ht : stemWorkspace.files.HasText [] compiling.path stemText :=
    ⟨["a", "x.psql"], by decide +kernel, by decide +kernel⟩
  have hc : (Routine.compile [] unnamedBatch.replacePairs compiling
      stemText).toOption.isSome = true := by decide +kernel
  rw [record?_of_hasText ht (by decide) (by cbv)]
  exact Option.isSome_iff_exists.1 hc

theorem record?_failing : unnamedBatch.record? stemWorkspace failing = none := by
  have ht : stemWorkspace.files.HasText [] failing.path "select 2".toList :=
    ⟨["b", "x.psql"], by decide +kernel, by decide +kernel⟩
  have hc : (Routine.compile [] unnamedBatch.replacePairs failing
      "select 2".toList).toOption.isNone = true := by decide +kernel
  rw [record?_of_hasText ht (by decide) (by cbv)]
  exact Option.isNone_iff_eq_none.1 hc

theorem contains_nul_stem : ∀ source ∈ [compiling, failing],
    source.path.contains '\x00' = false := by
  simp only [List.forall_mem_cons]
  exact ⟨by cbv, by cbv, fun _ h => absurd h List.not_mem_nil⟩

/-- The record of a source that compiles is lost to a source of its stem that does not, and the
path of the first is not listed. -/
theorem run_loses_compiled_source :
    (∀ source ∈ [compiling, failing], source.methodName = none) ∧
      ∃ result, (unnamedBatch.run [compiling, failing] stemWorkspace).1 = .ok result ∧
        result.metadata.size + result.failedPaths.length ≠ [compiling, failing].length ∧
        (∃ record, unnamedBatch.record? stemWorkspace compiling = some record) ∧
        ¬ AccountedFor result (unnamedBatch.record? stemWorkspace) compiling := by
  have hm : ∀ source ∈ [compiling, failing], source.methodName = none := by decide
  have hsorted : inNameOrder [compiling, failing] = [compiling, failing] :=
    List.mergeSort_of_pairwise (List.pairwise_pair.2 (nameLe_iff.2 (String.le_refl "x")))
  obtain ⟨record, hc⟩ := record?_compiling
  have hf := record?_failing
  refine ⟨hm, _, run_apply_of_unnamed unnamedBatch hm contains_nul_stem stemWorkspace, ?_,
    ⟨record, hc⟩, ?_⟩
  · intro hlength
    have hleaves := Result.length_collect_eq_iff.1 (by
      rw [hlength, (inNameOrder_perm _).length_eq, List.length_nil, Nat.zero_add])
    rw [hsorted] at hleaves
    have hnone := List.pairwise_pair.1 hleaves rfl
    simp [hc] at hnone
  · rw [hsorted]
    rintro (hpath | ⟨record', -, hget⟩)
    · have hfilter : [compiling, failing].filter
          (fun source => (unnamedBatch.record? stemWorkspace source).isNone) = [failing] := by
        rw [List.filter_cons_of_neg (by simp [hc]), List.filter_cons_of_pos (by simp [hf]),
          List.filter_nil]
      rw [Result.failedPaths_collect, hfilter] at hpath
      exact absurd hpath (by decide)
    · rw [Result.collect_cons, Result.collect_cons, Result.collect_nil, Result.get?_add, hf] at hget
      simp [compiling, failing] at hget

/-- In the other order the source that does not compile leaves its name to the one that does. -/
theorem run_accounts_for_stem_failing_first :
    (∀ source ∈ [failing, compiling], source.methodName = none) ∧
      ∃ result, (unnamedBatch.run [failing, compiling] stemWorkspace).1 = .ok result ∧
        result.metadata.size + result.failedPaths.length = 2 ∧
        ∀ source ∈ [failing, compiling],
          AccountedFor result (unnamedBatch.record? stemWorkspace) source := by
  have hm : ∀ source ∈ [failing, compiling], source.methodName = none := by decide
  have hp : ∀ source ∈ [failing, compiling], source.path.contains '\x00' = false := by
    intro source h
    exact contains_nul_stem source (by simpa [or_comm] using h)
  obtain ⟨hok, hiff⟩ := run_accounts_for_unnamed_iff unnamedBatch hm stemWorkspace
  obtain ⟨result, hrun⟩ := hok.2 hp
  obtain ⟨hlength, hall⟩ := (hiff result hrun).2 (List.pairwise_pair.2 fun _ => record?_failing)
  exact ⟨hm, result, hrun, hlength, hall⟩

end Sample

end StoredRoutine.Batch
