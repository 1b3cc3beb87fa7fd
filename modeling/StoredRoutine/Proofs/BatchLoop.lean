import Mathlib
import StoredRoutine.Batch.Run
import StoredRoutine.Proofs.Stages

/-!
What a batch makes of its sources, which it takes in the order of their routine names: it adds, one
source after the other, the outcome that each has when it is loaded alone.
-/
namespace StoredRoutine.Batch

/-!
The order in which a batch takes its sources: by routine name, sources of one name in the order in
which they were given.
-/

section

open Routine (Source)

/-- No later in the order of routine names. -/
def nameLe (a b : Source) : Bool := !decide (b.routineName < a.routineName)

theorem nameLe_iff {a b : Source} : nameLe a b = true ↔ a.routineName ≤ b.routineName := by
  rw [nameLe, Bool.not_eq_true', decide_eq_false_iff_not]
  exact String.not_lt

theorem nameLe_trans (a b c : Source) (h₁ : nameLe a b = true) (h₂ : nameLe b c = true) :
    nameLe a c = true :=
  nameLe_iff.2 (String.le_trans (nameLe_iff.1 h₁) (nameLe_iff.1 h₂))

theorem nameLe_total (a b : Source) : (nameLe a b || nameLe b a) = true := by
  rw [Bool.or_eq_true, nameLe_iff, nameLe_iff]
  exact String.le_total _ _

variable (sources : List Source)

theorem inNameOrder_perm : (inNameOrder sources).Perm sources := List.mergeSort_perm _ _

theorem mem_inNameOrder {source : Source} : source ∈ inNameOrder sources ↔ source ∈ sources :=
  List.mem_mergeSort

theorem inNameOrder_pairwise :
    (inNameOrder sources).Pairwise fun a b => a.routineName ≤ b.routineName :=
  (List.pairwise_mergeSort nameLe_trans nameLe_total sources).imp nameLe_iff.1

/-- Distinct names are in strictly ascending order. -/
theorem inNameOrder_strict (hd : (sources.map (·.routineName)).Nodup) :
    (inNameOrder sources).Pairwise fun a b => a.routineName < b.routineName := by
  have hn : ((inNameOrder sources).map (·.routineName)).Nodup :=
    ((inNameOrder_perm sources).map _).nodup_iff.2 hd
  have hne : (inNameOrder sources).Pairwise fun a b => a.routineName ≠ b.routineName :=
    List.pairwise_map.1 hn
  refine (List.pairwise_and_iff.2 ⟨inNameOrder_pairwise sources, hne⟩).imp ?_
  rintro a b ⟨hle, hne⟩
  rw [← String.not_le]
  exact fun hge => hne (String.le_antisymm hle hge)

/-- The sources of one name stay in their order. -/
theorem filter_inNameOrder (name : String) :
    (inNameOrder sources).filter (·.routineName == name) =
      sources.filter (·.routineName == name) := by
  have hp : (sources.filter (·.routineName == name)).Pairwise (nameLe · ·) := by
    rw [List.pairwise_filter]
    refine List.pairwise_of_forall fun a b ha hb => ?_
    have hab : a.routineName = b.routineName := (eq_of_beq ha).trans (eq_of_beq hb).symm
    exact nameLe_iff.2 (hab ▸ String.le_refl a.routineName)
  have hs : (sources.filter (·.routineName == name)).Sublist (inNameOrder sources) :=
    List.sublist_mergeSort nameLe_trans nameLe_total hp List.filter_sublist
  have hs := hs.filter (·.routineName == name)
  rw [List.filter_filter] at hs
  simp only [Bool.and_self] at hs
  exact (hs.eq_of_length ((inNameOrder_perm sources).filter _).length_eq.symm).symm

theorem pairwise_iff_filter {R : Source → Source → Prop}
    (hR : ∀ a b, a.routineName ≠ b.routineName → R a b) :
    sources.Pairwise R ↔
      ∀ name : String, (sources.filter (·.routineName == name)).Pairwise R := by
  constructor
  · intro h name
    exact h.filter _
  · intro h
    rw [List.pairwise_iff_getElem]
    intro i j hi hj hij
    by_cases hn : sources[i].routineName = sources[j].routineName
    · have hf := h sources[j].routineName
      rw [List.pairwise_filter, List.pairwise_iff_getElem] at hf
      exact hf i j hi hj hij (by simpa using hn) (by simp)
    · exact hR _ _ hn

/-- What holds of sources of one name, by their order, is not changed by sorting. -/
theorem pairwise_inNameOrder_iff {R : Source → Source → Prop}
    (hR : ∀ a b, a.routineName ≠ b.routineName → R a b) :
    (inNameOrder sources).Pairwise R ↔ sources.Pairwise R := by
  rw [pairwise_iff_filter _ hR, pairwise_iff_filter _ hR]
  simp only [filter_inNameOrder]

end

/-!
What a batch makes of its sources: it adds, one source after the other, the outcome that each has
when it is loaded alone. A record is put under the name of its routine; a failure takes whatever is
under that name away and lists the path. How many sources are accounted for then depends on the
names alone: a source counts unless its name is taken when its turn comes.
-/

open Routine (Source Metadata outcomeIn)

/-- The record of a source that is loaded alone, if it compiles. -/
def record? {σ : Type} [Host σ] (batch : Batch) (s : σ) (source : Source) : Option Metadata :=
  (Routine.load batch.replacePairs source s).1.toOption

/-- A result with the outcome of one more source. -/
def Result.add (result : Result) (source : Source) : Option Metadata → Result
  | some record => { result with metadata := result.metadata.insert source.routineName record }
  | none => ⟨result.metadata.erase source.routineName, result.failedPaths ++ [source.path]⟩

/-- A result with the outcomes of more sources, in their order. -/
def Result.collect (outcome? : Source → Option Metadata) (result : Result)
    (sources : List Source) : Result :=
  sources.foldl (fun r source => r.add source (outcome? source)) result

/-- The number of sources that a result accounts for. -/
def Result.total (result : Result) : Nat := result.metadata.size + result.failedPaths.length

section Start

variable {σ : Type} [Host σ]

/-- A state in which the sources that clash have been reported. -/
def clashesReported (sources : List Source) (s : σ) : σ :=
  ((clashReports sources).map Report.diagnostic).foldl (fun s r => Host.report r s) s

theorem withoutClashes_apply (sources : List Source) (s : σ) :
    (withoutClashes sources : Task σ Routine.LoadFailure _) s =
      (.ok (separate sources), clashesReported sources s) := by
  rw [withoutClashes, Task.bind_apply_of_ok (Task.reportAll_apply _ s), Task.pure_apply]
  rfl

/-- Compiling sources gives what their loads give, and after them it reports at most. -/
theorem compile_eq_loadEach (batch : Batch) (remaining : List Source) (conflicting : List String)
    (s : σ) :
    let loaded := loadEach batch.replacePairs (inNameOrder remaining) ⟨∅, conflicting⟩ s
    ∃ reports : List Report, batch.compile remaining conflicting s =
      (loaded.1, reports.foldl (fun s r => Host.report r s) loaded.2) := by
  rw [compile]
  cases hl : loadEach batch.replacePairs (inNameOrder remaining) ⟨∅, conflicting⟩ s with
  | mk outcome s' =>
    cases outcome with
    | error failure => exact ⟨[], by rw [Task.bind_apply_of_error hl]; rfl⟩
    | ok result =>
      rw [Task.bind_apply_of_ok hl, Task.bind_apply_of_ok (Task.report_apply _ _)]
      exact ⟨[_], rfl⟩

/-- What the loads of a batch come to, once the sources that clash are left out. -/
def loads (batch : Batch) (sources : List Source) (s : σ) :
    Except Routine.LoadFailure Result × σ :=
  loadEach batch.replacePairs (inNameOrder (separate sources).1) ⟨∅, (separate sources).2⟩
    (clashesReported sources s)

/-- A batch gives what its loads give, and after them it reports at most. -/
theorem run_eq_loads (batch : Batch) (sources : List Source) (s : σ) :
    ∃ reports : List Report, batch.run sources s = ((loads batch sources s).1,
      reports.foldl (fun s r => Host.report r s) (loads batch sources s).2) := by
  rw [run, Task.bind_apply_of_ok (withoutClashes_apply sources s)]
  exact compile_eq_loadEach batch _ _ _

theorem run_fst_eq_loadEach (batch : Batch) (sources : List Source) (s : σ) :
    (batch.run sources s).1 = (loadEach batch.replacePairs (inNameOrder (separate sources).1)
      ⟨∅, (separate sources).2⟩ (clashesReported sources s)).1 := by
  obtain ⟨reports, h⟩ := run_eq_loads batch sources s
  rw [h, loads]

end Start

section Run

variable {σ : Type} [Host σ] [QuietHost σ]

theorem toOption_load (pairs : Placeholder.Pairs) (source : Source) (s : σ) :
    (Routine.load pairs source s).1.toOption =
      (outcomeIn (Host.files s) (Host.directory s) pairs source).toOption := by
  rw [Routine.load_fst_of_quiet]

/-- A source whose file holds a text that is not blank has the record of that text. -/
theorem record?_of_hasText {batch : Batch} {s : σ} {source : Source} {text : Text}
    (ht : (Host.files s).HasText (Host.directory s) source.path text)
    (hb : text.allBlank = false) (hp : source.path.contains '\x00' = false) :
    batch.record? s source =
      (Routine.compile (Host.directory s) batch.replacePairs source text).toOption := by
  rw [record?, toOption_load, Routine.outcomeIn_of_hasText ht hb hp]

/-- One source of a batch adds the outcome of its load, and the state keeps its files. -/
theorem loadEach_cons (pairs : Placeholder.Pairs) {source : Source} (sources : List Source)
    (result : Result) (s : σ) (hp : source.path.contains '\x00' = false) :
    ∃ s' : σ, Host.files s' = Host.files s ∧ Host.directory s' = Host.directory s ∧
      loadEach pairs (source :: sources) result s = loadEach pairs sources
        (result.add source (Routine.load pairs source s).1.toOption) s' := by
  have hf := Routine.files_load pairs source s
  have hd := Routine.directory_load pairs source s
  rw [loadEach, Task.bind_apply_of_ok (Task.outcome_apply _ s)]
  cases ho : (Routine.load pairs source s).1 with
  | ok record => exact ⟨_, hf, hd, rfl⟩
  | error failure =>
    have hl : failure.isLocal = true := by
      rw [Routine.load_fst_of_quiet] at ho
      exact Routine.isLocal_of_outcomeIn hp ho
    simp only [hl, if_true]
    rw [Task.bind_apply_of_ok (Task.reportAll_apply _ _)]
    exact ⟨_, by rw [files_foldl_report, hf], by rw [directory_foldl_report, hd], rfl⟩

/-- However a batch goes, it changes no file. -/
theorem files_loadEach (pairs : Placeholder.Pairs) (sources : List Source) (result : Result)
    (s : σ) :
    Host.files (loadEach pairs sources result s).2 = Host.files s ∧
      Host.directory (loadEach pairs sources result s).2 = Host.directory s := by
  induction sources generalizing result s with
  | nil => exact ⟨rfl, rfl⟩
  | cons source sources ih =>
    have hf := Routine.files_load pairs source s
    have hd := Routine.directory_load pairs source s
    rw [loadEach, Task.bind_apply_of_ok (Task.outcome_apply _ s)]
    cases (Routine.load pairs source s).1 with
    | ok record =>
      obtain ⟨hf', hd'⟩ := ih
        { result with metadata := result.metadata.insert source.routineName record }
        (Routine.load pairs source s).2
      exact ⟨hf'.trans hf, hd'.trans hd⟩
    | error failure =>
      dsimp only
      split
      · rw [Task.bind_apply_of_ok (Task.reportAll_apply _ _)]
        obtain ⟨hf', hd'⟩ := ih
          ⟨result.metadata.erase source.routineName, result.failedPaths ++ [source.path]⟩ _
        exact ⟨hf'.trans (by rw [files_foldl_report, hf]),
          hd'.trans (by rw [directory_foldl_report, hd])⟩
      · exact ⟨hf, hd⟩

/-- A batch collects the outcomes that its sources have alone. -/
theorem loadEach_apply (pairs : Placeholder.Pairs) (sources : List Source) (result : Result)
    (s : σ) (hp : ∀ source ∈ sources, source.path.contains '\x00' = false) :
    (loadEach pairs sources result s).1 = .ok (result.collect
      (fun source => (Routine.load pairs source s).1.toOption) sources) := by
  induction sources generalizing result s with
  | nil => rfl
  | cons source sources ih =>
    obtain ⟨s', hf, hd, he⟩ := loadEach_cons pairs sources result s
      (hp source List.mem_cons_self)
    have hsame : ∀ other, (Routine.load pairs other s').1.toOption =
        (Routine.load pairs other s).1.toOption := fun other => by
      rw [toOption_load, toOption_load, hf, hd]
    rw [he, ih _ _ fun other h => hp other (List.mem_cons_of_mem _ h)]
    simp only [hsame]
    rfl

/-- A path that holds a NUL ends a batch, whatever comes before it. -/
theorem loadEach_of_nul (pairs : Placeholder.Pairs) {sources : List Source} (result : Result) (s : σ)
    (h : ∃ source ∈ sources, source.path.contains '\x00' = true) :
    (loadEach pairs sources result s).1 = .error .invalidPath := by
  induction sources generalizing result s with
  | nil =>
    obtain ⟨_, hs, -⟩ := h
    exact absurd hs List.not_mem_nil
  | cons source sources ih =>
    by_cases hp : source.path.contains '\x00' = true
    · have hl : (Routine.load pairs source s).1 = .error .invalidPath := by
        rw [Routine.load_fst, outcomeIn, Routine.readSource_of_nul hp, Outcome.error_bind]
      rw [loadEach, Task.bind_apply_of_ok (Task.outcome_apply _ s), hl]
      rfl
    · obtain ⟨s', -, -, he⟩ := loadEach_cons pairs sources result s (Bool.eq_false_iff.2 hp)
      obtain ⟨other, ho, hn⟩ := h
      rw [he]
      refine ih _ _ ⟨other, (List.mem_cons.1 ho).resolve_left ?_, hn⟩
      rintro rfl
      exact hp hn

/-- Leaving out the sources that clash keeps the files. -/
theorem run_fst (batch : Batch) (sources : List Source) (s : σ) :
    ∃ s' : σ, Host.files s' = Host.files s ∧ Host.directory s' = Host.directory s ∧
      (batch.run sources s).1 = (loadEach batch.replacePairs (inNameOrder (separate sources).1)
        ⟨∅, (separate sources).2⟩ s').1 :=
  ⟨_, files_foldl_report _ s, directory_foldl_report _ s, run_fst_eq_loadEach batch sources s⟩

/-- Running a batch collects the outcomes of the sources that do not clash, in the order of names,
after the paths of those that do. Only the paths of the former are looked at. -/
theorem run_apply_of_remaining (batch : Batch) (sources : List Source) (s : σ)
    (hp : ∀ source ∈ (separate sources).1, source.path.contains '\x00' = false) :
    (batch.run sources s).1 = .ok (Result.collect (batch.record? s) ⟨∅, (separate sources).2⟩
      (inNameOrder (separate sources).1)) := by
  obtain ⟨s', hf, hd, hrun⟩ := run_fst batch sources s
  have hsame : (fun source => (Routine.load batch.replacePairs source s').1.toOption) =
      batch.record? s := by
    funext source
    rw [record?, toOption_load, toOption_load, hf, hd]
  rw [hrun, loadEach_apply _ _ _ s' fun source h => hp source ((mem_inNameOrder _).1 h), hsame]

theorem run_apply (batch : Batch) (sources : List Source) (s : σ)
    (hp : ∀ source ∈ sources, source.path.contains '\x00' = false) :
    (batch.run sources s).1 = .ok (Result.collect (batch.record? s) ⟨∅, (separate sources).2⟩
      (inNameOrder (separate sources).1)) :=
  run_apply_of_remaining batch sources s fun source h => hp source (List.mem_filter.1 h).1

theorem files_run (batch : Batch) (sources : List Source) (s : σ) :
    Host.files (batch.run sources s).2 = Host.files s ∧
      Host.directory (batch.run sources s).2 = Host.directory s := by
  obtain ⟨reports, h⟩ := run_eq_loads batch sources s
  obtain ⟨hf, hd⟩ := files_loadEach batch.replacePairs (inNameOrder (separate sources).1)
    ⟨∅, (separate sources).2⟩ (clashesReported sources s)
  rw [h, files_foldl_report, directory_foldl_report, loads, hf, hd, clashesReported,
    files_foldl_report, directory_foldl_report]
  exact ⟨rfl, rfl⟩

theorem run_of_nul (batch : Batch) {sources : List Source} (s : σ)
    (h : ∃ source ∈ (separate sources).1, source.path.contains '\x00' = true) :
    (batch.run sources s).1 = .error .invalidPath := by
  obtain ⟨s', -, -, hrun⟩ := run_fst batch sources s
  obtain ⟨source, hs, hn⟩ := h
  rw [hrun]
  exact loadEach_of_nul _ _ _ ⟨source, (mem_inNameOrder _).2 hs, hn⟩

theorem contains_nul_of_run {batch : Batch} {sources : List Source} {s : σ} {result : Result}
    (h : (batch.run sources s).1 = .ok result) :
    ∀ source ∈ (separate sources).1, source.path.contains '\x00' = false := by
  refine fun source hs => Bool.eq_false_iff.2 fun hp => ?_
  rw [run_of_nul batch s ⟨source, hs, hp⟩] at h
  cases h

end Run

namespace Result

variable {outcome? : Source → Option Metadata}

@[simp] theorem get?_add (result : Result) (source : Source) (outcome : Option Metadata)
    (name : String) :
    (result.add source outcome).metadata.get? name =
      if name = source.routineName then outcome else result.metadata.get? name := by
  cases outcome with
  | some record => exact OrderedMap.get?_insert _ _ _ _
  | none => exact OrderedMap.get?_erase _ _ _

/-- A source counts unless its name is taken. -/
theorem total_add (result : Result) (source : Source) (outcome : Option Metadata) :
    (result.add source outcome).total =
      if source.routineName ∈ result.metadata.keys then result.total else result.total + 1 := by
  cases outcome with
  | some record =>
    have h := OrderedMap.size_insert (m := result.metadata) (k := source.routineName) record
    simp only [add, total]
    split <;> rename_i hk
    · rw [h, if_pos hk]
    · rw [h, if_neg hk]
      omega
  | none =>
    have h := OrderedMap.size_erase (m := result.metadata) (k := source.routineName)
    simp only [add, total, List.length_append, List.length_singleton]
    split <;> rename_i hk
    · rw [if_pos hk] at h
      omega
    · rw [if_neg hk] at h
      omega

theorem collect_nil (result : Result) : result.collect outcome? [] = result := rfl

theorem collect_cons (result : Result) (source : Source) (sources : List Source) :
    result.collect outcome? (source :: sources) =
      (result.add source (outcome? source)).collect outcome? sources := rfl

theorem collect_congr {outcome?' : Source → Option Metadata} (result : Result)
    {sources : List Source} (h : ∀ source ∈ sources, outcome? source = outcome?' source) :
    result.collect outcome? sources = result.collect outcome?' sources :=
  List.foldl_ext _ _ _ fun r source hs => by rw [h source hs]

theorem failedPaths_collect (result : Result) (sources : List Source) :
    (result.collect outcome? sources).failedPaths =
      result.failedPaths ++ (sources.filter fun source => (outcome? source).isNone).map (·.path) := by
  induction sources generalizing result with
  | nil => simp [collect]
  | cons source sources ih =>
    rw [collect_cons, ih]
    cases ho : outcome? source with
    | some record => simp [add, ho]
    | none => simp [add, ho]

theorem get?_collect_of_not_mem (result : Result) {sources : List Source} {name : String}
    (h : ∀ source ∈ sources, source.routineName ≠ name) :
    (result.collect outcome? sources).metadata.get? name = result.metadata.get? name := by
  induction sources generalizing result with
  | nil => rfl
  | cons source sources ih =>
    have hne : name ≠ source.routineName := (h source List.mem_cons_self).symm
    rw [collect_cons, ih _ fun other ho => h other (List.mem_cons_of_mem _ ho), get?_add,
      if_neg hne]

theorem total_collect_le (outcome? : Source → Option Metadata) (result : Result)
    (sources : List Source) :
    (result.collect outcome? sources).total ≤ result.total + sources.length := by
  induction sources generalizing result with
  | nil => exact Nat.le_refl _
  | cons source sources ih =>
    have h := ih (result.add source (outcome? source))
    have ha := total_add result source (outcome? source)
    rw [collect_cons, List.length_cons]
    split at ha <;> omega

/-- A source that is followed by another one of its name leaves it free: it does not compile. -/
def LeavesName (outcome? : Source → Option Metadata) (a b : Source) : Prop :=
  a.routineName = b.routineName → outcome? a = none

/-- Names are free after one more source exactly if they were before and that source leaves them. -/
theorem free_add_iff (result : Result) {source : Source} (sources : List Source)
    (hn : result.metadata.get? source.routineName = none) :
    (∀ other ∈ sources,
        (result.add source (outcome? source)).metadata.get? other.routineName = none) ↔
      (∀ other ∈ sources, LeavesName outcome? source other) ∧
        ∀ other ∈ sources, result.metadata.get? other.routineName = none := by
  simp only [get?_add]
  constructor
  · intro h
    refine ⟨fun other ho he => ?_, fun other ho => ?_⟩
    · have hfree := h other ho
      rwa [if_pos he.symm] at hfree
    · by_cases he : other.routineName = source.routineName
      · rw [he, hn]
      · have hfree := h other ho
        rwa [if_neg he] at hfree
  · rintro ⟨hl, hf⟩ other ho
    split
    · next he => exact hl other ho he.symm
    · exact hf other ho

/-- All sources count exactly if none of them finds its name taken: not in the result to start
with, and not by a source before it. -/
theorem total_collect_eq_iff (outcome? : Source → Option Metadata) (result : Result)
    (sources : List Source) :
    (result.collect outcome? sources).total = result.total + sources.length ↔
      sources.Pairwise (LeavesName outcome?) ∧
        ∀ source ∈ sources, result.metadata.get? source.routineName = none := by
  induction sources generalizing result with
  | nil => simp [collect]
  | cons source sources ih =>
    have hle := total_collect_le outcome? (result.add source (outcome? source)) sources
    have ha := total_add result source (outcome? source)
    have ih := ih (result.add source (outcome? source))
    rw [collect_cons, List.length_cons, List.pairwise_cons, List.forall_mem_cons]
    by_cases hk : source.routineName ∈ result.metadata.keys
    · -- the source finds its name taken, and no later one makes up for that
      rw [if_pos hk] at ha
      constructor
      · intro h
        omega
      · rintro ⟨-, hn, -⟩
        exact absurd hk (OrderedMap.not_mem_keys_iff.2 hn)
    · rw [if_neg hk] at ha
      have hn := OrderedMap.not_mem_keys_iff.1 hk
      have hs : ((result.add source (outcome? source)).collect outcome? sources).total =
          result.total + (sources.length + 1) ↔
        ((result.add source (outcome? source)).collect outcome? sources).total =
          (result.add source (outcome? source)).total + sources.length := by omega
      rw [hs, ih, free_add_iff result sources hn]
      constructor
      · rintro ⟨hp, hl, hf⟩
        exact ⟨⟨hl, hp⟩, hn, hf⟩
      · rintro ⟨⟨hl, hp⟩, -, hf⟩
        exact ⟨hp, hl, hf⟩

/-- Where names are left free, every source that compiles keeps its record. -/
theorem get?_collect_of_leavesName (result : Result) {sources : List Source}
    (hp : sources.Pairwise (LeavesName outcome?)) {source : Source} (hs : source ∈ sources)
    {record : Metadata} (ho : outcome? source = some record) :
    (result.collect outcome? sources).metadata.get? source.routineName = some record := by
  induction sources generalizing result with
  | nil => exact absurd hs List.not_mem_nil
  | cons first sources ih =>
    rw [List.pairwise_cons] at hp
    rw [collect_cons]
    rcases List.mem_cons.1 hs with rfl | hs
    · have hne : ∀ other ∈ sources, other.routineName ≠ source.routineName := by
        intro other h he
        have hn := hp.1 other h he.symm
        simp [ho] at hn
      rw [get?_collect_of_not_mem _ hne, get?_add, if_pos rfl, ho]
    · exact ih _ hp.2 hs

/-- From a result without records, all sources count exactly if names are left free. -/
theorem length_collect_eq_iff {outcome? : Source → Option Metadata} {failed : List String}
    {sources : List Source} :
    (collect outcome? ⟨∅, failed⟩ sources).metadata.size +
      (collect outcome? ⟨∅, failed⟩ sources).failedPaths.length =
        failed.length + sources.length ↔ sources.Pairwise (LeavesName outcome?) := by
  have ht := total_collect_eq_iff outcome? ⟨∅, failed⟩ sources
  have he : (⟨∅, failed⟩ : Result).total = failed.length := Nat.zero_add _
  rw [he] at ht
  constructor
  · exact fun h => (ht.1 h).1
  · exact fun h => ht.2 ⟨h, fun _ _ => OrderedMap.get?_empty _⟩

/-- Sources of distinct names, all of them free, add their records in order. -/
theorem entries_collect (outcome? : Source → Option Metadata) (result : Result)
    {sources : List Source}
    (hd : (sources.map (·.routineName)).Nodup)
    (hf : ∀ source ∈ sources, source.routineName ∉ result.metadata.keys) :
    (result.collect outcome? sources).metadata.entries = result.metadata.entries ++
      sources.filterMap fun source => (outcome? source).map (source.routineName, ·) := by
  induction sources generalizing result with
  | nil => simp [collect]
  | cons source sources ih =>
    rw [List.map_cons, List.nodup_cons] at hd
    have hs := hf source List.mem_cons_self
    have hfree : ∀ other ∈ sources,
        other.routineName ∉ (result.add source (outcome? source)).metadata.keys := by
      intro other ho
      have hne : other.routineName ≠ source.routineName := fun he =>
        hd.1 (he ▸ List.mem_map_of_mem ho)
      rw [OrderedMap.not_mem_keys_iff, get?_add, if_neg hne, ← OrderedMap.not_mem_keys_iff]
      exact hf other (List.mem_cons_of_mem _ ho)
    rw [collect_cons, ih _ hd.2 hfree]
    cases ho : outcome? source with
    | some record => simp [add, ho, OrderedMap.entries_insert_of_not_mem record hs]
    | none => simp [add, ho, OrderedMap.entries_erase_of_not_mem hs]

end Result

end StoredRoutine.Batch
