import StoredRoutine.Proofs.BatchLoop
import StoredRoutine.Proofs.Records

/-!
What holds of every record of a batch. A load answers for the record alone; that the records stand
in the order of their names, each under its own, is kept by one source after the other, also where
names are shared and records are replaced or taken away.
-/
namespace StoredRoutine

namespace Routine

/-- A record that fits the data model: the return type fits the designation, and the documented
parameters are the parameters, which have distinct names that are bind markers. -/
structure Metadata.WellFormed (m : Metadata) : Prop where
  returns : m.returnType ≠ none ↔ m.designation = .singleton0 ∨ m.designation = .singleton1
  typed : ∀ type, m.returnType = some type → Typed m.designation type
  distinct : (m.parameters.map (·.name)).Nodup
  markers : ∀ p ∈ m.parameters, BindMarker.IsMarker p.name
  documented : List.Forall₂
    (fun p d => p.name = d.name ∧ p.type = if d.type = [] then none else some d.type)
    m.parameters m.documentation.parameters

theorem returnsValue_iff {d : Designation} :
    d.returnsValue = true ↔ d = .singleton0 ∨ d = .singleton1 := by
  cases d <;> decide

/-- A return type that was declared for a designation is there if and only if that carries one, and
one that passed the check is of a kind that the designation may have. -/
theorem returnType_of_declared {text : Text} {d : Designation} {type : Option Text}
    (ht : declaredReturnType (docBlock text) d = .ok type) (hc : checkReturnType d type = .ok ()) :
    (type ≠ none ↔ d = .singleton0 ∨ d = .singleton1) ∧ ∀ t, type = some t → Typed d t := by
  rw [declaredReturnType_eq_ok_iff] at ht
  rw [← returnsValue_iff]
  split at ht
  · next hv =>
    obtain ⟨word, rfl, -⟩ := ht
    refine ⟨by simp [hv], ?_⟩
    rintro t ⟨⟩
    rw [← typeFault?_eq_none_iff]
    rw [checkReturnType, ReturnType.fault?] at hc
    cases hf : ReturnType.typeFault? d word with
    | none => rfl
    | some fault => simp [hv, hf] at hc
  · next hv =>
    obtain ⟨rfl, -⟩ := ht
    exact ⟨by simp [hv], fun t h => by simp at h⟩

theorem forall₂_descriptor (documented : List Parameter.Documented) :
    List.Forall₂ (fun p d => p.name = d.name ∧ p.type = if d.type = [] then none else some d.type)
      (documented.map (·.descriptor)) documented := by
  rw [List.forall₂_map_left_iff, List.forall₂_same]
  intro d _
  exact ⟨rfl, by simp [Parameter.Documented.descriptor]⟩

theorem wellFormed_of_load {σ : Type} [Host σ] {pairs : Placeholder.Pairs} {source : Source} {s : σ}
    {m : Metadata} (h : (load pairs source s).1 = .ok m) :
    m.routineName = source.routineName ∧ m.WellFormed := by
  obtain ⟨text, replace, d, type, documented, -, -, -, htype, hcheck, hagreed, rfl⟩ :=
    exists_record_of_load h
  obtain ⟨hreturns, htyped⟩ := returnType_of_declared htype hcheck
  have hnames := names_of_agreedParameters hagreed
  have hdistinct : ((documented.map (·.descriptor)).map (·.name)).Nodup := by
    rw [map_name_descriptor, hnames]
    exact BindMarker.nodup_discover _
  have hmarkers : ∀ p ∈ documented.map (·.descriptor), BindMarker.IsMarker p.name := by
    intro p hp
    have hp : p.name ∈ (documented.map (·.descriptor)).map (·.name) := List.mem_map_of_mem hp
    rw [map_name_descriptor, hnames] at hp
    exact BindMarker.isMarker_of_mem_discover hp
  exact ⟨rfl, hreturns, htyped, hdistinct, hmarkers, forall₂_descriptor documented⟩

end Routine

namespace Batch

open Routine (Metadata Source)

/-- A result with records that fit the data model, in the order of their names. -/
structure Result.Conforms (result : Result) : Prop where
  sorted : result.metadata.keys.Pairwise (· < ·)
  records : ∀ name record, result.metadata.get? name = some record →
    record.routineName = name ∧ record.WellFormed

section Add

variable {result : Result} {source : Source} {outcome : Option Metadata}

theorem Result.mem_keys_add {name : String} (h : name ∈ (result.add source outcome).metadata.keys) :
    name = source.routineName ∨ name ∈ result.metadata.keys := by
  obtain ⟨record, hr⟩ := OrderedMap.mem_keys_iff.1 h
  rw [get?_add] at hr
  split at hr
  · next he => exact .inl he
  · exact .inr (OrderedMap.mem_keys_iff.2 ⟨record, hr⟩)

/-- Names stay in order under one that none of them exceeds. -/
theorem Result.sorted_add (h : result.metadata.keys.Pairwise (· < ·))
    (hle : ∀ name ∈ result.metadata.keys, name ≤ source.routineName) :
    (result.add source outcome).metadata.keys.Pairwise (· < ·) := by
  cases outcome with
  | none =>
    simp only [add, OrderedMap.keys_erase]
    exact h.sublist List.erase_sublist
  | some record =>
    simp only [add]
    by_cases hm : source.routineName ∈ result.metadata.keys
    · rwa [OrderedMap.keys_insert_of_mem record hm]
    · rw [OrderedMap.keys_insert_of_not_mem record hm, List.pairwise_append]
      refine ⟨h, List.pairwise_singleton _ _, fun name hn next hnext => ?_⟩
      obtain rfl := List.mem_singleton.1 hnext
      rw [← String.not_le]
      exact fun hge => hm (String.le_antisymm (hle name hn) hge ▸ hn)

/-- One more source keeps a result in order if its name comes last and its record, if it has one,
fits the data model. -/
theorem Result.Conforms.add (h : result.Conforms)
    (hle : ∀ name ∈ result.metadata.keys, name ≤ source.routineName)
    (ho : ∀ record, outcome = some record →
      record.routineName = source.routineName ∧ record.WellFormed) :
    (result.add source outcome).Conforms where
  sorted := sorted_add h.sorted hle
  records := by
    intro name record hr
    rw [get?_add] at hr
    split at hr
    · next he =>
      subst he
      exact ho record hr
    · exact h.records name record hr

end Add

section Run

variable {σ : Type} [Host σ] {pairs : Placeholder.Pairs} {sources : List Source}
  {result result' : Result} {s : σ}

/-- A batch that goes on has added the outcome of its first source. -/
theorem exists_loadEach_of_cons {source : Source}
    (h : (loadEach pairs (source :: sources) result s).1 = .ok result') :
    ∃ s' : σ, (loadEach pairs sources
      (result.add source (Routine.load pairs source s).1.toOption) s').1 = .ok result' := by
  rw [loadEach, Task.bind_apply_of_ok (Task.outcome_apply _ s)] at h
  cases ho : (Routine.load pairs source s).1 with
  | ok record =>
    rw [ho] at h
    exact ⟨_, h⟩
  | error failure =>
    rw [ho] at h
    dsimp only at h
    split at h
    · rw [Task.bind_apply_of_ok (Task.reportAll_apply _ _)] at h
      exact ⟨_, h⟩
    · simp at h

theorem conforms_of_loadEach (h : (loadEach pairs sources result s).1 = .ok result')
    (hs : sources.Pairwise fun a b => a.routineName ≤ b.routineName)
    (hle : ∀ name ∈ result.metadata.keys, ∀ source ∈ sources, name ≤ source.routineName)
    (hc : result.Conforms) : result'.Conforms := by
  induction sources generalizing result s with
  | nil =>
    obtain rfl := Except.ok.inj h
    exact hc
  | cons source sources ih =>
    rw [List.pairwise_cons] at hs
    obtain ⟨s', h⟩ := exists_loadEach_of_cons h
    refine ih h hs.2 ?_ (hc.add (fun name hn => hle name hn source List.mem_cons_self) ?_)
    · intro name hn other ho
      rcases Result.mem_keys_add hn with rfl | hn
      · exact hs.1 other ho
      · exact hle name hn other (List.mem_cons_of_mem _ ho)
    · intro record hr
      cases hl : (Routine.load pairs source s).1 with
      | ok m =>
        rw [hl] at hr
        obtain rfl := Option.some.inj hr
        exact Routine.wellFormed_of_load hl
      | error failure => simp [hl, Except.toOption] at hr

/-- Every run of a batch that ends leaves its records in strictly ascending order of names, each
under the name of its routine and fitting the data model. -/
theorem run_keeps_data_model {batch : Batch} (h : (batch.run sources s).1 = .ok result) :
    result.metadata.keys.Pairwise (· < ·) ∧
      ∀ e ∈ result.metadata.entries, e.2.routineName = e.1 ∧ e.2.WellFormed := by
  rw [run_fst_eq_loadEach] at h
  have hempty : (⟨∅, (separate sources).2⟩ : Result).Conforms :=
    ⟨List.Pairwise.nil, fun name record hr => by simp at hr⟩
  have hc := conforms_of_loadEach h (inNameOrder_pairwise _)
    (fun name hn => by simp at hn) hempty
  exact ⟨hc.sorted, fun e he => hc.records e.1 e.2 (OrderedMap.get?_eq_some_iff.2 he)⟩

end Run

section Sample

/-- A routine that may select no row, with a documented type for its parameter. -/
def nullableText : Text :=
  "/**\n@type singleton0\n@return int|null\n@param int p\n*/\nselect :p".toList

/-- A batch without naming policy. -/
def nullableBatch : Batch := ⟨none, ∅, [], none⟩

/-- A missing source of the same name as one that compiles, and one of a later name. -/
def nullableSources : List Source :=
  [⟨"b.psql", "b", none⟩, ⟨"x/a.psql", "a", none⟩, ⟨"a.psql", "a", none⟩]

theorem run_keeps_nullable : ∃ result record,
    (nullableBatch.run nullableSources (Routine.loneWorkspace nullableText)).1 = .ok result ∧
      ("a", record) ∈ result.metadata.entries ∧ record.routineName = "a" ∧ record.WellFormed := by
  have ht : (Routine.loneWorkspace nullableText).files.HasText [] "a.psql" nullableText :=
    ⟨["a.psql"], by cbv, by decide +kernel⟩
  have hc : (Routine.compile [] nullableBatch.replacePairs ⟨"a.psql", "a", none⟩
      nullableText).isOk = true := by decide +kernel
  obtain ⟨record, hl⟩ := Routine.exists_load_of_isOk ht (by decide) hc
  have hr : nullableBatch.record? (Routine.loneWorkspace nullableText) ⟨"a.psql", "a", none⟩ =
      some record := by
    rw [record?, hl]
    rfl
  have hp : ∀ source ∈ nullableSources, source.path.contains '\x00' = false := by
    simp only [nullableSources, List.forall_mem_cons]
    exact ⟨by cbv, by cbv, by cbv, fun _ h => absurd h List.not_mem_nil⟩
  have ho : inNameOrder (separate nullableSources).1 =
      [⟨"x/a.psql", "a", none⟩, ⟨"a.psql", "a", none⟩, ⟨"b.psql", "b", none⟩] := by
    cbv
  have hrun := run_apply nullableBatch nullableSources (Routine.loneWorkspace nullableText) hp
  have hm : ("a", record) ∈ (Result.collect
      (nullableBatch.record? (Routine.loneWorkspace nullableText))
      ⟨∅, (separate nullableSources).2⟩
      (inNameOrder (separate nullableSources).1)).metadata.entries := by
    rw [← OrderedMap.get?_eq_some_iff, ho]
    simp [Result.collect_cons, Result.collect_nil, hr]
  obtain ⟨-, hrecords⟩ := run_keeps_data_model hrun
  exact ⟨_, record, hrun, hm, hrecords _ hm⟩

end Sample

end Batch

end StoredRoutine
