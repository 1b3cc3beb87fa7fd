import StoredRoutine.Proofs.ListedPaths

/-!
Separating sources that would give equally named wrapper methods. A source is left out exactly if a
source at another place has its method name, and each name that clashes is reported once, with all the
paths that share it. What remains has distinct names, so to separate it once more changes nothing.
-/
namespace StoredRoutine.Batch

open Routine (Source)

section Places

variable (sources : List Source)

/-- The places of the sources that clash, in the order of the list. -/
def clashingPlaces : List (Fin sources.length) :=
  (List.finRange sources.length).filter fun i => ClashesAt sources i

/-- The places of the other sources. -/
def freePlaces : List (Fin sources.length) :=
  (List.finRange sources.length).filter fun i => ¬ ClashesAt sources i

/-- The method names of sources, each with its place. -/
def namedPlaces : List (Nat × String) :=
  (List.finRange sources.length).filterMap fun i => (sources.get i).methodName.map (i.val, ·)

theorem perm_places : (freePlaces sources ++ clashingPlaces sources).Perm
    (List.finRange sources.length) := by
  have h := List.filter_append_perm (fun i => decide (ClashesAt sources i))
    (List.finRange sources.length)
  simp only [freePlaces, clashingPlaces, decide_not]
  exact List.perm_append_comm.trans h

theorem mem_clashingPlaces {i : Fin sources.length} :
    i ∈ clashingPlaces sources ↔ ClashesAt sources i := by
  simp [clashingPlaces]

theorem separate_eq_places : separate sources =
    ((freePlaces sources).map sources.get,
      (clashingPlaces sources).map fun i => (sources.get i).path) := by
  have hc : ∀ i : Fin sources.length,
      clashes (clashingNames sources) sources[i] = decide (ClashesAt sources i) := fun i => by
    rw [Bool.eq_iff_iff, decide_eq_true_iff, clashes_iff_clashesAt]
  rw [separate, filter_eq_map_filter, filter_eq_map_filter, List.map_map]
  simp only [hc, freePlaces, clashingPlaces, decide_not]
  rfl

/-- Two sources with one name clash, so at most one of them is at a free place. -/
theorem nodup_names_freePlaces :
    (((freePlaces sources).map sources.get).filterMap (·.methodName)).Nodup := by
  rw [List.Nodup, List.pairwise_filterMap, List.pairwise_map, freePlaces, List.pairwise_filter]
  refine (List.nodup_finRange sources.length).imp ?_
  intro i j hij hi _ name (hname : sources[i].methodName = some name) other
    (hother : sources[j].methodName = some other) he
  refine of_decide_eq_true hi ⟨by rw [hname]; exact Option.some_ne_none name, j, Ne.symm hij, ?_⟩
  rw [hname, hother, he]

end Places

section Names

variable {sources : List Source}

theorem mem_clashingNames_iff_place {name : String} : name ∈ clashingNames sources ↔
    ∃ i ∈ clashingPlaces sources, (sources.get i).methodName = some name := by
  simp only [mem_clashingPlaces]
  constructor
  · intro h
    obtain ⟨i, j, hij, hi, hj⟩ := mem_clashingNames.1 h
    refine ⟨i, ⟨?_, j, Ne.symm hij, hj.trans hi.symm⟩, hi⟩
    rw [hi]
    exact Option.some_ne_none name
  · rintro ⟨i, ⟨-, j, hj, he⟩, hi⟩
    exact mem_clashingNames.2 ⟨j, i, hj, he.trans hi, hi⟩

theorem map_snd_namedPlaces :
    (namedPlaces sources).map Prod.snd = sources.filterMap (·.methodName) := by
  conv => rhs; rw [← List.map_get_finRange sources, List.filterMap_map]
  rw [namedPlaces, List.map_filterMap]
  refine List.filterMap_congr fun i _ => ?_
  rw [Option.map_map]
  exact Option.map_id'

theorem pairwise_namedPlaces : (namedPlaces sources).Pairwise fun a b => a.1 < b.1 := by
  refine List.pairwise_filterMap.2 ((List.pairwise_lt_finRange sources.length).imp ?_)
  intro i j hij a ha b hb
  obtain ⟨name, -, rfl⟩ := Option.map_eq_some_iff.1 ha
  obtain ⟨other, -, rfl⟩ := Option.map_eq_some_iff.1 hb
  exact hij

theorem mem_namedPlaces {k : Nat} {name : String} : (k, name) ∈ namedPlaces sources ↔
    ∃ i : Fin sources.length, i.val = k ∧ (sources.get i).methodName = some name := by
  rw [namedPlaces, List.mem_filterMap]
  constructor
  · rintro ⟨i, -, he⟩
    obtain ⟨name, hn, he⟩ := Option.map_eq_some_iff.1 he
    obtain ⟨rfl, rfl⟩ := Prod.mk.inj he
    exact ⟨i, rfl, hn⟩
  · rintro ⟨i, rfl, hn⟩
    exact ⟨i, List.mem_finRange i, by rw [hn]; rfl⟩

/-- The names that clash are in the order in which sources first have them. -/
theorem pairwise_clashingNames (sources : List Source) :
    (clashingNames sources).Pairwise fun a b => ∃ i : Fin sources.length,
      (sources.get i).methodName = some a ∧ ∀ j : Fin sources.length,
        (sources.get j).methodName = some b → i < j := by
  rw [clashingNames_eq, sharedNames]
  refine ((pairwise_idxOf_eraseDups _).filter _).imp fun {a b} hlt => ?_
  rw [← map_snd_namedPlaces] at hlt
  obtain ⟨k, hk, hall⟩ := exists_first_of_idxOf_lt pairwise_namedPlaces hlt
  obtain ⟨i, rfl, hi⟩ := mem_namedPlaces.1 hk
  exact ⟨i, hi, fun j hj => hall j (mem_namedPlaces.2 ⟨j, rfl, hj⟩)⟩

end Names

/-- The sources that clash, and no others, are left out of a list; the others stay in their order, and
each source is in one part. The user is told each name that clashes, in the order in which the names
first occur, with the paths of all sources that have it. What stays has distinct names, and to separate
it again leaves it as it is and tells nothing. -/
theorem withoutClashes_separates (sources : List Source) :
    let kept := (freePlaces sources).map sources.get
    (∀ w : Workspace, (withoutClashes sources : Task Workspace Routine.LoadFailure _) w =
        (.ok (kept, (clashingPlaces sources).map fun i => (sources.get i).path),
          w.told ((clashingNames sources).map fun name =>
            .diagnostic (.errorList (clashMessage name) ((named sources name).map (·.path)))))) ∧
      ((∀ i, i ∈ clashingPlaces sources ↔ ClashesAt sources i) ∧
        (freePlaces sources).Pairwise (· < ·) ∧ (clashingPlaces sources).Pairwise (· < ·) ∧
        (freePlaces sources ++ clashingPlaces sources).Perm (List.finRange sources.length)) ∧
      ((∀ name, name ∈ clashingNames sources ↔
          ∃ i ∈ clashingPlaces sources, (sources.get i).methodName = some name) ∧
        (clashingNames sources).Nodup ∧
        (clashingNames sources).Pairwise fun a b => ∃ i : Fin sources.length,
          (sources.get i).methodName = some a ∧ ∀ j : Fin sources.length,
            (sources.get j).methodName = some b → i < j) ∧
      (kept.filterMap (·.methodName)).Nodup ∧
      ∀ w : Workspace, (withoutClashes kept : Task Workspace Routine.LoadFailure _) w =
        (.ok (kept, []), w) := by
  intro kept
  have hfree : (kept.filterMap (·.methodName)).Nodup := nodup_names_freePlaces sources
  refine ⟨fun w => ?_, ⟨fun i => mem_clashingPlaces sources,
    (List.pairwise_lt_finRange _).filter _, (List.pairwise_lt_finRange _).filter _,
    perm_places sources⟩, ⟨fun name => mem_clashingNames_iff_place, nodup_eraseDups _,
    pairwise_clashingNames sources⟩, hfree, fun w => ?_⟩
  · rw [withoutClashes_apply, separate_eq_places, clashesReported, Workspace.foldl_report,
      clashReports_eq, ← clashingNames_eq, List.map_map]
    rfl
  · rw [withoutClashes_apply, separate_of_nodup hfree, clashesReported, clashReports,
      clashingNames_of_nodup hfree]
    rfl

/-- Sources without method name stay, also where several have none. -/
example : separate [⟨"b", "b", none⟩, ⟨"x/a", "a", some "f"⟩, ⟨"c", "c", some "g"⟩, ⟨"d", "d", none⟩,
      ⟨"y/a", "a", some "f"⟩] =
    ([⟨"b", "b", none⟩, ⟨"c", "c", some "g"⟩, ⟨"d", "d", none⟩], ["x/a", "y/a"]) := by
  decide +kernel

end StoredRoutine.Batch
