import StoredRoutine.Batch.Run
import StoredRoutine.Proofs.OrderedMap

/-!
Which sources are left out of a batch: those with the method name of a source at another place of
the list. The sources that remain have distinct method names, and under a naming policy distinct
routine names.
-/
namespace StoredRoutine.Batch

open Routine (Source)

section Places

variable (sources : List Source)

/-- A source at another place has the same method name. -/
def Conflicts (i : Fin sources.length) : Prop :=
  ∃ j : Fin sources.length, j ≠ i ∧ sources[j].methodName = sources[i].methodName

instance : DecidablePred (Conflicts sources) := fun i =>
  inferInstanceAs (Decidable (∃ j : Fin sources.length,
    j ≠ i ∧ sources[j].methodName = sources[i].methodName))

/-- A source has a method name, and a source at another place has the same one. -/
def ClashesAt (i : Fin sources.length) : Prop :=
  sources[i].methodName ≠ none ∧ Conflicts sources i

instance : DecidablePred (ClashesAt sources) := fun i =>
  inferInstanceAs (Decidable (sources[i].methodName ≠ none ∧ Conflicts sources i))

/-- The sources that conflict, in the order of the list. -/
def conflicting : List Source :=
  ((List.finRange sources.length).filter fun i => Conflicts sources i).map (sources[·])

/-- The sources that do not conflict, in the order of the list. -/
def remaining : List Source :=
  ((List.finRange sources.length).filter fun i => ¬ Conflicts sources i).map (sources[·])

theorem length_conflicting_add_remaining :
    (conflicting sources).length + (remaining sources).length = sources.length := by
  have h := List.length_eq_length_filter_add (l := List.finRange sources.length)
    fun i => decide (Conflicts sources i)
  rw [List.length_finRange] at h
  simp only [conflicting, remaining, List.length_map, decide_not]
  exact h.symm

theorem filter_eq_map_filter (p : Source → Bool) :
    sources.filter p =
      ((List.finRange sources.length).filter fun i => p sources[i]).map (sources[·]) := by
  conv => lhs; rw [← List.map_get_finRange sources]
  rw [List.filter_map]
  rfl

/-- The sources that remain have distinct method names. -/
theorem nodup_methodName_remaining : ((remaining sources).map (·.methodName)).Nodup := by
  rw [remaining, List.map_map, List.Nodup, List.pairwise_map, List.pairwise_filter]
  refine (List.nodup_finRange sources.length).imp ?_
  intro i j hij hi _ he
  exact (of_decide_eq_true hi) ⟨j, Ne.symm hij, he.symm⟩

end Places

variable {sources : List Source}

/-- The names that clash are those of sources at two places. -/
theorem mem_clashingNames {name : String} : name ∈ clashingNames sources ↔
    ∃ i j : Fin sources.length, i ≠ j ∧ sources[i].methodName = some name ∧
      sources[j].methodName = some name := by
  have hc : (sources.map (·.methodName)).count (some name) =
      (sources.filterMap (·.methodName)).count name := by
    rw [List.count_filterMap, List.count, List.countP_map]
    rfl
  have hlen : (sources.map (·.methodName)).length = sources.length := List.length_map _
  have hd : (sources.map (·.methodName)).Duplicate (some name) ↔
      2 ≤ (sources.filterMap (·.methodName)).count name := by
    rw [List.duplicate_iff_sublist, ← hc]
    exact List.replicate_sublist_iff (n := 2)
  have hm : name ∈ clashingNames sources ↔ 2 ≤ (sources.filterMap (·.methodName)).count name := by
    simp only [clashingNames, List.mem_eraseDups, List.mem_filter, decide_eq_true_eq]
    refine ⟨fun h => h.2, fun h => ⟨?_, h⟩⟩
    exact List.count_pos_iff.1 (Nat.lt_of_lt_of_le Nat.zero_lt_two h)
  rw [hm, ← hd, List.duplicate_iff_exists_distinct_get]
  simp only [List.get_eq_getElem, List.getElem_map]
  constructor
  · rintro ⟨a, b, hab, ha, hb⟩
    exact ⟨a.cast hlen, b.cast hlen, fun h => by simp [Fin.ext_iff] at h; omega, ha.symm, hb.symm⟩
  · rintro ⟨i, j, hij, hi, hj⟩
    rcases Nat.lt_or_gt_of_ne (Fin.val_ne_of_ne hij) with h | h
    · exact ⟨i.cast hlen.symm, j.cast hlen.symm, h, hi.symm, hj.symm⟩
    · exact ⟨j.cast hlen.symm, i.cast hlen.symm, h, hj.symm, hi.symm⟩

/-- A source clashes exactly if it has its method name with one at another place. -/
theorem clashes_iff_clashesAt (i : Fin sources.length) :
    clashes (clashingNames sources) sources[i] = true ↔ ClashesAt sources i := by
  rw [clashes, ClashesAt, Conflicts]
  cases hn : sources[i].methodName with
  | none => simp
  | some name =>
    rw [Option.any_some, List.contains_iff_mem, mem_clashingNames]
    refine Iff.trans ?_ (and_iff_right (Option.some_ne_none name)).symm
    constructor
    · rintro ⟨a, b, hab, ha, hb⟩
      by_cases hi : a = i
      · exact ⟨b, fun h => hab (hi.trans h.symm), hb⟩
      · exact ⟨a, hi, ha⟩
    · rintro ⟨j, hj, he⟩
      exact ⟨j, i, hj, he, hn⟩

/-- The batch separates the sources that conflict from those that remain. -/
theorem separate_eq (hm : ∀ source ∈ sources, source.methodName ≠ none) :
    separate sources = (remaining sources, (conflicting sources).map (·.path)) := by
  have hb : ∀ i : Fin sources.length,
      clashes (clashingNames sources) sources[i] = decide (Conflicts sources i) := fun i => by
    rw [Bool.eq_iff_iff, decide_eq_true_iff, clashes_iff_clashesAt, ClashesAt]
    exact and_iff_right (hm sources[i] (List.getElem_mem _))
  rw [separate, filter_eq_map_filter, filter_eq_map_filter]
  simp only [hb, conflicting, remaining, decide_not]

/-- Distinct method names do not clash. -/
theorem clashingNames_of_nodup (hd : (sources.filterMap (·.methodName)).Nodup) :
    clashingNames sources = [] := by
  rw [List.eq_nil_iff_forall_not_mem]
  intro name h
  rw [clashingNames, List.mem_eraseDups, List.mem_filter, decide_eq_true_eq] at h
  exact Nat.not_lt.2 (List.nodup_iff_count_le_one.1 hd name) h.2

/-- Where no names clash nothing is left out. -/
theorem separate_of_nodup (hd : (sources.filterMap (·.methodName)).Nodup) :
    separate sources = (sources, []) := by
  have hc : clashes [] = fun _ => false := funext fun source => by
    cases h : source.methodName <;> simp [clashes, h]
  rw [separate, clashingNames_of_nodup hd, hc]
  simp

theorem separate_of_unnamed (hm : ∀ source ∈ sources, source.methodName = none) :
    separate sources = (sources, []) := by
  refine separate_of_nodup ?_
  rw [List.filterMap_eq_nil_iff.2 hm]
  exact List.nodup_nil

section Groups

variable (sources : List Source)

/-- Whether the method name of a source is given to more than one. -/
def shares (source : Source) : Bool :=
  source.methodName.any fun name => 1 < sources.countP (·.methodName == some name)

/-- The sources with a method name, in the order of the list. -/
def named (name : String) : List Source := sources.filter (·.methodName == some name)

/-- The method names that more than one source has, in the order in which they first occur. -/
def sharedNames : List String :=
  (sources.filterMap (·.methodName)).eraseDups.filter fun name =>
    1 < sources.countP (·.methodName == some name)

theorem clashingNames_eq : clashingNames sources = sharedNames sources := by
  rw [sharedNames, filter_eraseDups, clashingNames]
  refine congrArg List.eraseDups (List.filter_congr fun name _ => ?_)
  rw [List.count_filterMap]

theorem mem_sharedNames {name : String} :
    name ∈ sharedNames sources ↔ 1 < sources.countP (·.methodName == some name) := by
  rw [sharedNames, List.mem_filter, List.mem_eraseDups, List.mem_filterMap, decide_eq_true_eq]
  refine ⟨And.right, fun h => ⟨?_, h⟩⟩
  obtain ⟨source, hs, hm⟩ := List.countP_pos_iff.1 (Nat.lt_trans Nat.zero_lt_one h)
  exact ⟨source, hs, eq_of_beq hm⟩

theorem any_contains_sharedNames (source : Source) :
    source.methodName.any (sharedNames sources).contains = shares sources source := by
  rw [shares]
  congr 1
  funext name
  rw [Bool.eq_iff_iff, List.contains_iff_mem, mem_sharedNames, decide_eq_true_iff]

/-- The batch leaves out the sources whose method name is shared. -/
theorem separate_eq_filter :
    separate sources =
      (sources.filter (! shares sources ·), (sources.filter (shares sources)).map (·.path)) := by
  have hclashes : clashes (clashingNames sources) = shares sources := by
    funext source
    rw [clashes, clashingNames_eq, any_contains_sharedNames]
  rw [separate, hclashes]

/-- Sources by their method names are the sources that have one of these names. -/
theorem flatMap_named_perm {names : List String} (hd : names.Nodup) :
    (names.flatMap (named sources)).Perm (sources.filter (·.methodName.any names.contains)) := by
  induction names with
  | nil =>
    have hnone : ∀ source : Source, source.methodName.any [].contains = false := fun source => by
      cases source.methodName <;> simp
    simp [hnone]
  | cons name names ih =>
    rw [List.nodup_cons] at hd
    have hsplit := List.filter_append_perm (·.methodName == some name)
      (sources.filter (·.methodName.any (name :: names).contains))
    rw [List.filter_filter, List.filter_filter] at hsplit
    have hfirst : ∀ source ∈ sources, (source.methodName == some name &&
        source.methodName.any (name :: names).contains) = (source.methodName == some name) := by
      intro source _
      cases source.methodName <;> simp_all
    have hrest : ∀ source ∈ sources, (!(source.methodName == some name) &&
        source.methodName.any (name :: names).contains) =
          source.methodName.any names.contains := by
      intro source _
      cases source.methodName with
      | none => simp
      | some other =>
        by_cases ho : other = name
        · simp [ho, hd.1]
        · simp [ho]
    rw [List.filter_congr hfirst, List.filter_congr hrest] at hsplit
    rw [List.flatMap_cons]
    exact ((ih hd.2).append_left _).trans hsplit

/-- Every source whose method name is shared is in the group of that name, and in no other. -/
theorem flatMap_named_sharedNames :
    ((sharedNames sources).flatMap (named sources)).Perm (sources.filter (shares sources)) := by
  have hd : (sharedNames sources).Nodup := (nodup_eraseDups _).filter _
  refine (flatMap_named_perm sources hd).trans (.of_eq (List.filter_congr fun source _ => ?_))
  exact any_contains_sharedNames sources source

end Groups

end StoredRoutine.Batch
