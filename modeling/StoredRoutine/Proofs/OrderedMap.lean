import Mathlib
import StoredRoutine.OrderedMap
import StoredRoutine.Text.Basic

/-!
Lists without repetitions, lists in order, and maps that keep the order of their keys.
-/
namespace StoredRoutine

/-!
Lists without repetitions, each element at the place where it occurs first.
-/

section

variable {α : Type} [BEq α] [LawfulBEq α]

theorem nodup_eraseDups (as : List α) : as.eraseDups.Nodup := by
  match as with
  | [] => exact List.nodup_nil
  | a :: as =>
    rw [List.eraseDups_cons, List.nodup_cons]
    exact ⟨by simp, nodup_eraseDups _⟩
termination_by as.length
decreasing_by exact Nat.lt_succ_of_le (List.length_filter_le _ _)

/-- It makes no difference whether elements are left out before repetitions or after them. -/
theorem filter_eraseDups (p : α → Bool) (as : List α) :
    as.eraseDups.filter p = (as.filter p).eraseDups := by
  match as with
  | [] => rfl
  | a :: as =>
    rw [List.eraseDups_cons, List.filter_cons, List.filter_cons, filter_eraseDups,
      List.filter_filter]
    split
    · rw [List.eraseDups_cons, List.filter_filter]
      simp only [Bool.and_comm]
    · next hp =>
      -- the element itself is left out, so its repetitions are as well
      refine congrArg List.eraseDups (List.filter_congr fun b _ => ?_)
      by_cases hb : b = a
      · subst hb
        simp [hp]
      · simp [hb]
termination_by as.length
decreasing_by exact Nat.lt_succ_of_le (List.length_filter_le _ _)

/-- One more element counts only if it is a new one. -/
theorem eraseDups_concat (as : List α) (a : α) :
    (as ++ [a]).eraseDups = if a ∈ as then as.eraseDups else as.eraseDups ++ [a] := by
  rw [List.eraseDups_append]
  by_cases h : a ∈ as <;> simp [List.removeAll, h, List.eraseDups_cons]

/-- What occurs first comes first. -/
theorem pairwise_idxOf_eraseDups (as : List α) :
    as.eraseDups.Pairwise fun a b => as.idxOf a < as.idxOf b := by
  induction as using List.reverseRecOn with
  | nil => exact .nil
  | append_singleton as a ih =>
    have hidx : ∀ b ∈ as.eraseDups, (as ++ [a]).idxOf b = as.idxOf b := fun b hb =>
      List.idxOf_append_of_mem (List.mem_eraseDups.1 hb)
    have hold : as.eraseDups.Pairwise fun b c => (as ++ [a]).idxOf b < (as ++ [a]).idxOf c :=
      ih.imp_of_mem fun {b c} hb hc hlt => by rwa [hidx b hb, hidx c hc]
    rw [eraseDups_concat]
    split
    · exact hold
    · next ha =>
      refine List.pairwise_append.2 ⟨hold, List.pairwise_singleton _ _, fun b hb c hc => ?_⟩
      rw [List.mem_singleton.1 hc, hidx b hb, List.idxOf_append_of_notMem ha]
      exact Nat.lt_add_right _ (List.idxOf_lt_length_iff.2 (List.mem_eraseDups.1 hb))

/-- Of two values the one that occurs first has a place before all places of the other. -/
theorem exists_first_of_idxOf_lt {l : List (Nat × α)}
    (hl : l.Pairwise fun a b => a.1 < b.1) {m n : α}
    (h : (l.map Prod.snd).idxOf m < (l.map Prod.snd).idxOf n) :
    ∃ i, (i, m) ∈ l ∧ ∀ j, (j, n) ∈ l → i < j := by
  induction l with
  | nil => simp at h
  | cons e l ih =>
    obtain ⟨hfirst, hl⟩ := List.pairwise_cons.1 hl
    rw [List.map_cons] at h
    by_cases hm : e.2 = m
    · have hn : e.2 ≠ n := by
        rintro rfl
        simp at h
      refine ⟨e.1, by simp [← hm], fun j hj => ?_⟩
      rcases List.mem_cons.1 hj with rfl | hj
      · exact absurd rfl hn
      · exact hfirst _ hj
    · by_cases hn : e.2 = n
      · simp [hn] at h
      · rw [List.idxOf_cons_ne _ hm, List.idxOf_cons_ne _ hn] at h
        obtain ⟨i, hi, hall⟩ := ih hl (Nat.lt_of_succ_lt_succ h)
        refine ⟨i, List.mem_cons_of_mem _ hi, fun j hj => ?_⟩
        rcases List.mem_cons.1 hj with rfl | hj
        · exact absurd rfl hn
        · exact hall j hj

end

/-!
Texts in order. The order is linear, so a sorted list ascends, and strictly so if it has no
repetitions.
-/

namespace Text

theorem le_iff {s t : Text} : le s t = true ↔ s ≤ t := by
  rw [le, Bool.not_eq_true', decide_eq_false_iff_not]
  exact not_lt

theorem pairwise_sort (ts : List Text) : (sort ts).Pairwise (· ≤ ·) := by
  have htrans : ∀ s t u : Text, le s t = true → le t u = true → le s u = true :=
    fun s t u hst htu => le_iff.2 (le_trans (le_iff.1 hst) (le_iff.1 htu))
  have htotal : ∀ s t : Text, (le s t || le t s) = true := fun s t => by
    rw [Bool.or_eq_true, le_iff, le_iff]
    exact le_total s t
  exact (List.pairwise_mergeSort htrans htotal ts).imp le_iff.1

@[simp] theorem mem_sortedSet {t : Text} {ts : List Text} : t ∈ sortedSet ts ↔ t ∈ ts := by
  rw [sortedSet, sort, List.mem_mergeSort, List.mem_eraseDups]

/-- The distinct texts of a list ascend strictly. -/
theorem pairwise_sortedSet (ts : List Text) : (sortedSet ts).Pairwise (· < ·) := by
  have hd : (sortedSet ts).Nodup := (List.mergeSort_perm _ _).nodup_iff.2 (nodup_eraseDups ts)
  refine (List.pairwise_and_iff.2 ⟨pairwise_sort ts.eraseDups, hd⟩).imp ?_
  rintro s t ⟨hle, hne⟩
  exact lt_of_le_of_ne hle hne

end Text

/-!
What ordered maps hold after keys were written and dropped: by key, by entry and in number.
-/

namespace OrderedMap

variable {κ ν : Type} [DecidableEq κ]

omit [DecidableEq κ] in
theorem lookup_eq_some_iff [BEq κ] [LawfulBEq κ] {es : List (κ × ν)}
    (hd : (es.map Prod.fst).Nodup) {k : κ} {v : ν} : es.lookup k = some v ↔ (k, v) ∈ es := by
  induction es with
  | nil => simp
  | cons e es ih =>
    obtain ⟨a, b⟩ := e
    rw [List.map_cons, List.nodup_cons] at hd
    by_cases h : k = a
    · subst h
      have hk : (k, v) ∉ es := fun hm => hd.1 (List.mem_map.2 ⟨(k, v), hm, rfl⟩)
      simp [hk, eq_comm]
    · simp [List.lookup_cons, beq_false_of_ne h, h, ih hd.2]

theorem get?_eq_some_iff {m : OrderedMap κ ν} {k : κ} {v : ν} :
    m.get? k = some v ↔ (k, v) ∈ m.entries := lookup_eq_some_iff m.nodup

/-- Maps hold the same entries exactly if they give the same value under every key. -/
theorem perm_entries_iff {m n : OrderedMap κ ν} :
    m.entries.Perm n.entries ↔ ∀ k, m.get? k = n.get? k := by
  rw [List.perm_ext_iff_of_nodup m.nodup.of_map n.nodup.of_map]
  constructor
  · intro h k
    apply Option.ext
    intro v
    rw [get?_eq_some_iff, get?_eq_some_iff, h]
  · rintro h ⟨k, v⟩
    rw [← get?_eq_some_iff, ← get?_eq_some_iff, h]

theorem mem_keys_iff {m : OrderedMap κ ν} {k : κ} : k ∈ m.keys ↔ ∃ v, m.get? k = some v := by
  simp [keys, get?_eq_some_iff]

theorem not_mem_keys_iff {m : OrderedMap κ ν} {k : κ} : k ∉ m.keys ↔ m.get? k = none := by
  rw [mem_keys_iff, ← Option.isSome_iff_exists, Option.not_isSome_iff_eq_none]

@[simp] theorem get?_erase (m : OrderedMap κ ν) (k a : κ) :
    (m.erase k).get? a = if a = k then none else m.get? a := by
  apply Option.ext
  intro v
  rw [get?_eq_some_iff]
  by_cases h : a = k
  · simp [erase, h]
  · simp [erase, h, ← get?_eq_some_iff]

/-- A key that is written twice has its second value. -/
theorem insert_insert (m : OrderedMap κ ν) (k : κ) (v w : ν) :
    (m.insert k v).insert k w = m.insert k w := by
  have h : ∀ es : List (κ × ν), write (write es k v) k w = write es k w := by
    intro es
    induction es with
    | nil => simp [write]
    | cons e es ih => by_cases he : e.1 = k <;> simp [write, he, ih]
  simp only [insert, h]

section Fresh

theorem write_of_not_mem {es : List (κ × ν)} {k : κ} (v : ν) (h : k ∉ es.map Prod.fst) :
    write es k v = es ++ [(k, v)] := by
  induction es with
  | nil => rfl
  | cons e es ih =>
    rw [List.map_cons, List.mem_cons, not_or] at h
    rw [write, if_neg (Ne.symm h.1), ih h.2, List.cons_append]

theorem length_write_of_mem {es : List (κ × ν)} {k : κ} (v : ν) (h : k ∈ es.map Prod.fst) :
    (write es k v).length = es.length := by
  induction es with
  | nil => simp at h
  | cons e es ih =>
    by_cases he : e.1 = k
    · simp [write, he]
    · rw [List.map_cons, List.mem_cons] at h
      rw [write, if_neg he, List.length_cons, ih (h.resolve_left (Ne.symm he)), List.length_cons]

theorem map_fst_write_of_mem {es : List (κ × ν)} {k : κ} (v : ν) (h : k ∈ es.map Prod.fst) :
    (write es k v).map Prod.fst = es.map Prod.fst := by
  induction es with
  | nil => simp at h
  | cons e es ih =>
    by_cases he : e.1 = k
    · simp [write, he]
    · rw [List.map_cons, List.mem_cons] at h
      rw [write, if_neg he, List.map_cons, ih (h.resolve_left (Ne.symm he)), List.map_cons]

variable {m : OrderedMap κ ν} {k : κ}

theorem keys_insert_of_mem (v : ν) (h : k ∈ m.keys) : (m.insert k v).keys = m.keys :=
  map_fst_write_of_mem v h

theorem entries_insert_of_not_mem (v : ν) (h : k ∉ m.keys) :
    (m.insert k v).entries = m.entries ++ [(k, v)] := write_of_not_mem v h

theorem keys_insert_of_not_mem (v : ν) (h : k ∉ m.keys) : (m.insert k v).keys = m.keys ++ [k] := by
  rw [keys, entries_insert_of_not_mem v h, List.map_append]
  rfl

theorem entries_erase_of_not_mem (h : k ∉ m.keys) : (m.erase k).entries = m.entries := by
  refine List.filter_eq_self.2 fun e he => ?_
  have hne : e.1 ≠ k := fun hk => h (hk ▸ List.mem_map_of_mem he)
  simpa using hne

omit [DecidableEq κ] in
theorem ext_entries {m n : OrderedMap κ ν} (h : m.entries = n.entries) : m = n := by
  cases m
  cases n
  simpa using h

/-- A key that is written and dropped again leaves nothing behind. -/
theorem erase_insert_of_not_mem (v : ν) (h : k ∉ m.keys) : (m.insert k v).erase k = m := by
  have herase : m.entries.filter (·.1 ≠ k) = m.entries := entries_erase_of_not_mem h
  apply ext_entries
  calc ((m.insert k v).erase k).entries
      = (m.entries ++ [(k, v)]).filter (·.1 ≠ k) :=
        congrArg (List.filter fun e : κ × ν => decide (e.1 ≠ k)) (entries_insert_of_not_mem v h)
    _ = m.entries := by rw [List.filter_append, herase]; simp

theorem size_insert (v : ν) :
    (m.insert k v).size = if k ∈ m.keys then m.size else m.size + 1 := by
  by_cases h : k ∈ m.keys
  · rw [if_pos h]
    exact length_write_of_mem v h
  · rw [if_neg h, size, entries_insert_of_not_mem v h, List.length_append]
    rfl

theorem keys_erase : (m.erase k).keys = m.keys.erase k := by
  have h := List.Nodup.erase_eq_filter (l := m.keys) m.nodup k
  rw [h, keys, keys, erase, List.filter_map]
  congr 1
  exact List.filter_congr fun e _ => by by_cases he : e.1 = k <;> simp [he]

theorem size_erase : (m.erase k).size + (if k ∈ m.keys then 1 else 0) = m.size := by
  have hsize : ∀ n : OrderedMap κ ν, n.size = n.keys.length := fun n => by simp [size, keys]
  rw [hsize, hsize, keys_erase, List.length_erase]
  by_cases h : k ∈ m.keys
  · have := List.length_pos_of_mem h
    rw [if_pos h, if_pos h]
    omega
  · rw [if_neg h, if_neg h]
    rfl

end Fresh

/-- Values that a function of the key gives are found in whatever order they were written. -/
theorem get?_insertMany {es : List (κ × ν)} {f : κ → Option ν} (h : ∀ e ∈ es, f e.1 = some e.2)
    (m : OrderedMap κ ν) (k : κ) :
    (m.insertMany es).get? k = if k ∈ es.map Prod.fst then f k else m.get? k := by
  induction es generalizing m with
  | nil => simp [insertMany]
  | cons e es ih =>
    have hes : ∀ e ∈ es, f e.1 = some e.2 := fun e he => h e (List.mem_cons_of_mem _ he)
    have he : f e.1 = some e.2 := h e List.mem_cons_self
    rw [insertMany, List.foldl_cons, ← insertMany, ih hes, get?_insert, List.map_cons]
    by_cases hk : k ∈ es.map Prod.fst
    · rw [if_pos hk, if_pos (List.mem_cons_of_mem _ hk)]
    · by_cases hke : k = e.1
      · rw [if_neg hk, if_pos hke, if_pos (hke ▸ List.mem_cons_self), hke, he]
      · rw [if_neg hk, if_neg hke, if_neg (by simp [hke, hk])]

theorem get?_insertMany_eq_some_iff {es : List (κ × ν)} (hd : (es.map Prod.fst).Nodup)
    {m : OrderedMap κ ν} {k : κ} {v : ν} :
    (m.insertMany es).get? k = some v ↔
      (k, v) ∈ es ∨ k ∉ es.map Prod.fst ∧ m.get? k = some v := by
  have h : ∀ e ∈ es, List.lookup e.1 es = some e.2 := fun e he => (lookup_eq_some_iff hd).2 he
  rw [get?_insertMany (f := fun a => List.lookup a es) h, ← lookup_eq_some_iff hd]
  by_cases hk : k ∈ es.map Prod.fst
  · simp [hk]
  · have hl : List.lookup k es = none := by
      rw [List.lookup_eq_none_iff]
      intro e he
      exact bne_iff_ne.2 fun hke => hk (hke ▸ List.mem_map_of_mem he)
    rw [if_neg hk, hl]
    simp [hk]

theorem get?_ofList_eq_some_iff {es : List (κ × ν)} (hd : (es.map Prod.fst).Nodup) {k : κ}
    {v : ν} : (ofList es).get? k = some v ↔ (k, v) ∈ es := by
  rw [ofList, get?_insertMany_eq_some_iff hd]
  simp

section Written

/-- A key has the value that was written last under it. -/
theorem get?_insertMany_eq_or (m : OrderedMap κ ν) (es : List (κ × ν)) (k : κ) :
    (m.insertMany es).get? k =
      ((es.reverse.find? fun e => k = e.1).map Prod.snd).or (m.get? k) := by
  induction es using List.reverseRecOn with
  | nil => rfl
  | append_singleton es e ih =>
    rw [insertMany, List.foldl_concat, ← insertMany, get?_insert, ih, List.reverse_concat]
    by_cases h : k = e.1 <;> simp [h]

theorem ofList_concat (es : List (κ × ν)) (e : κ × ν) :
    ofList (es ++ [e]) = (ofList es).insert e.1 e.2 := List.foldl_concat ..

/-- Keys keep the order in which they were first written. -/
theorem keys_ofList [BEq κ] [LawfulBEq κ] (es : List (κ × ν)) :
    (ofList es).keys = (es.map Prod.fst).eraseDups := by
  induction es using List.reverseRecOn with
  | nil => rfl
  | append_singleton es e ih =>
    have hm : e.1 ∈ (ofList es).keys ↔ e.1 ∈ es.map Prod.fst := by rw [ih, List.mem_eraseDups]
    rw [ofList_concat, List.map_append, List.map_singleton, eraseDups_concat, ← ih]
    split
    · next h => exact keys_insert_of_mem e.2 (hm.2 h)
    · next h => exact keys_insert_of_not_mem e.2 fun hk => h (hm.1 hk)

end Written

end OrderedMap

end StoredRoutine
