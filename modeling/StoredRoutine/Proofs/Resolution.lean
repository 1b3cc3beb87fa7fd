import StoredRoutine.Placeholder
import StoredRoutine.Proofs.OrderedMap
import StoredRoutine.Proofs.PlaceholderScan

/-!
The placeholders of a text, said without a scanner, and how resolving shares them out.
-/
namespace StoredRoutine.Placeholder

/-!
What resolving the placeholders of a text finds: the value of each placeholder under its upper-cased
spelling, and nothing unknown exactly if every placeholder has one.
-/

section

variable {pairs : Pairs} {t : Text}

theorem value?_eq_some_iff {p v : Text} :
    value? pairs p = some v ↔ pairs.get? p.upper = some (some v) := Option.join_eq_some_iff

theorem get?_eq_value {p : Text} (h : ∃ v, pairs.get? p.upper = some (some v)) :
    pairs.get? p.upper = some (some ((value? pairs p).getD [])) := by
  obtain ⟨v, hv⟩ := h
  rw [value?_eq_some_iff.2 hv, Option.getD_some, hv]

theorem mem_unknown {p : Text} :
    p ∈ (resolve pairs t).unknown ↔ p ∈ find t ∧ value? pairs p = none := by
  rw [resolve, Text.mem_sortedSet, List.mem_filter, Option.isNone_iff_eq_none]

/-- Nothing is unknown exactly if every placeholder has a value. -/
theorem unknown_eq_nil_iff :
    (resolve pairs t).unknown = [] ↔ ∀ p ∈ find t, ∃ v, pairs.get? p.upper = some (some v) := by
  rw [List.eq_nil_iff_forall_not_mem]
  constructor
  · intro h p hp
    have hn : value? pairs p ≠ none := fun hv => h p (mem_unknown.2 ⟨hp, hv⟩)
    obtain ⟨v, hv⟩ := Option.ne_none_iff_exists'.1 hn
    exact ⟨v, value?_eq_some_iff.1 hv⟩
  · intro h p hp
    obtain ⟨hm, hn⟩ := mem_unknown.1 hp
    obtain ⟨v, hv⟩ := h p hm
    rw [value?_eq_some_iff.2 hv] at hn
    exact Option.some_ne_none v hn

/-- A placeholder of the text is replaced by its value. -/
theorem get?_replacements (p : Text) :
    (resolve pairs t).replacements.get? p = if p ∈ find t then value? pairs p else none := by
  have he : ∀ e ∈ (find t).filterMap fun p => (value? pairs p).map (p, ·),
      e.1 ∈ find t ∧ value? pairs e.1 = some e.2 := by
    intro e h
    obtain ⟨q, hq, hm⟩ := List.mem_filterMap.1 h
    obtain ⟨v, hv, rfl⟩ := Option.map_eq_some_iff.1 hm
    exact ⟨hq, hv⟩
  rw [resolve, OrderedMap.ofList, OrderedMap.get?_insertMany (fun e h => (he e h).2)]
  split
  · next h =>
    obtain ⟨e, hm, rfl⟩ := List.mem_map.1 h
    rw [if_pos (he e hm).1]
  · next h =>
    by_cases hp : p ∈ find t
    · rw [if_pos hp, OrderedMap.get?_empty, eq_comm]
      refine Option.eq_none_iff_forall_ne_some.2 fun v hv => h ?_
      exact List.mem_map.2 ⟨(p, v), List.mem_filterMap.2 ⟨p, hp, by rw [hv]; rfl⟩, rfl⟩
    · rw [if_neg hp, OrderedMap.get?_empty]

end

/-!
The placeholders of a text by the places where they stand, without a scanner: the leftmost one comes
first, and the others are those of the text after it, so that its closing at sign opens none. The
scanner finds just these, and resolving shares them out between those that have a value and those
that are unknown.
-/

/-- The placeholders that stand in a text one after the other, from left to right. -/
inductive LeftToRight : Text → List Text → Prop
  | none {t : Text} (absent : ∀ p, IsPlaceholder p → ¬ p <:+: t) : LeftToRight t []
  | next (gap : Text) {p rest : Text} {ps : List Text} (here : IsPlaceholder p)
      (leftmost : ∀ before q after, IsPlaceholder q → gap ++ (p ++ rest) = before ++ (q ++ after) →
        gap.length ≤ before.length)
      (others : LeftToRight rest ps) : LeftToRight (gap ++ (p ++ rest)) (p :: ps)

section Occurrences

variable {t : Text} {ps ps' : List Text}

/-- At a character where the scanner opens none stands no placeholder. -/
theorem not_prefix_of_not_opened {c : Char} (h : c = '@' → opened? t = none) {p : Text}
    (hp : IsPlaceholder p) : ¬ p <+: c :: t := by
  rintro ⟨rest, hrest⟩
  obtain ⟨inner, rfl, -⟩ := hp.exists_inner
  obtain ⟨rfl, -⟩ := List.cons.inj hrest
  have hopened := opened?_eq_some_iff.2 ⟨hp, hrest.symm⟩
  rw [h rfl] at hopened
  cases hopened

/-- One more character before a text counts for nothing if no placeholder stands there. -/
theorem LeftToRight.cons {c : Char} (hc : ∀ p, IsPlaceholder p → ¬ p <+: c :: t)
    (h : LeftToRight t ps) : LeftToRight (c :: t) ps := by
  cases h with
  | none absent =>
    refine .none fun p hp hi => ?_
    exact (List.infix_cons_iff.1 hi).elim (hc p hp) (absent p hp)
  | @next gap p rest ps here leftmost others =>
    refine .next (c :: gap) here (fun before q after hq he => ?_) others
    cases before with
    | nil => exact absurd ⟨after, he.symm⟩ (hc q hq)
    | cons d before => exact Nat.succ_le_succ (leftmost before q after hq (List.cons.inj he).2)

theorem leftToRight_find (t : Text) : LeftToRight t (find t) := by
  induction t using scan_induction with
  | nil =>
    rw [find_nil]
    exact .none fun p hp hi => hp.ne_nil (List.infix_nil.1 hi)
  | placeholder p rest hp ih =>
    rw [find_of_isPlaceholder hp]
    exact .next [] hp (fun before _ _ _ _ => Nat.zero_le before.length) ih
  | plain c t ho ih =>
    rw [find_of_not_opened ho]
    exact ih.cons fun p => not_prefix_of_not_opened ho

theorem LeftToRight.unique (h : LeftToRight t ps) (h' : LeftToRight t ps') : ps = ps' := by
  induction h generalizing ps' with
  | @none t absent =>
    cases h' with
    | none => rfl
    | @next gap p rest _ here => exact absurd ⟨gap, rest, List.append_assoc ..⟩ (absent p here)
  | @next gap p rest ps here leftmost others ih =>
    generalize ht : gap ++ (p ++ rest) = t at h'
    cases h' with
    | none absent => exact absurd ⟨gap, rest, (List.append_assoc ..).trans ht⟩ (absent p here)
    | @next gap' p' rest' ps' here' leftmost' others' =>
      -- neither stands to the left of the other, and at one place stands only one
      have hlength : gap.length = gap'.length :=
        Nat.le_antisymm (leftmost gap' p' rest' here' ht) (leftmost' gap p rest here ht.symm)
      obtain ⟨rfl, hrest⟩ := List.append_inj ht hlength
      obtain rfl : p = p' :=
        here.eq_of_prefixes here' ⟨rest, rfl⟩ ⟨rest', hrest.symm⟩
      obtain rfl := List.append_cancel_left hrest
      rw [ih others']

/-- The scanner finds the placeholders from left to right. -/
theorem find_eq_iff : find t = ps ↔ LeftToRight t ps := by
  constructor
  · rintro rfl
    exact leftToRight_find t
  · exact (leftToRight_find t).unique

/-- A sign that closes a placeholder opens none, but the sign after it does. -/
example : find "@A@B@@C@".toList = ["@A@".toList, "@C@".toList] := by decide +kernel

end Occurrences

section Shares

variable {pairs : Pairs} {t : Text}

/-- The placeholders that have a value, each where it occurs first. -/
theorem keys_replacements (pairs : Pairs) (t : Text) :
    (resolve pairs t).replacements.keys =
      (find t).eraseDups.filter fun p => (value? pairs p).isSome := by
  have hkeys : ∀ ps : List Text,
      (ps.filterMap fun p => (value? pairs p).map (p, ·)).map Prod.fst =
        ps.filter fun p => (value? pairs p).isSome := by
    intro ps
    induction ps with
    | nil => rfl
    | cons p ps ih => cases hv : value? pairs p <;> simp [hv, ih]
  rw [resolve, OrderedMap.keys_ofList, hkeys, filter_eraseDups]

theorem mem_keys_replacements {p : Text} :
    p ∈ (resolve pairs t).replacements.keys ↔ p ∈ find t ∧ value? pairs p ≠ none := by
  rw [keys_replacements, List.mem_filter, List.mem_eraseDups, Option.isSome_iff_ne_none]

theorem pairwise_keys_replacements (pairs : Pairs) (t : Text) :
    (resolve pairs t).replacements.keys.Pairwise fun p q =>
      (find t).idxOf p < (find t).idxOf q := by
  rw [keys_replacements]
  exact (pairwise_idxOf_eraseDups (find t)).filter _

end Shares

/-- A text has the placeholders that stand in it from left to right. Resolving them gives a map and a
list that have none in common and together all of them: the map has those whose upper-cased spelling
has a value, under that value and in the order in which they occur first, and the list has the others
in strictly ascending order. -/
theorem resolve_shares_found (pairs : Pairs) (t : Text) :
    (∀ ps, find t = ps ↔ LeftToRight t ps) ∧
      (∀ p, p ∈ find t ↔
        p ∈ (resolve pairs t).replacements.keys ∨ p ∈ (resolve pairs t).unknown) ∧
      (resolve pairs t).replacements.keys.Disjoint (resolve pairs t).unknown ∧
      (∀ p v, (resolve pairs t).replacements.get? p = some v ↔
        p ∈ find t ∧ pairs.get? p.upper = some (some v)) ∧
      ((resolve pairs t).replacements.keys.Pairwise fun p q =>
        (find t).idxOf p < (find t).idxOf q) ∧
      (resolve pairs t).unknown.Pairwise (· < ·) := by
  refine ⟨fun ps => find_eq_iff, fun p => ?_, fun {p} hk hu => ?_, fun p v => ?_,
    pairwise_keys_replacements pairs t, Text.pairwise_sortedSet _⟩
  · rw [mem_keys_replacements, mem_unknown, ← and_or_left, and_iff_left (ne_or_eq _ _)]
  · exact (mem_keys_replacements.1 hk).2 (mem_unknown.1 hu).2
  · rw [get?_replacements, ← value?_eq_some_iff]
    by_cases hp : p ∈ find t <;> simp [hp]

end StoredRoutine.Placeholder
