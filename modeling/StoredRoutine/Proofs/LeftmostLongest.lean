import Mathlib
import StoredRoutine.Placeholder
import StoredRoutine.Proofs.OrderedMap

/-!
What substitution makes of a text, in rules that know nothing of an index or of text that waits to
be copied: the longest token that starts a text gives its value, and a character at which no token
starts is kept. The rules leave no choice, so they settle the result.
-/
namespace StoredRoutine.Placeholder

/-- A text and what becomes of it when each token is replaced by its value, from left to right and
the longest first. -/
inductive Replaced (m : OrderedMap Text Text) : Text → Text → Prop where
  | nil : Replaced m [] []
  | token {k v t r : Text} (value : m.get? k = some v) (ne_nil : k ≠ [])
    (longest : ∀ k' ∈ m.keys, k' <+: k ++ t → k'.length ≤ k.length) (rest : Replaced m t r) :
    Replaced m (k ++ t) (v ++ r)
  | plain {c : Char} {t r : Text} (none : ∀ k ∈ m.keys, k ≠ [] → ¬ k <+: c :: t)
    (rest : Replaced m t r) : Replaced m (c :: t) (c :: r)

section Rules

variable {m m' : OrderedMap Text Text} {t r r' : Text}

/-- Only what the tokens stand for counts, not their order, and the empty token not at all. -/
theorem Replaced.congr (h : ∀ k, k ≠ [] → m'.get? k = m.get? k) (hr : Replaced m t r) :
    Replaced m' t r := by
  have hkeys : ∀ k, k ≠ [] → k ∈ m'.keys → k ∈ m.keys := by
    intro k hk hm
    obtain ⟨v, hv⟩ := OrderedMap.mem_keys_iff.1 hm
    exact OrderedMap.mem_keys_iff.2 ⟨v, (h k hk).symm.trans hv⟩
  induction hr with
  | nil => exact .nil
  | @token k v t r value ne_nil longest rest ih =>
    refine .token ((h k ne_nil).trans value) ne_nil (fun k' hm hp => ?_) ih
    by_cases hk : k' = []
    · rw [hk]
      exact Nat.zero_le _
    · exact longest k' (hkeys k' hk hm) hp
  | plain none rest ih => exact .plain (fun k hm hk => none k (hkeys k hk hm) hk) ih

/-- Where a token starts a text, no rule keeps the first character. -/
theorem Replaced.of_token {k v s : Text} (value : m.get? k = some v) (ne_nil : k ≠ [])
    (longest : ∀ k' ∈ m.keys, k' <+: k ++ s → k'.length ≤ k.length)
    (hr : Replaced m (k ++ s) r) : ∃ r', r = v ++ r' ∧ Replaced m s r' := by
  have hmem : k ∈ m.keys := OrderedMap.mem_keys_iff.2 ⟨v, value⟩
  generalize ht : k ++ s = t at hr
  cases hr with
  | nil => exact absurd (List.append_eq_nil_iff.1 ht).1 ne_nil
  | @token k' v' t r value' ne_nil' longest' rest =>
    -- both tokens start the text, and neither is longer than the other
    have hle := longest' k hmem (ht ▸ List.prefix_append k s)
    have hge := longest k' (OrderedMap.mem_keys_iff.2 ⟨v', value'⟩)
      (ht ▸ List.prefix_append k' t)
    obtain ⟨rfl, rfl⟩ := List.append_inj ht (Nat.le_antisymm hle hge)
    obtain rfl : v = v' := Option.some.inj (value.symm.trans value')
    exact ⟨r, rfl, rest⟩
  | plain none rest => exact absurd (ht ▸ List.prefix_append k s) (none k hmem ne_nil)

theorem Replaced.unique (hr : Replaced m t r) (hr' : Replaced m t r') : r = r' := by
  induction hr generalizing r' with
  | nil =>
    generalize ht : ([] : Text) = t at hr'
    cases hr' with
    | nil => rfl
    | token _ ne_nil => exact absurd (List.append_eq_nil_iff.1 ht.symm).1 ne_nil
    | plain => cases ht
  | token value ne_nil longest rest ih =>
    obtain ⟨r'', rfl, hr''⟩ := Replaced.of_token value ne_nil longest hr'
    rw [ih hr'']
  | @plain c t r none rest ih =>
    generalize ht : c :: t = s at hr'
    cases hr' with
    | nil => cases ht
    | @token k v s r value ne_nil longest rest =>
      exact absurd (ht ▸ List.prefix_append k s)
        (none k (OrderedMap.mem_keys_iff.2 ⟨v, value⟩) ne_nil)
    | plain none' rest' =>
      obtain ⟨rfl, rfl⟩ := List.cons.inj ht
      rw [ih rest']

/-- A text in which no token stands is kept. -/
theorem replaced_self (h : ∀ k ∈ m.keys, k ≠ [] → ¬ k <:+: t) : Replaced m t t := by
  induction t with
  | nil => exact .nil
  | cons c t ih =>
    refine .plain (fun k hm hk hp => h k hm hk hp.isInfix) (ih fun k hm hk hi => ?_)
    exact h k hm hk (hi.trans (List.suffix_cons c t).isInfix)

/-- Values that hold a character as often as their tokens leave its number as it is. -/
theorem Replaced.count_eq {c : Char} (h : ∀ k v, m.get? k = some v → v.count c = k.count c)
    (hr : Replaced m t r) : r.count c = t.count c := by
  induction hr with
  | nil => rfl
  | token value ne_nil longest rest ih =>
    rw [List.count_append, List.count_append, h _ _ value, ih]
  | plain none rest ih => rw [List.count_cons, List.count_cons, ih]

end Rules

section Tokens

variable {tokens : List (Text × Text)}

theorem exists_token_of_replaced? {t v r : Text} (h : replaced? tokens t = some (v, r)) :
    ∃ e ∈ tokens, e.1 ≠ [] ∧ e.2 = v ∧ t = e.1 ++ r := by
  obtain ⟨e, he, h⟩ := List.exists_of_findSome?_eq_some h
  split at h
  · simp at h
  · next hne =>
    obtain ⟨r', hr, hv⟩ := Option.map_eq_some_iff.1 h
    obtain ⟨rfl, rfl⟩ := Prod.mk.inj hv
    exact ⟨e, he, by simpa using hne, rfl, Text.after?_eq_some_iff.1 hr⟩

theorem not_prefix_of_not_replaced {t : Text} (h : replaced? tokens t = none) {e : Text × Text}
    (he : e ∈ tokens) (hne : e.1 ≠ []) : ¬ e.1 <+: t := by
  rintro ⟨r, hr⟩
  rw [replaced?, List.findSome?_eq_none_iff] at h
  have hn := h e he
  rw [if_neg (by simpa using hne), Option.map_eq_none_iff,
    Text.after?_eq_some_iff.2 hr.symm] at hn
  simp at hn

end Tokens

/-- Tokens to try at a text, the longer ones first: they are tokens of a map, and all of them that
start the text. -/
structure Candidates (m : OrderedMap Text Text) (tokens : List (Text × Text)) (t : Text) : Prop where
  sorted : tokens.Pairwise fun a b => b.1.length ≤ a.1.length
  value : ∀ e ∈ tokens, m.get? e.1 = some e.2
  complete : ∀ k v, m.get? k = some v → k ≠ [] → k <+: t → (k, v) ∈ tokens

section Candidates

variable {m : OrderedMap Text Text} {tokens : List (Text × Text)} {t v r : Text}

/-- The first of them that starts the text is the longest that does. -/
theorem Candidates.of_replaced (h : Candidates m tokens t) (hr : replaced? tokens t = some (v, r)) :
    ∃ k, m.get? k = some v ∧ k ≠ [] ∧ t = k ++ r ∧
      ∀ k' ∈ m.keys, k' <+: t → k'.length ≤ k.length := by
  obtain ⟨before, ⟨k, w⟩, after, rfl, hk, hbefore⟩ := List.findSome?_eq_some_iff.1 hr
  split at hk
  · cases hk
  · next hne =>
    have hne : k ≠ [] := by simpa using hne
    obtain ⟨r', hr', he⟩ := Option.map_eq_some_iff.1 hk
    obtain ⟨rfl, rfl⟩ := Prod.mk.inj he
    refine ⟨k, h.value (k, w) (by simp), hne, Text.after?_eq_some_iff.1 hr', fun k' hm hp => ?_⟩
    by_cases hk' : k' = []
    · rw [hk']
      exact Nat.zero_le _
    obtain ⟨v', hv'⟩ := OrderedMap.mem_keys_iff.1 hm
    rcases List.mem_append.1 (h.complete k' v' hv' hk' hp) with hm | hm
    · -- it would have been found earlier
      obtain ⟨s, rfl⟩ := hp
      have hnone := hbefore _ hm
      rw [if_neg (by simpa using hk'), Text.after?_eq_some_iff.2 rfl] at hnone
      cases hnone
    · rcases List.mem_cons.1 hm with he | hm
      · rw [(Prod.mk.inj he).1]
      · have hsorted := (List.pairwise_append.1 h.sorted).2.1
        exact List.rel_of_pairwise_cons hsorted hm

theorem Candidates.of_not_replaced (h : Candidates m tokens t) (hr : replaced? tokens t = none) :
    ∀ k ∈ m.keys, k ≠ [] → ¬ k <+: t := by
  intro k hm hk hp
  obtain ⟨v, hv⟩ := OrderedMap.mem_keys_iff.1 hm
  exact not_prefix_of_not_replaced hr (h.complete k v hv hk hp) hk hp

theorem mem_longestFirst {e : Text × Text} : e ∈ longestFirst tokens ↔ e ∈ tokens :=
  List.mem_mergeSort

theorem pairwise_longestFirst (tokens : List (Text × Text)) :
    (longestFirst tokens).Pairwise fun a b => b.1.length ≤ a.1.length := by
  have htrans : ∀ a b c : Text × Text, decide (b.1.length ≤ a.1.length) = true →
      decide (c.1.length ≤ b.1.length) = true → decide (c.1.length ≤ a.1.length) = true := by
    simp only [decide_eq_true_eq]
    intros
    omega
  have htotal : ∀ a b : Text × Text,
      (decide (b.1.length ≤ a.1.length) || decide (a.1.length ≤ b.1.length)) = true := by
    intro a b
    simp only [Bool.or_eq_true, decide_eq_true_eq]
    omega
  exact (List.pairwise_mergeSort htrans htotal tokens).imp of_decide_eq_true

/-- All tokens of a map can be tried anywhere. -/
theorem candidates_longestFirst (m : OrderedMap Text Text) (t : Text) :
    Candidates m (longestFirst m.entries) t where
  sorted := pairwise_longestFirst _
  value _ he := OrderedMap.get?_eq_some_iff.2 (mem_longestFirst.1 he)
  complete _ _ hv _ _ := mem_longestFirst.2 (OrderedMap.get?_eq_some_iff.1 hv)

end Candidates

section Index

theorem startingWith_add (index : Index) (e : Text × Text) (c : Char) :
    (index.add e).startingWith c =
      index.startingWith c ++ [e].filter fun e => e.1.head? == some c := by
  obtain ⟨k, v⟩ := e
  cases k with
  | nil => simp [Index.add]
  | cons d k =>
    by_cases h : c = d
    · simp [Index.add, Index.startingWith, h]
    · simp [Index.add, Index.startingWith, h, Ne.symm h]

theorem startingWith_foldl_add (index : Index) (tokens : List (Text × Text)) (c : Char) :
    (tokens.foldl Index.add index).startingWith c =
      index.startingWith c ++ tokens.filter fun e => e.1.head? == some c := by
  induction tokens generalizing index with
  | nil => simp
  | cons e tokens ih =>
    rw [List.foldl_cons, ih, startingWith_add, List.append_assoc, ← List.filter_append]
    rfl

/-- An index has, under a character, the tokens that start with it. -/
theorem startingWith_ofTokens (tokens : List (Text × Text)) (c : Char) :
    (Index.ofTokens tokens).startingWith c =
      longestFirst (tokens.filter fun e => e.1.head? == some c) := by
  have hadd := startingWith_foldl_add ∅ tokens c
  simp only [Index.startingWith, OrderedMap.get?_empty, Option.getD_none, List.nil_append] at hadd
  rw [Index.startingWith, Index.ofTokens, OrderedMap.get?_mapValues, ← hadd]
  cases (tokens.foldl Index.add ∅).get? c <;> simp [longestFirst]

theorem candidates_startingWith (m : OrderedMap Text Text) (c : Char) (t : Text) :
    Candidates m ((Index.ofTokens m.entries).startingWith c) (c :: t) := by
  rw [startingWith_ofTokens]
  refine ⟨pairwise_longestFirst _, fun e he => ?_, fun k v hv hk hp => ?_⟩
  · exact OrderedMap.get?_eq_some_iff.2 (List.mem_of_mem_filter (mem_longestFirst.1 he))
  · obtain ⟨d, k, rfl⟩ := List.exists_cons_of_ne_nil hk
    obtain ⟨rfl, -⟩ := List.cons_prefix_cons.1 hp
    exact mem_longestFirst.2 (List.mem_filter.2 ⟨OrderedMap.get?_eq_some_iff.1 hv, by simp⟩)

end Index

section Pass

variable {m : OrderedMap Text Text}

/-- One step for the rules: with the tokens to try, a text is taken as they say. -/
theorem replaced_cons {tokens : List (Text × Text)} {c : Char} {t r : Text}
    (h : Candidates m tokens (c :: t)) :
    (∀ v rest, replaced? tokens (c :: t) = some (v, rest) → Replaced m rest r →
      Replaced m (c :: t) (v ++ r)) ∧
    (replaced? tokens (c :: t) = none → Replaced m t r → Replaced m (c :: t) (c :: r)) := by
  constructor
  · intro v rest hr hrest
    obtain ⟨k, hv, hk, ht, hlongest⟩ := h.of_replaced hr
    rw [ht] at hlongest ⊢
    exact .token hv hk hlongest hrest
  · intro hr hrest
    exact .plain (h.of_not_replaced hr) hrest

/-- A pass puts out the parts it was given, the characters passed before, and what the rules make of
the text. -/
theorem flatten_pass (parts : Array Text) (passed t : Text) :
    ∃ r, Replaced m t r ∧
      (pass (.ofTokens m.entries) parts passed t).toList.flatten =
        parts.toList.flatten ++ passed.reverse ++ r := by
  fun_induction pass (.ofTokens m.entries) parts passed t with
  | case1 parts passed => exact ⟨[], .nil, by simp⟩
  | case2 parts passed c t value rest h ih =>
    obtain ⟨r, hr, hpass⟩ := ih
    refine ⟨value ++ r, (replaced_cons (candidates_startingWith m c t)).1 value rest h hr, ?_⟩
    simpa using hpass
  | case3 parts passed c t h ih =>
    obtain ⟨r, hr, hpass⟩ := ih
    refine ⟨c :: r, (replaced_cons (candidates_startingWith m c t)).2 h hr, ?_⟩
    rw [hpass]
    simp

theorem replaced_substitute (m : OrderedMap Text Text) (t : Text) :
    Replaced m t (substitute m t) := by
  rw [substitute]
  split
  · next h =>
    rcases Bool.or_eq_true_iff.1 h with h | h
    · refine replaced_self fun k hk => ?_
      rw [OrderedMap.keys, List.isEmpty_iff.1 h] at hk
      cases hk
    · rw [List.isEmpty_iff.1 h]
      exact .nil
  · obtain ⟨r, hr, hpass⟩ := flatten_pass (m := m) #[] [] t
    rw [hpass]
    exact hr

theorem substitute_eq_iff {t r : Text} : substitute m t = r ↔ Replaced m t r := by
  constructor
  · rintro rfl
    exact replaced_substitute m t
  · exact (replaced_substitute m t).unique

@[simp] theorem substitute_nil (m : OrderedMap Text Text) : substitute m [] = [] :=
  substitute_eq_iff.2 .nil

theorem substitute_token {k v : Text} (value : m.get? k = some v) (ne_nil : k ≠ []) {t : Text}
    (longest : ∀ k' ∈ m.keys, k' <+: k ++ t → k'.length ≤ k.length) :
    substitute m (k ++ t) = v ++ substitute m t :=
  substitute_eq_iff.2 (.token value ne_nil longest (replaced_substitute m t))

theorem substitute_plain {c : Char} {t : Text} (none : ∀ k ∈ m.keys, k ≠ [] → ¬ k <+: c :: t) :
    substitute m (c :: t) = c :: substitute m t :=
  substitute_eq_iff.2 (.plain none (replaced_substitute m t))

end Pass

/-- Substitution gives what the rules make of a text, for every text and every map: where a token
starts, the longest one gives its value and the text goes on after it; any other character is kept.
So a text in which no token stands is left as it is, and neither the order in which the tokens were
given nor an empty token counts. -/
theorem substitute_leftmost_longest (m : OrderedMap Text Text) (t : Text) :
    (∀ r, substitute m t = r ↔ Replaced m t r) ∧
      ((∀ k ∈ m.keys, k ≠ [] → ¬ k <:+: t) → substitute m t = t) ∧
      ∀ m' : OrderedMap Text Text, (∀ k, k ≠ [] → m'.get? k = m.get? k) →
        substitute m' t = substitute m t := by
  refine ⟨fun r => substitute_eq_iff, fun h => ?_, fun m' h => ?_⟩
  · exact substitute_eq_iff.2 (replaced_self h)
  · exact substitute_eq_iff.2 ((replaced_substitute m t).congr h)

section Sample

/-- Two tokens of which one begins the other. -/
def lineTokens : OrderedMap Text Text :=
  .ofList [("__LINE".toList, "short".toList), ("__LINE__".toList, "42".toList)]

/-- The same tokens given in another order, and an empty one. -/
def lineTokensAgain : OrderedMap Text Text :=
  .ofList [("__LINE__".toList, "42".toList), ([], "nothing".toList),
    ("__LINE".toList, "short".toList)]

theorem get?_lineTokensAgain (k : Text) (hk : k ≠ []) :
    lineTokensAgain.get? k = lineTokens.get? k := by
  have hne : "__LINE".toList ≠ "__LINE__".toList := by decide
  simp only [lineTokens, lineTokensAgain, OrderedMap.ofList, OrderedMap.insertMany, List.foldl_cons,
    List.foldl_nil, OrderedMap.get?_insert, OrderedMap.get?_empty, hk, if_false]
  by_cases h : k = "__LINE".toList
  · rw [if_pos h, if_neg (h ▸ hne), if_pos h]
  · rw [if_neg h, if_neg h]

/-- The longer token counts, in whatever order the two are given; a text without them stays. -/
theorem substitute_longer_of_two :
    (∀ k, k ≠ [] → lineTokensAgain.get? k = lineTokens.get? k) ∧
      substitute lineTokensAgain "x = __LINE__".toList = "x = 42".toList ∧
      (∀ k ∈ lineTokens.keys, k ≠ [] → ¬ k <:+: "x = LINE".toList) ∧
      substitute lineTokens "x = LINE".toList = "x = LINE".toList := by
  have habsent : ∀ k ∈ lineTokens.keys, k ≠ [] → ¬ k <:+: "x = LINE".toList := by decide +kernel
  refine ⟨get?_lineTokensAgain, ?_, habsent, ?_⟩
  · rw [(substitute_leftmost_longest lineTokens _).2.2 lineTokensAgain get?_lineTokensAgain]
    cbv
  · exact (substitute_leftmost_longest lineTokens _).2.1 habsent

end Sample

/-- One pass over a text that tries the tokens in the given order at each place. -/
def replaceIn (tokens : List (Text × Text)) : Text → Text
  | [] => []
  | c :: t =>
    match _h : replaced? tokens (c :: t) with
    | some (value, rest) => value ++ replaceIn tokens rest
    | none => c :: replaceIn tokens t
termination_by t => t.length
decreasing_by
  · exact length_of_replaced? _h
  · simp

theorem replaced_replaceIn (m : OrderedMap Text Text) (t : Text) :
    Replaced m t (replaceIn (longestFirst m.entries) t) := by
  fun_induction replaceIn (longestFirst m.entries) t with
  | case1 => exact .nil
  | case2 c t value rest h ih =>
    exact (replaced_cons (candidates_longestFirst m _)).1 value rest h ih
  | case3 c t h ih => exact (replaced_cons (candidates_longestFirst m _)).2 h ih

/-- Without an index, all tokens are tried at each place. -/
theorem substitute_eq_replaceIn (m : OrderedMap Text Text) (t : Text) :
    substitute m t = replaceIn (longestFirst m.entries) t :=
  substitute_eq_iff.2 (replaced_replaceIn m t)

end StoredRoutine.Placeholder
