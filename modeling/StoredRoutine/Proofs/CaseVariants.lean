import StoredRoutine.Proofs.Resolution
import StoredRoutine.Proofs.Substitution

/-!
Placeholders in another case. The letters of a name may change case: the scanner finds the variant
where the placeholder stood and nowhere else, and it has the same value. The letters of the suffix
for a type may not, for the scanner knows that suffix in lower case only.
-/
namespace StoredRoutine

/-- Texts that differ in the case of ASCII letters at most. -/
def Text.SameLetters (s t : Text) : Prop := s.map Char.toLower = t.map Char.toLower

instance (s t : Text) : Decidable (s.SameLetters t) :=
  inferInstanceAs (Decidable (s.map Char.toLower = t.map Char.toLower))

section Letters

/-- What holds of every capital and its small letter, and of a character and itself, holds of a
character and that character in lower case. -/
theorem forall_toLower {P : Char → Char → Prop}
    (hcapital : ∀ n ∈ List.range' 'A'.toNat 26, P (Char.ofNat n) (Char.ofNat (n + 32)))
    (hrefl : ∀ c, P c c) (c : Char) : P c c.toLower := by
  by_cases h : c.isUpper = true
  · have hc : 'A'.toNat ≤ c.toNat ∧ c.toNat < 'A'.toNat + 26 := by
      simp [Char.isUpper, UInt32.le_iff_toNat_le] at h ⊢
      omega
    have hletter := hcapital c.toNat (List.mem_range'_1.2 hc)
    rwa [Char.ofNat_toNat, ← Char.toLower_eq_of_isUpper h] at hletter
  · rw [Char.toLower_eq_of_not_isUpper h]
    exact hrefl c

theorem upperChar_toLower (c : Char) : Text.upperChar c.toLower = Text.upperChar c :=
  forall_toLower (P := fun c d => Text.upperChar d = Text.upperChar c) (by decide +kernel)
    (fun _ => rfl) c

theorem toLower_eq_at_iff {c : Char} : c.toLower = '@' ↔ c = '@' :=
  forall_toLower (P := fun c d => d = '@' ↔ c = '@') (by decide +kernel) (fun _ => Iff.rfl) c

theorem toLower_eq_percent_iff {c : Char} : c.toLower = '%' ↔ c = '%' :=
  forall_toLower (P := fun c d => d = '%' ↔ c = '%') (by decide +kernel) (fun _ => Iff.rfl) c

theorem Text.SameLetters.upper_eq {s t : Text} (h : SameLetters s t) : s.upper = t.upper := by
  have hfold : ∀ u : Text, upper u = upper (u.map Char.toLower) := fun u => by
    simp only [upper, List.flatMap_map, upperChar_toLower]
  rw [hfold s, h, ← hfold t]

theorem Text.SameLetters.mem_percent_iff {s t : Text} (h : SameLetters s t) :
    '%' ∈ s ↔ '%' ∈ t := by
  have hfold : ∀ u : Text, '%' ∈ u ↔ '%' ∈ u.map Char.toLower := fun u => by
    simp [toLower_eq_percent_iff]
  rw [hfold s, h, ← hfold t]

end Letters

namespace Placeholder

open Text (SameLetters)

theorem isNameChar_toLower (c : Char) : isNameChar c.toLower = isNameChar c :=
  forall_toLower (P := fun c d => isNameChar d = isNameChar c) (by decide +kernel) (fun _ => rfl) c

/-- The suffix for a type stays as it is, if there is one. -/
def KeepsSuffix (p q : Text) : Prop :=
  typeSuffix ++ ['@'] <:+ p → typeSuffix ++ ['@'] <:+ q

section Variant

variable {p q : Text}

/-- A placeholder with a percent sign in it is one for a type. -/
theorem IsPlaceholder.suffix_iff (h : IsPlaceholder p) :
    typeSuffix ++ ['@'] <:+ p ↔ '%' ∈ p := by
  constructor
  · rintro ⟨u, rfl⟩
    simp [typeSuffix]
  · obtain ⟨name, suffix, -, hn, hs, rfl⟩ := h
    intro hm
    have hname : '%' ∉ name := fun hm => absurd (hn _ hm) (by decide)
    rcases hs with rfl | rfl
    · simp [hname] at hm
    · exact ⟨'@' :: name, by simp⟩

/-- A variant of a placeholder has a name with the same letters, and what is left of the suffix. -/
theorem exists_variant {name suffix : Text}
    (h : SameLetters ('@' :: (name ++ (suffix ++ ['@']))) q) :
    ∃ name' suffix', SameLetters name name' ∧ SameLetters suffix suffix' ∧
      q = '@' :: (name' ++ (suffix' ++ ['@'])) := by
  rw [SameLetters, List.map_cons, List.map_append, List.map_append, eq_comm,
    List.map_eq_cons_iff] at h
  obtain ⟨a, q, rfl, ha, h⟩ := h
  obtain ⟨name', q, rfl, hname, h⟩ := List.map_eq_append_iff.1 h
  obtain ⟨suffix', b, rfl, hsuffix, hb⟩ := List.map_eq_append_iff.1 h
  obtain ⟨b, rfl⟩ := List.length_eq_one_iff.1 (by simpa using congrArg List.length hb)
  obtain rfl := toLower_eq_at_iff.1 ha
  obtain rfl := toLower_eq_at_iff.1 (List.cons.inj hb).1
  exact ⟨name', suffix', hname.symm, hsuffix.symm, rfl⟩

/-- A variant of a placeholder is one exactly if it keeps the suffix for a type. -/
theorem isPlaceholder_variant_iff (hp : IsPlaceholder p) (h : SameLetters p q) :
    IsPlaceholder q ↔ KeepsSuffix p q := by
  constructor
  · intro hq hs
    rw [hq.suffix_iff, ← h.mem_percent_iff]
    exact hp.suffix_iff.1 hs
  · intro hk
    obtain ⟨name, suffix, hne, hn, hs, rfl⟩ := hp
    obtain ⟨name', suffix', hname, hsuffix, rfl⟩ := exists_variant h
    have hne' : name' ≠ [] := by
      rintro rfl
      exact hne (List.map_eq_nil_iff.1 hname)
    have hn' : ∀ c ∈ name', isNameChar c = true := by
      intro c hc
      have hm : c.toLower ∈ name.map Char.toLower := hname ▸ List.mem_map_of_mem hc
      obtain ⟨d, hd, hcd⟩ := List.mem_map.1 hm
      rw [← isNameChar_toLower, ← hcd, isNameChar_toLower]
      exact hn d hd
    have hlength : suffix.length = suffix'.length := by
      simpa using congrArg List.length hsuffix
    refine ⟨name', suffix', hne', hn', ?_, rfl⟩
    rcases hs with rfl | rfl
    · exact .inl (List.length_eq_zero_iff.1 hlength.symm)
    · refine .inr ?_
      obtain ⟨u, hu⟩ := hk ⟨'@' :: name, by simp⟩
      have hcut : u ++ (typeSuffix ++ ['@']) = ('@' :: name') ++ (suffix' ++ ['@']) := hu
      have htail := List.append_inj_right' hcut (by simp [hlength])
      exact (List.append_cancel_right htail).symm

end Variant

section Pieces

/-- Whether a placeholder opens is settled by the text up to the next at sign. -/
theorem opened?_append_at (s u : Text) :
    opened? (s ++ '@' :: u) = (opened? (s ++ ['@'])).map fun (p, rest) => (p, rest ++ u) := by
  cases ho : opened? (s ++ ['@']) with
  | some pr =>
    obtain ⟨p, rest⟩ := pr
    obtain ⟨hp, ht⟩ := opened?_eq_some_iff.1 ho
    refine opened?_eq_some_iff.2 ⟨hp, ?_⟩
    rw [← List.append_assoc, ← ht]
    simp
  | none =>
    rw [Option.map_none]
    refine Option.eq_none_iff_forall_ne_some.2 fun ⟨p, rest⟩ h => ?_
    obtain ⟨hp, ht⟩ := opened?_eq_some_iff.1 h
    obtain ⟨inner, rfl, hi⟩ := hp.exists_inner
    have ht : s ++ '@' :: u = inner ++ '@' :: rest := by simpa using ht
    -- the at sign that closes the placeholder is the one after the text or comes before it
    obtain ⟨v, hv⟩ : ∃ v, s ++ ['@'] = inner ++ ['@'] ++ v := by
      rcases List.append_eq_append_iff.1 ht with ⟨a, rfl, ha⟩ | ⟨a, rfl, ha⟩
      · cases a with
        | nil => exact ⟨[], by simp⟩
        | cons c a =>
          obtain ⟨rfl, -⟩ := List.cons.inj ha
          simp at hi
      · cases a with
        | nil => exact ⟨[], by simp⟩
        | cons c a =>
          obtain ⟨rfl, -⟩ := List.cons.inj ha
          exact ⟨a ++ ['@'], by simp⟩
    have hsome : opened? (s ++ ['@']) = some ('@' :: (inner ++ ['@']), v) :=
      opened?_eq_some_iff.2 ⟨hp, by rw [hv]; simp⟩
    rw [ho] at hsome
    cases hsome

/-- Another placeholder put in the place of one is found there, and all else is found where it was. -/
theorem pieces_replace {t p q : Text} {before after : List Piece}
    (h : pieces t = before ++ .placeholder p :: after) (hq : IsPlaceholder q) :
    pieces ((before ++ .placeholder q :: after).flatMap (·.text)) =
      before ++ .placeholder q :: after := by
  induction t using scan_induction generalizing before with
  | nil => simp [pieces] at h
  | placeholder p' rest hp' ih =>
    rw [pieces_of_isPlaceholder hp', List.cons_eq_append_iff] at h
    rcases h with ⟨rfl, hpieces⟩ | ⟨before, rfl, hrest⟩
    · obtain ⟨-, rfl⟩ := List.cons.inj hpieces
      rw [List.nil_append, List.flatMap_cons, flatMap_text_pieces]
      exact pieces_of_isPlaceholder hq rest
    · exact (pieces_of_isPlaceholder hp' _).trans (congrArg _ (ih hrest))
  | plain c t ho ih =>
    rw [pieces_of_not_opened ho, List.cons_eq_append_iff] at h
    rcases h with ⟨-, hpieces⟩ | ⟨before, rfl, hrest⟩
    · cases (List.cons.inj hpieces).1
    have hkept : c = '@' →
        opened? ((before ++ .placeholder q :: after).flatMap (·.text)) = none := by
      intro hc
      -- both texts go on alike up to the at sign that opens the placeholder in question
      obtain ⟨inner, rfl, -⟩ := (isPlaceholder_of_mem_find (t := t) (p := p)
        (by rw [find, hrest]; simp [Piece.placeholder?])).exists_inner
      obtain ⟨inner', rfl, -⟩ := hq.exists_inner
      have htext : ∀ inner : Text,
          (before ++ .placeholder ('@' :: (inner ++ ['@'])) :: after).flatMap (·.text) =
            before.flatMap (·.text) ++ '@' :: (inner ++ ['@'] ++ after.flatMap (·.text)) :=
        fun inner => by rw [List.flatMap_append, List.flatMap_cons]; rfl
      have hold := ho hc
      rw [← flatMap_text_pieces t, hrest, htext, opened?_append_at, Option.map_eq_none_iff] at hold
      rw [htext, opened?_append_at, Option.map_eq_none_iff]
      exact hold
    exact (pieces_of_not_opened hkept).trans (congrArg _ (ih hrest))

end Pieces

section Values

variable {pairs : Pairs} {t : Text}

/-- A piece with its value in the place of a placeholder. -/
def Piece.filled (pairs : Pairs) : Piece → Text
  | .plain c => [c]
  | .placeholder p => (value? pairs p).getD []

theorem substitute_eq_flatMap {m : OrderedMap Text Text} (hm : ∀ k ∈ m.keys, IsPlaceholder k)
    (hv : ∀ p ∈ find t, m.get? p = some ((value? pairs p).getD [])) :
    substitute m t = (pieces t).flatMap (·.filled pairs) := by
  induction t using scan_induction with
  | nil =>
    rw [pieces]
    exact substitute_nil m
  | placeholder p rest hp ih =>
    rw [find_of_isPlaceholder hp, List.forall_mem_cons] at hv
    rw [substitute_placeholder hm hv.1, ih hv.2, pieces_of_isPlaceholder hp, List.flatMap_cons]
    rfl
  | plain c t ho ih =>
    rw [find_of_not_opened ho] at hv
    rw [substitute_of_not_opened hm ho, ih hv, pieces_of_not_opened ho, List.flatMap_cons]
    rfl

/-- With all placeholders resolved, each gives its value and all else is kept. -/
theorem substitute_replacements (h : (resolve pairs t).unknown = []) :
    substitute (resolve pairs t).replacements t = (pieces t).flatMap (·.filled pairs) := by
  refine substitute_eq_flatMap (fun k hk => ?_) fun p hp => ?_
  · obtain ⟨v, hv⟩ := OrderedMap.mem_keys_iff.1 hk
    rw [get?_replacements] at hv
    split at hv
    · next hf => exact isPlaceholder_of_mem_find hf
    · cases hv
  · obtain ⟨v, hv⟩ := unknown_eq_nil_iff.1 h p hp
    rw [get?_replacements, if_pos hp, value?_eq_some_iff.2 hv, Option.getD_some]

theorem value?_of_sameLetters {p q : Text} (h : SameLetters p q) :
    value? pairs p = value? pairs q := by
  rw [value?, value?, h.upper_eq]

end Values

/-- In a text whose placeholders are all resolved, put a variant of one of them in its place: the
variant is found there, nothing is unknown and the text comes out as before exactly if the variant
keeps the suffix for a type. -/
theorem replace_by_variant_iff {pairs : Pairs} {t p q : Text} {before after : List Piece}
    (ht : pieces t = before ++ .placeholder p :: after) (hr : (resolve pairs t).unknown = [])
    (hq : SameLetters p q) {t' : Text}
    (ht' : t' = before.flatMap (·.text) ++ q ++ after.flatMap (·.text)) :
    (pieces t' = before ++ .placeholder q :: after ∧ (resolve pairs t').unknown = [] ∧
      substitute (resolve pairs t').replacements t' = substitute (resolve pairs t).replacements t) ↔
      KeepsSuffix p q := by
  have hp : IsPlaceholder p := isPlaceholder_of_mem_find (t := t)
    (by rw [find, ht]; simp [Piece.placeholder?])
  rw [← isPlaceholder_variant_iff hp hq]
  constructor
  · rintro ⟨hpieces, -⟩
    exact isPlaceholder_of_mem_find (t := t') (by rw [find, hpieces]; simp [Piece.placeholder?])
  · intro hplaceholder
    have hpieces : pieces t' = before ++ .placeholder q :: after := by
      have htext : t' = (before ++ .placeholder q :: after).flatMap (·.text) := by
        rw [ht', List.flatMap_append, List.flatMap_cons, List.append_assoc]
        rfl
      rw [htext]
      exact pieces_replace ht hplaceholder
    have hunknown : (resolve pairs t').unknown = [] := by
      rw [unknown_eq_nil_iff] at hr ⊢
      intro p' hp'
      rw [find, hpieces, List.filterMap_append, List.mem_append] at hp'
      rw [find, ht, List.filterMap_append] at hr
      rcases hp' with hp' | hp'
      · exact hr p' (List.mem_append_left _ hp')
      · rcases List.mem_cons.1 hp' with rfl | hp'
        · rw [← hq.upper_eq]
          exact hr p (List.mem_append_right _ List.mem_cons_self)
        · exact hr p' (List.mem_append_right _ (List.mem_cons_of_mem _ hp'))
    refine ⟨hpieces, hunknown, ?_⟩
    rw [substitute_replacements hunknown, substitute_replacements hr, hpieces, ht]
    simp only [List.flatMap_append, List.flatMap_cons, Piece.filled, value?_of_sameLetters hq]

section Sample

/-- The type of a column under its placeholder. -/
def columnPairs : Pairs := .ofList [("@T.C%TYPE@".toList, some "TEXT".toList)]

/-- The letters of table and column may change case. -/
theorem replace_column_in_capitals :
    pieces "@t.c%type@;".toList = [] ++ .placeholder "@t.c%type@".toList :: [.plain ';'] ∧
      (resolve columnPairs "@t.c%type@;".toList).unknown = [] ∧
      SameLetters "@t.c%type@".toList "@T.C%type@".toList ∧
      find "@T.C%type@;".toList = ["@T.C%type@".toList] ∧
      substitute (resolve columnPairs "@T.C%type@;".toList).replacements "@T.C%type@;".toList =
        "TEXT;".toList := by
  have ht : pieces "@t.c%type@;".toList =
      [] ++ .placeholder "@t.c%type@".toList :: [.plain ';'] := by decide +kernel
  have hr : (resolve columnPairs "@t.c%type@;".toList).unknown = [] := by decide +kernel
  have hq : SameLetters "@t.c%type@".toList "@T.C%type@".toList := by decide +kernel
  have hk : KeepsSuffix "@t.c%type@".toList "@T.C%type@".toList := fun _ => by decide
  have ht' : "@T.C%type@;".toList = ([] : List Piece).flatMap (·.text) ++ "@T.C%type@".toList ++
      [Piece.plain ';'].flatMap (·.text) := by decide
  obtain ⟨hpieces, -, hsubstitute⟩ := (replace_by_variant_iff ht hr hq ht').2 hk
  refine ⟨ht, hr, hq, ?_, ?_⟩
  · rw [find, hpieces]
    rfl
  · rw [hsubstitute]
    decide +kernel

/-- With the suffix in capitals, as it stands in the key of the pair, nothing is found and nothing is
replaced. -/
theorem suffix_in_capitals_not_found :
    find "@t.c%type@".toList = ["@t.c%type@".toList] ∧
      (resolve columnPairs "@t.c%type@".toList).unknown = [] ∧
      SameLetters "@t.c%type@".toList "@t.c%TYPE@".toList ∧
      find "@t.c%TYPE@".toList = [] ∧
      substitute (resolve columnPairs "@t.c%TYPE@".toList).replacements "@t.c%TYPE@".toList =
        "@t.c%TYPE@".toList ∧
      substitute (resolve columnPairs "@t.c%type@".toList).replacements "@t.c%type@".toList =
        "TEXT".toList := by
  refine ⟨?_, ?_, ?_, ?_, ?_, ?_⟩ <;> decide +kernel

end Sample

end Placeholder

end StoredRoutine
