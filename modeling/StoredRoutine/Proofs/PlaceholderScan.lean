import Mathlib
import StoredRoutine.Placeholder

/-!
Which texts are placeholders, and that the scanner finds just these: it opens a placeholder before a
text exactly if one stands there. No placeholder holds a blank, so scanning a text line by line
finds the placeholders of the whole text.
-/
namespace StoredRoutine.Placeholder

/-- An at sign, a name, perhaps the suffix for a type, and an at sign. -/
def IsPlaceholder (p : Text) : Prop :=
  ∃ name suffix : Text, name ≠ [] ∧ (∀ c ∈ name, isNameChar c = true) ∧
    (suffix = [] ∨ suffix = typeSuffix) ∧ p = '@' :: (name ++ (suffix ++ ['@']))

theorem isPlaceholder_of_opened? {t p rest : Text} (h : opened? t = some (p, rest)) :
    IsPlaceholder p := by
  have hn : ∀ c ∈ t.takeWhile isNameChar, isNameChar c = true :=
    List.all_eq_true.1 List.all_takeWhile
  simp only [opened?] at h
  split at h
  · simp at h
  · next hne =>
    have hne : t.takeWhile isNameChar ≠ [] := by simpa using hne
    split at h
    · obtain ⟨rfl, -⟩ := Prod.mk.inj (Option.some.inj h)
      exact ⟨_, typeSuffix, hne, hn, .inr rfl, by simp⟩
    · obtain ⟨rfl, -⟩ := Prod.mk.inj (Option.some.inj h)
      exact ⟨_, [], hne, hn, .inl rfl, by simp⟩
    · simp at h

theorem opened?_of_append {name suffix rest : Text} (hne : name ≠ [])
    (hn : ∀ c ∈ name, isNameChar c = true) (hs : suffix = [] ∨ suffix = typeSuffix) :
    opened? (name ++ (suffix ++ '@' :: rest)) = some ('@' :: (name ++ (suffix ++ ['@'])), rest) := by
  have hend : ∃ c u, suffix ++ '@' :: rest = c :: u ∧ isNameChar c = false := by
    rcases hs with rfl | rfl
    · exact ⟨'@', rest, rfl, by decide⟩
    · exact ⟨'%', "type@".toList ++ rest, rfl, by decide⟩
  obtain ⟨c, u, hcu, hc⟩ := hend
  have ht : (name ++ (suffix ++ '@' :: rest)).takeWhile isNameChar = name := by
    rw [hcu, List.takeWhile_append_of_pos hn, List.takeWhile_cons_of_neg (by simp [hc]),
      List.append_nil]
  have hd : (name ++ (suffix ++ '@' :: rest)).dropWhile isNameChar = suffix ++ '@' :: rest := by
    rw [hcu, List.dropWhile_append_of_pos hn, List.dropWhile_cons_of_neg (by simp [hc])]
  rw [opened?, ht, hd]
  simp only [List.isEmpty_iff, hne, if_false]
  rcases hs with rfl | rfl
  · simp [typeSuffix, Text.after?]
  · have ha : Text.after? (typeSuffix ++ ['@']) (typeSuffix ++ '@' :: rest) = some rest := by
      rw [Text.after?_eq_some_iff]
      simp
    rw [ha]
    simp

/-- The scanner opens a placeholder exactly if that placeholder stands there. -/
theorem opened?_eq_some_iff {t p rest : Text} :
    opened? t = some (p, rest) ↔ IsPlaceholder p ∧ '@' :: t = p ++ rest := by
  constructor
  · intro h
    exact ⟨isPlaceholder_of_opened? h, (append_of_opened? h).symm⟩
  · rintro ⟨⟨name, suffix, hne, hn, hs, rfl⟩, ht⟩
    have ht : t = name ++ (suffix ++ '@' :: rest) := by simpa using ht
    rw [ht]
    exact opened?_of_append hne hn hs

/-- Induction along the scanner: over a placeholder that it takes, or over a character at which it
opens none. -/
@[elab_as_elim]
theorem scan_induction {motive : Text → Prop} (nil : motive [])
    (placeholder : ∀ p rest, IsPlaceholder p → motive rest → motive (p ++ rest))
    (plain : ∀ c t, (c = '@' → opened? t = none) → motive t → motive (c :: t)) (t : Text) :
    motive t := by
  fun_induction pieces t with
  | case1 => exact nil
  | case2 c t p rest ho ih =>
    split at ho
    · next hc =>
      obtain ⟨hp, ht⟩ := opened?_eq_some_iff.1 ho
      rw [hc, ht]
      exact placeholder p rest hp ih
    · cases ho
  | case3 c t ho ih => exact plain c t (fun hc => by rwa [dif_pos hc] at ho) ih

/-- Between the at signs around a placeholder stands no other. -/
theorem IsPlaceholder.exists_inner {p : Text} (h : IsPlaceholder p) :
    ∃ inner, p = '@' :: (inner ++ ['@']) ∧ '@' ∉ inner := by
  obtain ⟨name, suffix, -, hn, hs, rfl⟩ := h
  refine ⟨name ++ suffix, by simp, fun hm => ?_⟩
  rcases List.mem_append.1 hm with hm | hm
  · exact absurd (hn _ hm) (by decide)
  · rcases hs with rfl | rfl
    · cases hm
    · exact absurd hm (by decide)

theorem IsPlaceholder.ne_nil {p : Text} (h : IsPlaceholder p) : p ≠ [] := by
  obtain ⟨inner, rfl, -⟩ := h.exists_inner
  exact List.cons_ne_nil _ _

/-- At one place stands at most one placeholder. -/
theorem IsPlaceholder.eq_of_prefixes {p q t : Text} (hp : IsPlaceholder p) (hq : IsPlaceholder q)
    (hpt : p <+: t) (hqt : q <+: t) : p = q := by
  obtain ⟨inner, rfl, hi⟩ := hp.exists_inner
  obtain ⟨u, rfl⟩ := hpt
  obtain ⟨v, hv⟩ := hqt
  have hop : opened? (inner ++ ['@'] ++ u) = some ('@' :: (inner ++ ['@']), u) :=
    opened?_eq_some_iff.2 ⟨hp, rfl⟩
  have hoq : opened? (inner ++ ['@'] ++ u) = some (q, v) :=
    opened?_eq_some_iff.2 ⟨hq, hv.symm⟩
  exact (Prod.mk.inj (Option.some.inj (hop.symm.trans hoq))).1

theorem IsPlaceholder.not_isBlank {p : Text} (h : IsPlaceholder p) :
    ∀ c ∈ p, isBlank c = false := by
  obtain ⟨name, suffix, -, hn, hs, rfl⟩ := h
  have hname : ∀ c ∈ name, isBlank c = false := by
    refine fun c hc => Bool.eq_false_iff.2 fun hb => ?_
    have hpoint : c ≠ '.' := by
      rintro rfl
      exact absurd hb (by decide)
    have hn := hn c hc
    rw [isNameChar, isNamePart_of_isBlank hb, Bool.false_or, beq_iff_eq] at hn
    exact hpoint hn
  have hsuffix : ∀ c ∈ suffix, isBlank c = false := by
    rcases hs with rfl | rfl
    · exact fun c hc => absurd hc List.not_mem_nil
    · exact List.forall_iff_forall_mem.1 (by decide)
  intro c hc
  simp only [List.mem_cons, List.mem_append, List.not_mem_nil, or_false] at hc
  rcases hc with rfl | hc | hc | rfl
  · rfl
  · exact hname c hc
  · exact hsuffix c hc
  · rfl

section Pieces

theorem pieces_of_opened? {t p rest : Text} (h : opened? t = some (p, rest)) :
    pieces ('@' :: t) = .placeholder p :: pieces rest := by
  rw [pieces]
  split
  · next q r hq =>
    rw [if_pos rfl, h] at hq
    obtain ⟨rfl, rfl⟩ := Prod.mk.inj (Option.some.inj hq)
    rfl
  · next hq =>
    rw [if_pos rfl, h] at hq
    simp at hq

theorem pieces_of_isPlaceholder {p : Text} (hp : IsPlaceholder p) (t : Text) :
    pieces (p ++ t) = .placeholder p :: pieces t := by
  obtain ⟨inner, rfl, -⟩ := hp.exists_inner
  exact pieces_of_opened? (opened?_eq_some_iff.2 ⟨hp, rfl⟩)

theorem pieces_of_not_opened {c : Char} {t : Text} (h : c = '@' → opened? t = none) :
    pieces (c :: t) = .plain c :: pieces t := by
  rw [pieces]
  split
  · next q r hq =>
    split at hq
    · next hc => simp [h hc] at hq
    · simp at hq
  · rfl

theorem pieces_of_not_mem {s : Text} (h : '@' ∉ s) (t : Text) :
    pieces (s ++ t) = s.map .plain ++ pieces t := by
  induction s with
  | nil => rfl
  | cons c s ih =>
    rw [List.mem_cons, not_or] at h
    rw [List.cons_append, pieces_of_not_opened (fun hc => absurd hc.symm h.1), ih h.2]
    rfl

section Blank

variable {b : Char}

/-- A blank ends whatever a placeholder might have begun before it. -/
theorem opened?_append_blank (hb : isBlank b = true) (t u : Text) :
    opened? (t ++ b :: u) = (opened? t).map fun (p, rest) => (p, rest ++ b :: u) := by
  cases ho : opened? t with
  | some pr =>
    obtain ⟨p, rest⟩ := pr
    obtain ⟨hp, ht⟩ := opened?_eq_some_iff.1 ho
    refine opened?_eq_some_iff.2 ⟨hp, ?_⟩
    rw [← List.append_assoc, ← ht, List.cons_append]
  | none =>
    rw [Option.map_none]
    refine Option.eq_none_iff_forall_ne_some.2 fun ⟨p, rest⟩ h => ?_
    obtain ⟨hp, ht⟩ := opened?_eq_some_iff.1 h
    rw [← List.cons_append, List.append_eq_append_iff] at ht
    rcases ht with ⟨a, rfl, ha⟩ | ⟨b', hb', -⟩
    · cases a with
      | nil =>
        have hn : opened? t = some ('@' :: t, []) :=
          opened?_eq_some_iff.2 ⟨by simpa using hp, by simp⟩
        simp [ho] at hn
      | cons x a =>
        obtain ⟨rfl, -⟩ := List.cons.inj ha
        exact absurd (hp.not_isBlank b (by simp)) (by simp [hb])
    · simp [opened?_eq_some_iff.2 ⟨hp, hb'⟩] at ho

theorem pieces_append_blank (hb : isBlank b = true) (t u : Text) :
    pieces (t ++ b :: u) = pieces t ++ .plain b :: pieces u := by
  induction t using scan_induction with
  | nil =>
    rw [pieces, List.nil_append]
    refine pieces_of_not_opened fun hc => ?_
    exact absurd hb (by rw [hc]; decide)
  | placeholder p rest hp ih =>
    rw [List.append_assoc, pieces_of_isPlaceholder hp, ih, pieces_of_isPlaceholder hp,
      List.cons_append]
  | plain c t ho ih =>
    have h : c = '@' → opened? (t ++ b :: u) = none := by
      intro hc
      rw [opened?_append_blank hb, ho hc, Option.map_none]
    rw [List.cons_append, pieces_of_not_opened h, ih, pieces_of_not_opened ho, List.cons_append]

theorem find_append_blank (hb : isBlank b = true) (t u : Text) :
    find (t ++ b :: u) = find t ++ find u := by
  rw [find, pieces_append_blank hb, List.filterMap_append, List.filterMap_cons_none rfl]
  rfl

end Blank

@[simp] theorem find_nil : find [] = [] := by rw [find, pieces, List.filterMap_nil]

theorem find_of_opened? {t p rest : Text} (h : opened? t = some (p, rest)) :
    find ('@' :: t) = p :: find rest := by
  rw [find, pieces_of_opened? h]
  rfl

theorem find_of_isPlaceholder {p : Text} (hp : IsPlaceholder p) (t : Text) :
    find (p ++ t) = p :: find t := by
  rw [find, pieces_of_isPlaceholder hp]
  rfl

theorem find_of_not_opened {c : Char} {t : Text} (h : c = '@' → opened? t = none) :
    find (c :: t) = find t := by
  rw [find, pieces_of_not_opened h]
  rfl

theorem find_of_not_mem {s : Text} (h : '@' ∉ s) (t : Text) : find (s ++ t) = find t := by
  rw [find, pieces_of_not_mem h, List.filterMap_append]
  simp [find, Piece.placeholder?]

theorem isPlaceholder_of_mem_find {t p : Text} (h : p ∈ find t) : IsPlaceholder p := by
  induction t using scan_induction with
  | nil => simp at h
  | placeholder q rest hq ih =>
    rw [find_of_isPlaceholder hq] at h
    rcases List.mem_cons.1 h with rfl | h
    · exact hq
    · exact ih h
  | plain c t ho ih =>
    rw [find_of_not_opened ho] at h
    exact ih h

theorem find_eq_nil_of_not_mem {t : Text} (h : '@' ∉ t) : find t = [] := by
  have hfind := find_of_not_mem h []
  rwa [List.append_nil, find_nil] at hfind

theorem not_mem_of_blank {u : Text} (h : ∀ c ∈ u, isBlank c = true) : '@' ∉ u := fun hm =>
  absurd (h _ hm) (by decide)

/-- Blanks at the end of a text add nothing to what is found. -/
theorem find_append_of_blank {u : Text} (t : Text) (h : ∀ c ∈ u, isBlank c = true) :
    find (t ++ u) = find t := by
  cases u with
  | nil => rw [List.append_nil]
  | cons b u =>
    obtain ⟨hb, hu⟩ := List.forall_mem_cons.1 h
    rw [find_append_blank hb, find_eq_nil_of_not_mem (not_mem_of_blank hu), List.append_nil]

theorem not_allBlank_of_mem_find {t p : Text} (h : p ∈ find t) : t.allBlank = false := by
  refine Bool.eq_false_iff.2 fun hb => ?_
  rw [find_eq_nil_of_not_mem (not_mem_of_blank (List.all_eq_true.1 hb))] at h
  cases h

end Pieces

theorem flatMap_find_ofLines (ls : List Text) : ls.flatMap find = find (.ofLines ls) := by
  induction ls with
  | nil => simp [Text.ofLines]
  | cons l ls ih =>
    cases ls with
    | nil => simp [Text.ofLines]
    | cons l' ls =>
      rw [List.flatMap_cons, ih, ← find_append_blank isBlank_newline]
      simp [Text.ofLines, List.intercalate]

/-- The placeholders of all lines are those of the text. -/
theorem flatMap_find_lines (t : Text) : t.lines.flatMap find = find t := by
  rw [flatMap_find_ofLines, Text.ofLines, Text.lines, List.intercalate_splitOn]

end StoredRoutine.Placeholder
