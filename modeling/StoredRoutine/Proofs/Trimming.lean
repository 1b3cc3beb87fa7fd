import Mathlib
import StoredRoutine.Text.Basic

/-!
Runs of characters of one class at the ends of a text, and what is left of a text without the
blanks at its ends.
-/
namespace StoredRoutine.Text

/-!
The run of characters of one class that a text begins with, what follows that run, and the pieces
between characters of a class. A run that ends inside a text is not changed by what is put after the
text.
-/

section

variable {p : Char → Bool} {t : Text}

theorem takeWhile_append_of_dropWhile {rest : Text} (h : t.dropWhile p = rest) :
    t.takeWhile p ++ rest = t := by
  rw [← h]
  exact List.takeWhile_append_dropWhile

theorem mem_takeWhile {c : Char} (h : c ∈ t.takeWhile p) : p c = true :=
  List.all_eq_true.1 List.all_takeWhile c h

/-- No run goes on into a text that begins with a character of another class. -/
theorem takeWhile_append_of_head {tail : Text} (h : ∀ c, tail.head? = some c → p c = false)
    (s : Text) :
    (s ++ tail).takeWhile p = s.takeWhile p ∧ (s ++ tail).dropWhile p = s.dropWhile p ++ tail := by
  induction s with
  | nil =>
    cases tail with
    | nil => simp
    | cons c tail => simp [h c rfl]
  | cons c s ih =>
    cases hc : p c with
    | true => simp [hc, ih]
    | false => simp [hc]

/-- Each character is replaced by characters of its own class, at least by one. -/
def KeepsClass (p : Char → Bool) (f : Char → Text) : Prop :=
  ∀ c, f c ≠ [] ∧ ∀ d ∈ f c, p d = p c

section Replaced

variable {f : Char → Text}

theorem takeWhile_flatMap (hf : KeepsClass p f) (t : Text) :
    (t.flatMap f).takeWhile p = (t.takeWhile p).flatMap f := by
  induction t with
  | nil => rfl
  | cons c t ih =>
    obtain ⟨hne, hclass⟩ := hf c
    cases hc : p c with
    | true =>
      rw [List.flatMap_cons, List.takeWhile_append_of_pos fun d hd => (hclass d hd).trans hc, ih,
        List.takeWhile_cons_of_pos hc, List.flatMap_cons]
    | false =>
      obtain ⟨d, u, hu⟩ := List.exists_cons_of_ne_nil hne
      have hd : p d = false := (hclass d (by simp [hu])).trans hc
      simp [hu, hc, hd]

theorem dropWhile_flatMap (hf : KeepsClass p f) (t : Text) :
    (t.flatMap f).dropWhile p = (t.dropWhile p).flatMap f := by
  induction t with
  | nil => rfl
  | cons c t ih =>
    obtain ⟨hne, hclass⟩ := hf c
    cases hc : p c with
    | true =>
      rw [List.flatMap_cons, List.dropWhile_append_of_pos fun d hd => (hclass d hd).trans hc, ih,
        List.dropWhile_cons_of_pos hc]
    | false =>
      obtain ⟨d, u, hu⟩ := List.exists_cons_of_ne_nil hne
      have hd : p d = false := (hclass d (by simp [hu])).trans hc
      simp [hu, hc, hd]

end Replaced

/-- The pieces that a text is cut into have no character of the class that it is cut at. -/
theorem class_of_mem_splitOnP {w : Text} (h : w ∈ t.splitOnP p) : ∀ c ∈ w, p c = false := by
  induction t generalizing w with
  | nil =>
    obtain rfl : w = [] := by simpa using h
    simp
  | cons a t ih =>
    rw [List.splitOnP_cons_eq_if_modifyHead] at h
    by_cases ha : p a = true
    · rw [if_pos ha, List.mem_cons] at h
      rcases h with rfl | h
      · simp
      · exact ih h
    · rw [if_neg ha] at h
      cases hs : t.splitOnP p with
      | nil => exact absurd hs (List.splitOnP_ne_nil _ _)
      | cons u us =>
        rw [hs] at h ih
        rcases List.mem_cons.1 h with rfl | h
        · intro c hc
          rcases List.mem_cons.1 hc with rfl | hc
          · exact Bool.eq_false_iff.2 ha
          · exact ih List.mem_cons_self c hc
        · exact ih (List.mem_cons_of_mem _ h)

theorem not_mem_of_mem_splitOn {c : Char} {w : Text} (h : w ∈ t.splitOn c) : c ∉ w := by
  rw [List.splitOn_eq_splitOnP] at h
  intro hc
  simpa using class_of_mem_splitOnP h c hc

end

/-!
Trimming a text that is put together from parts. Blanks at the outer end of a part are trimmed with
the text, and a part that does not end in a blank stays whole before whatever follows it.
-/

variable {t u : Text} {c : Char}

theorem trimRight_eq_rdropWhile (t : Text) : t.trimRight = t.rdropWhile isBlank := rfl

theorem trimRight_eq_self (h : ∀ c, t.getLast? = some c → isBlank c = false) : t.trimRight = t := by
  rw [trimRight_eq_rdropWhile, List.rdropWhile_eq_self_iff]
  exact fun hne => Bool.eq_false_iff.1 (h _ (List.getLast?_eq_some_getLast hne))

theorem trim_prefix_trimLeft (t : Text) : t.trim <+: t.trimLeft := by
  rw [trim, trimRight_eq_rdropWhile]
  exact List.rdropWhile_prefix isBlank _

theorem not_isBlank_head_trimLeft {c : Char} (h : t.trimLeft.head? = some c) :
    isBlank c = false := by
  have hhead := List.head?_dropWhile_not isBlank t
  rwa [← trimLeft, h] at hhead

/-- What is dropped from the end is all that can be. -/
theorem eq_false_of_getLast?_rdropWhile {α : Type} {p : α → Bool} {l : List α} {x : α}
    (h : (l.rdropWhile p).getLast? = some x) : p x = false := by
  have hne : l.rdropWhile p ≠ [] := by
    intro he
    rw [he] at h
    cases h
  rw [List.getLast?_eq_some_getLast hne] at h
  obtain rfl := Option.some.inj h
  exact Bool.eq_false_iff.2 (List.rdropWhile_last_not p l hne)

theorem not_isBlank_getLast_trimRight (h : t.trimRight.getLast? = some c) : isBlank c = false :=
  eq_false_of_getLast?_rdropWhile h

theorem trimLeft_eq_self (h : ∀ c, t.head? = some c → isBlank c = false) : t.trimLeft = t := by
  cases t with
  | nil => rfl
  | cons c t => exact List.dropWhile_cons_of_neg (by simp [h c rfl])

theorem trimLeft_append_of_blank (h : ∀ c ∈ u, isBlank c = true) (t : Text) :
    (u ++ t).trimLeft = t.trimLeft := List.dropWhile_append_of_pos h

theorem trimRight_append_of_blank (t : Text) (h : ∀ c ∈ u, isBlank c = true) :
    (t ++ u).trimRight = t.trimRight := by
  have hr : ∀ c ∈ u.reverse, isBlank c = true := fun c hc => h c (List.mem_reverse.1 hc)
  rw [trimRight, List.reverse_append, List.dropWhile_append_of_pos hr, trimRight]

/-- What is trimmed from the end of a text is blank. -/
theorem exists_trimRight (t : Text) :
    ∃ u, (∀ c ∈ u, isBlank c = true) ∧ t = t.trimRight ++ u :=
  ⟨t.rtakeWhile isBlank, fun _ => List.mem_rtakeWhile_imp,
    by rw [trimRight_eq_rdropWhile, List.rdropWhile_append_rtakeWhile]⟩

/-- What is trimmed from a text is its indentation and what is blank at its end. -/
theorem exists_trim (t : Text) :
    ∃ u, (∀ c ∈ u, isBlank c = true) ∧ t = t.indentation ++ (t.trim ++ u) := by
  obtain ⟨u, hu, ht⟩ := t.trimLeft.exists_trimRight
  exact ⟨u, hu, by rw [trim, ← ht, indentation_append_trimLeft]⟩

theorem trimRight_concat_of_blank (t : Text) (hc : isBlank c = true) :
    (t ++ [c]).trimRight = t.trimRight :=
  List.rdropWhile_concat_pos _ _ _ hc

/-- A part that does not end in a blank stays whole. -/
theorem trimRight_append (h : u.trimRight = u) (t : Text) :
    (u ++ t).trimRight = u ++ t.trimRight := by
  induction t using List.reverseRecOn with
  | nil => rw [List.append_nil, h]; exact (List.append_nil u).symm
  | append_singleton t c ih =>
    rw [← List.append_assoc]
    by_cases hc : isBlank c = true
    · rw [trimRight_concat_of_blank _ hc, trimRight_concat_of_blank _ hc, ih]
    · rw [trimRight_eq_rdropWhile, trimRight_eq_rdropWhile, List.rdropWhile_concat_neg _ _ _ hc,
        List.rdropWhile_concat_neg _ _ _ hc, List.append_assoc]

theorem trimRight_cons_of_ne_nil (h : t.trimRight ≠ []) (c : Char) :
    trimRight (c :: t) = c :: t.trimRight := by
  rw [trimRight_eq_rdropWhile, List.rdropWhile, List.reverse_cons, List.dropWhile_append, if_neg]
  · rw [List.reverse_append]
    rfl
  · exact fun hn => h (List.reverse_eq_nil_iff.2 (List.isEmpty_iff.1 hn))

theorem trim_concat_of_blank (t : Text) (hc : isBlank c = true) : (t ++ [c]).trim = t.trim := by
  rw [trim, trim, trimLeft, trimLeft, List.dropWhile_append]
  split
  · next hall =>
    rw [List.isEmpty_iff.1 hall, List.dropWhile_cons_of_pos hc]
    rfl
  · exact trimRight_concat_of_blank _ hc

/-- Only the blanks around a text are trimmed. -/
theorem trim_surrounded {v : Text} (hu : ∀ c ∈ u, isBlank c = true) (hv : ∀ c ∈ v, isBlank c = true)
    (hfirst : ∀ c, t.head? = some c → isBlank c = false)
    (hlast : ∀ c, t.getLast? = some c → isBlank c = false) : (u ++ (t ++ v)).trim = t := by
  rw [trim, trimLeft_append_of_blank hu]
  cases t with
  | nil =>
    rw [List.nil_append, trimLeft, List.dropWhile_eq_nil_iff.2 hv]
    rfl
  | cons c t =>
    have hkept := trimLeft_eq_self (t := c :: t ++ v) fun d hd => hfirst d hd
    rw [hkept, trimRight_append_of_blank _ hv, trimRight_eq_self hlast]

theorem trimLeft_append_trimLeft (u t : Text) : (u.trimLeft ++ t).trimLeft = (u ++ t).trimLeft := by
  rw [trimLeft, trimLeft, trimLeft, List.dropWhile_append, List.dropWhile_append,
    List.dropWhile_idempotent]

section Replaced

variable {f : Char → Text}

theorem KeepsClass.reverse {p : Char → Bool} (hf : KeepsClass p f) :
    KeepsClass p fun c => (f c).reverse := fun c =>
  ⟨fun h => (hf c).1 (List.reverse_eq_nil_iff.1 h), fun d hd => (hf c).2 d (List.mem_reverse.1 hd)⟩

/-- A text is trimmed in the same places when blanks are replaced by blanks only, and only blanks. -/
theorem trim_flatMap (hf : KeepsClass isBlank f) (t : Text) :
    trim (t.flatMap f) = t.trim.flatMap f := by
  have hright : ∀ t : Text, trimRight (t.flatMap f) = t.trimRight.flatMap f := fun t => by
    rw [trimRight, List.reverse_flatMap, Function.comp_def, dropWhile_flatMap hf.reverse,
      List.reverse_flatMap, Function.comp_def, trimRight]
    simp only [List.reverse_reverse]
  rw [trim, trimLeft, dropWhile_flatMap hf, hright, trim, trimLeft]

theorem allBlank_flatMap (hf : KeepsClass isBlank f) (t : Text) :
    allBlank (t.flatMap f) = t.allBlank := by
  have hall : ∀ c, (f c).all isBlank = isBlank c := fun c => by
    obtain ⟨hne, hclass⟩ := hf c
    obtain ⟨d, u, hu⟩ := List.exists_cons_of_ne_nil hne
    cases hc : isBlank c <;> simp_all
  simp only [allBlank, List.all_flatMap, hall]

end Replaced

theorem ofLines_cons {lines : List Text} (h : lines ≠ []) (line : Text) :
    ofLines (line :: lines) = line ++ '\n' :: ofLines lines := by
  obtain ⟨line', lines, rfl⟩ := List.exists_cons_of_ne_nil h
  simp [ofLines, List.intercalate]

/-- The blanks before the first line are trimmed with the text. -/
theorem trim_ofLines_trimLeft (line : Text) (lines : List Text) :
    (ofLines (line.trimLeft :: lines)).trim = (ofLines (line :: lines)).trim := by
  cases lines with
  | nil => simp only [ofLines, List.intercalate_singleton, trim, trimLeft, List.dropWhile_idempotent]
  | cons line' lines =>
    rw [ofLines_cons (List.cons_ne_nil _ _), ofLines_cons (List.cons_ne_nil _ _), trim, trim,
      trimLeft_append_trimLeft]

end StoredRoutine.Text
