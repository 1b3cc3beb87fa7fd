import StoredRoutine.Parameter
import StoredRoutine.Proofs.OrderedMap
import StoredRoutine.Proofs.Trimming

/-!
The bind markers of a text: where they can be found apart, and at which places they stand.
-/
namespace StoredRoutine.BindMarker

/-!
Where the bind markers of a text can be found apart. A character that is neither a colon nor part of
a name ends whatever a marker might have begun before it, so texts that such a character separates
are scanned for themselves, and text without colons holds no marker.
-/

/-- Neither a colon nor a marker runs over from a text to what follows it. -/
def Apart (t rest : Text) : Prop := scan false (t ++ rest) = scan false t ++ scan false rest

instance (t rest : Text) : Decidable (Apart t rest) := inferInstanceAs (Decidable (_ = _))

/-- The text leaves neither a colon nor a marker open. -/
def Closed (t : Text) : Prop := ∀ rest, Apart t rest

/-- The distinct markers of a text that are not among those found before it. -/
def newMarkers (found : List Text) (t : Text) : List Text :=
  ((scan false t).removeAll found).eraseDups

@[simp] theorem scan_nil (b : Bool) : scan b [] = [] := by rw [scan]

theorem scan_of_not_colon {c : Char} (hc : c ≠ ':') (b : Bool) (t : Text) :
    scan b (c :: t) = scan false t := by
  rw [scan]
  simp [hc]

/-- A character that no marker can hold separates what is before it from what follows. -/
theorem scan_append_separator {c : Char} (hc : c ≠ ':') (hn : isNamePart c = false) (b : Bool)
    (t rest : Text) : scan b (t ++ c :: rest) = scan b t ++ scan false rest := by
  have hend : ∀ d, (c :: rest).head? = some d → isNamePart d = false := by
    intro d hd
    rwa [← Option.some.inj hd]
  have hstart : isNameStart c = false :=
    Bool.eq_false_iff.2 fun h => Bool.false_ne_true (hn ▸ isNamePart_of_isNameStart h)
  have hhead : ∀ t : Text, (t ++ c :: rest).head?.any isNameStart = t.head?.any isNameStart := by
    intro t
    cases t with
    | nil => exact hstart
    | cons d t => rfl
  fun_induction scan b t with
  | case1 b => rw [List.nil_append, scan_of_not_colon hc, List.nil_append]
  | case2 b d t hm ih =>
    obtain ⟨htake, hdrop⟩ := Text.takeWhile_append_of_head hend t
    rw [List.cons_append, scan, hhead, if_pos hm, htake, hdrop, ih, List.cons_append]
  | case3 b d t hm ih => rw [List.cons_append, scan, hhead, if_neg hm, ih]

theorem scan_append_of_not_mem {s : Text} (h : ':' ∉ s) (t : Text) :
    scan false (s ++ t) = scan false t := by
  induction s with
  | nil => rfl
  | cons c s ih =>
    rw [List.mem_cons, not_or] at h
    rw [List.cons_append, scan_of_not_colon (Ne.symm h.1), ih h.2]

section Closed

variable {t : Text}

/-- The last character of a text decides whether it can leave anything open. -/
theorem closed_of_getLast? (h : ∀ c, t.getLast? = some c → c ≠ ':' ∧ isNamePart c = false) :
    Closed t := by
  intro rest
  rcases t.eq_nil_or_concat' with rfl | ⟨t, c, rfl⟩
  · rw [Apart, scan_nil, List.nil_append, List.nil_append]
  · obtain ⟨hc, hn⟩ := h c List.getLast?_concat
    rw [Apart, List.append_assoc, List.singleton_append, scan_append_separator hc hn,
      scan_append_separator hc hn, scan_nil, List.append_nil]

/-- Text without colons adds no marker to a text that leaves none open. -/
theorem Closed.scan_append (ht : Closed t) {s : Text} (hs : ':' ∉ s) :
    scan false (t ++ s) = scan false t := by
  have h := scan_append_of_not_mem hs []
  rw [List.append_nil] at h
  rw [ht s, h, scan_nil, List.append_nil]

theorem Closed.append (ht : Closed t) {s : Text} (hs : ':' ∉ s) : Closed (t ++ s) := by
  intro rest
  rw [Apart, List.append_assoc, ht, scan_append_of_not_mem hs, ht.scan_append hs]

end Closed

section Found

theorem eraseDups_found_append (found : List Text) (t : Text) :
    (found ++ scan false t).eraseDups = found.eraseDups ++ newMarkers found t :=
  List.eraseDups_append

/-- Which markers are new does not depend on how often a marker was found. -/
theorem newMarkers_congr {found found' : List Text} (h : found.eraseDups = found'.eraseDups)
    (t : Text) : newMarkers found t = newMarkers found' t := by
  have hm : ∀ m, m ∈ found ↔ m ∈ found' := by
    intro m
    rw [← List.mem_eraseDups, h, List.mem_eraseDups]
  rw [newMarkers, newMarkers, List.removeAll, List.removeAll]
  congr 1
  refine List.filter_congr fun m _ => ?_
  rw [List.elem_eq_mem, List.elem_eq_mem, decide_eq_decide.2 (hm m)]

end Found

section Shape

/-- A colon and an identifier, which does not begin with a digit. -/
def IsMarker (m : Text) : Prop :=
  ∃ c name, m = ':' :: c :: name ∧ isNameStart c = true ∧ ∀ d ∈ name, isNamePart d = true

theorem isMarker_of_mem_scan {b : Bool} {t m : Text} (h : m ∈ scan b t) : IsMarker m := by
  fun_induction scan b t with
  | case1 => exact absurd h List.not_mem_nil
  | case2 b c t hm ih =>
    rcases List.mem_cons.1 h with rfl | h
    · simp only [Bool.and_eq_true, Option.any_eq_true] at hm
      obtain ⟨-, c, hc, hstart⟩ := hm
      obtain ⟨name, rfl⟩ := List.head?_eq_some_iff.1 hc
      refine ⟨c, name.takeWhile isNamePart, ?_, hstart, fun d => Text.mem_takeWhile⟩
      rw [List.takeWhile_cons_of_pos (isNamePart_of_isNameStart hstart)]
    · exact ih h
  | case3 b c t hm ih => exact ih h

theorem isMarker_of_mem_discover {t m : Text} (h : m ∈ discover t) : IsMarker m :=
  isMarker_of_mem_scan (List.mem_eraseDups.1 h)

theorem nodup_discover (t : Text) : (discover t).Nodup := nodup_eraseDups _

end Shape

/-!
The bind markers of a text by the places where they stand. Whether a marker stands at a place is
settled there: by the character before it, and by where its name ends. The scan passes over the name
of a marker in one go and misses none by that, for no marker begins within a name, so the markers that
it finds are those that stand in the text, in the order of their places.
-/

/-- The marker stands at a place of a text: no colon comes before it, and its name ends with it. -/
def StandsAt (t : Text) (i : Nat) (m : Text) : Prop :=
  ∃ before after, t = before ++ (m ++ after) ∧ before.length = i ∧ before.getLast? ≠ some ':' ∧
    IsMarker m ∧ ∀ c, after.head? = some c → isNamePart c = false

/-- The marker that a text begins with; `afterColon` says that the character before it is a colon. -/
def opening? (afterColon : Bool) : Text → Option Text
  | [] => none
  | c :: t =>
    if c = ':' && !afterColon && t.head?.any isNameStart then some (':' :: t.takeWhile isNamePart)
    else none

section Opening

variable {b : Bool} {t m : Text}

theorem opening?_eq_some_iff : opening? b t = some m ↔ b = false ∧ IsMarker m ∧
    ∃ after, t = m ++ after ∧ ∀ c, after.head? = some c → isNamePart c = false := by
  constructor
  · intro h
    cases t with
    | nil => cases h
    | cons c t =>
      rw [opening?] at h
      split at h
      · next hm =>
        simp only [Bool.and_eq_true, decide_eq_true_eq, Bool.not_eq_true', Option.any_eq_true] at hm
        obtain ⟨⟨rfl, hb⟩, d, hd, hstart⟩ := hm
        obtain ⟨name, rfl⟩ := List.head?_eq_some_iff.1 hd
        obtain rfl := Option.some.inj h
        refine ⟨hb, ⟨d, name.takeWhile isNamePart, ?_, hstart, fun e => Text.mem_takeWhile⟩,
          (d :: name).dropWhile isNamePart, ?_, fun e he => ?_⟩
        · rw [List.takeWhile_cons_of_pos (isNamePart_of_isNameStart hstart)]
        · rw [List.cons_append, List.takeWhile_append_dropWhile]
        · have hhead := List.head?_dropWhile_not isNamePart (d :: name)
          rw [he] at hhead
          exact hhead
      · cases h
  · rintro ⟨rfl, ⟨c, name, rfl, hstart, hname⟩, after, rfl, hafter⟩
    have hrun : ∀ d ∈ c :: name, isNamePart d = true :=
      List.forall_mem_cons.2 ⟨isNamePart_of_isNameStart hstart, hname⟩
    have htake := (Text.takeWhile_append_of_head hafter (c :: name)).1
    rw [List.takeWhile_eq_self_iff.2 hrun] at htake
    rw [List.cons_append, opening?, htake, if_pos]
    simp [hstart]

/-- Whether a marker stands at a place does not depend on markers before it. -/
theorem scan_cons (b : Bool) (c : Char) (t : Text) :
    scan b (c :: t) = (opening? b (c :: t)).toList ++ scan (c = ':') t := by
  rw [scan, opening?]
  split
  · next hm =>
    simp only [Bool.and_eq_true, decide_eq_true_eq, Option.any_eq_true] at hm
    obtain ⟨⟨rfl, -⟩, d, hd, hstart⟩ := hm
    obtain ⟨name, rfl⟩ := List.head?_eq_some_iff.1 hd
    -- the name holds no colon, so no marker begins in it
    have hcolon : ':' ∉ (d :: name).takeWhile isNamePart := fun hmem =>
      absurd (Text.mem_takeWhile hmem) (by decide)
    have hd : d ≠ ':' := by
      rintro rfl
      exact absurd hstart (by decide)
    have hskip : scan false (d :: name) = scan false ((d :: name).dropWhile isNamePart) := by
      conv => lhs; rw [← List.takeWhile_append_dropWhile (p := isNamePart) (l := d :: name)]
      exact scan_append_of_not_mem hcolon _
    rw [scan_of_not_colon hd] at hskip
    rw [decide_eq_true rfl, scan_of_not_colon hd, hskip]
    rfl
  · rfl

end Opening

section Places

/-- The markers in the rest of a text, of which a part has been passed, with their places. -/
def places (passed : Text) : Text → List (Nat × Text)
  | [] => []
  | c :: t =>
    ((opening? (passed.getLast? = some ':') (c :: t)).toList.map fun m => (passed.length, m)) ++
      places (passed ++ [c]) t

theorem map_snd_places (passed t : Text) :
    (places passed t).map Prod.snd = scan (passed.getLast? = some ':') t := by
  induction t generalizing passed with
  | nil => rw [places, scan_nil, List.map_nil]
  | cons c t ih =>
    rw [places, List.map_append, ih, scan_cons, List.getLast?_concat, List.map_map]
    simp [Function.comp_def]

theorem standsAt_length_iff {passed t m : Text} :
    StandsAt (passed ++ t) passed.length m ↔ opening? (passed.getLast? = some ':') t = some m := by
  rw [opening?_eq_some_iff, decide_eq_false_iff_not]
  constructor
  · rintro ⟨before, after, ht, hlength, hlast, hm, hafter⟩
    obtain ⟨rfl, rfl⟩ := List.append_inj ht hlength.symm
    exact ⟨hlast, hm, after, rfl, hafter⟩
  · rintro ⟨hlast, hm, after, rfl, hafter⟩
    exact ⟨passed, after, rfl, rfl, hlast, hm, hafter⟩

theorem lt_length_of_standsAt {t m : Text} {i : Nat} (h : StandsAt t i m) : i < t.length := by
  obtain ⟨before, after, rfl, rfl, -, ⟨c, name, rfl, -⟩, -⟩ := h
  simp

/-- The places are all at which a marker stands in the rest of the text. -/
theorem mem_places {passed t m : Text} {i : Nat} :
    (i, m) ∈ places passed t ↔ passed.length ≤ i ∧ StandsAt (passed ++ t) i m := by
  induction t generalizing passed with
  | nil =>
    rw [places, List.append_nil]
    refine iff_of_false List.not_mem_nil fun ⟨hle, h⟩ => ?_
    exact Nat.not_lt.2 hle (lt_length_of_standsAt h)
  | cons c t ih =>
    have hhere : (i, m) ∈ ((opening? (passed.getLast? = some ':') (c :: t)).toList.map
        fun m => (passed.length, m)) ↔ passed.length = i ∧ StandsAt (passed ++ c :: t) i m := by
      simp only [List.mem_map, Option.mem_toList, Prod.mk.injEq]
      constructor
      · rintro ⟨m, hm, rfl, rfl⟩
        exact ⟨rfl, standsAt_length_iff.2 hm⟩
      · rintro ⟨rfl, h⟩
        exact ⟨m, standsAt_length_iff.1 h, rfl, rfl⟩
    have horder : passed.length = i ∨ passed.length + 1 ≤ i ↔ passed.length ≤ i := by omega
    rw [places, List.mem_append, hhere, ih, List.append_assoc, List.singleton_append,
      List.length_append, List.length_singleton, ← or_and_right, horder]

theorem pairwise_places (passed t : Text) : (places passed t).Pairwise fun a b => a.1 < b.1 := by
  induction t generalizing passed with
  | nil => exact .nil
  | cons c t ih =>
    refine List.pairwise_append.2 ⟨?_, ih (passed ++ [c]), fun a ha b hb => ?_⟩
    · cases opening? (passed.getLast? = some ':') (c :: t) <;> simp
    · obtain ⟨m, -, rfl⟩ := List.mem_map.1 ha
      have hle := (mem_places.1 hb).1
      rwa [List.length_append, List.length_singleton] at hle

end Places

/-- The markers that are discovered are those that stand in the text, each once and in the order in
which they first stand there; and a colon next to another one begins none. -/
theorem discover_lists_standing (t : Text) :
    (discover t).Nodup ∧
      (∀ m, m ∈ discover t ↔ ∃ i, StandsAt t i m) ∧
      ((discover t).Pairwise fun m n => ∃ i, StandsAt t i m ∧ ∀ j, StandsAt t j n → i < j) ∧
      ∀ before after m, ¬ StandsAt (before ++ ':' :: ':' :: after) before.length m ∧
        ¬ StandsAt (before ++ ':' :: ':' :: after) (before.length + 1) m := by
  have hscan : (places [] t).map Prod.snd = scan false t := map_snd_places [] t
  have hplace : ∀ i m, (i, m) ∈ places [] t ↔ StandsAt t i m := fun i m => by
    rw [mem_places, List.length_nil, and_iff_right (Nat.zero_le i), List.nil_append]
  refine ⟨nodup_discover t, fun m => ?_, ?_, fun before after m => ⟨?_, ?_⟩⟩
  · rw [discover, List.mem_eraseDups, ← hscan, List.mem_map]
    simp only [Prod.exists, exists_eq_right, hplace]
  · refine (pairwise_idxOf_eraseDups (scan false t)).imp fun hlt => ?_
    rw [← hscan] at hlt
    simpa only [hplace] using exists_first_of_idxOf_lt (pairwise_places [] t) hlt
  · rintro ⟨u, v, ht, hlength, -, ⟨c, name, rfl, hstart, -⟩, -⟩
    obtain ⟨-, hmarker⟩ := List.append_inj ht hlength.symm
    obtain ⟨rfl, -⟩ := List.cons.inj (List.cons.inj hmarker).2
    exact absurd hstart (by decide)
  · rintro ⟨u, v, ht, hlength, hlast, -⟩
    have ht' : (before ++ [':']) ++ ':' :: after = u ++ (m ++ v) := by simpa using ht
    obtain ⟨rfl, -⟩ := List.append_inj ht' (by simpa using hlength.symm)
    exact hlast List.getLast?_concat

/-- Colons in a row begin no marker, and a marker right after another one is found. -/
example : discover ":b::int, :a:c:::d :b".toList = [":b".toList, ":a".toList, ":c".toList] := by
  decide +kernel

end StoredRoutine.BindMarker
