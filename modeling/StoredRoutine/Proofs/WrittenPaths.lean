import StoredRoutine.FileTree.Access
import StoredRoutine.Proofs.Trimming

/-!
Paths as they are written and looked up. The text of a path has its components between slashes, so a
path is found by that text where its components lead; the slashes before them change nothing.
-/
namespace StoredRoutine

namespace Path

/-- What the components of a path that was read from a text are. -/
structure IsPart (c : String) : Prop where
  ne_empty : c ≠ ""
  ne_point : c ≠ "."
  slash : '/' ∉ c.toList

structure WellFormed (p : Path) : Prop where
  root : p.root = "" ∨ p.root = "/" ∨ p.root = "//"
  parts : ∀ c ∈ p.parts, IsPart c

theorem rootOf_cases (s : String) : rootOf s = "" ∨ rootOf s = "/" ∨ rootOf s = "//" := by
  unfold rootOf
  split <;> simp

theorem isPart_of_mem_components {s c : String} (h : c ∈ components s) (hn : c ≠ "")
    (hp : c ≠ ".") : IsPart c := by
  obtain ⟨t, ht, rfl⟩ := List.mem_map.1 h
  refine ⟨hn, hp, ?_⟩
  rw [String.toList_ofList]
  exact Text.not_mem_of_mem_splitOn ht

theorem wellFormed_ofString (s : String) : (ofString s).WellFormed where
  root := rootOf_cases s
  parts c hc := by
    obtain ⟨hc, hkept⟩ := List.mem_filter.1 hc
    have ⟨hn, hp⟩ : c ≠ "" ∧ c ≠ "." := by simpa using hkept
    exact isPart_of_mem_components hc hn hp

theorem WellFormed.parent {p : Path} (h : p.WellFormed) : p.parent.WellFormed where
  root := h.root
  parts c hc := h.parts c (List.mem_of_mem_dropLast hc)

theorem parts_eq_append_name {p : Path} (h : p.name ≠ "") :
    p.parts = p.parts.dropLast ++ [p.name] := by
  cases hl : p.parts.getLast? with
  | none => exact absurd (by rw [name, hl]; rfl) h
  | some last =>
    rw [name, hl]
    exact (List.dropLast_append_getLast? last hl).symm

theorem components_slash (s : String) : components ("/" ++ s) = "" :: components s := by
  have hs : ("/" ++ s).toList = '/' :: s.toList := by simp
  rw [components, components, hs, List.splitOn_cons_eq_if_modifyHead, if_pos (by simp)]
  rfl

theorem components_intercalate {parts : List String} (hne : parts ≠ [])
    (h : ∀ c ∈ parts, IsPart c) : components ("/".intercalate parts) = parts := by
  have hslash : ∀ l ∈ parts.map String.toList, '/' ∉ l := by
    intro l hl
    obtain ⟨c, hc, rfl⟩ := List.mem_map.1 hl
    exact (h c hc).slash
  have hs : ("/".intercalate parts).toList = ['/'].intercalate (parts.map String.toList) :=
    String.toList_intercalate
  rw [components, hs, List.splitOn_intercalate '/' hslash (by simpa using hne), List.map_map]
  exact (List.map_congr_left fun c _ => String.ofList_toList).trans (List.map_id parts)

/-- The text of a path has its components, after one empty text for each leading slash. -/
theorem components_toString {p : Path} (h : p.WellFormed) (hne : p.parts ≠ []) :
    ∃ n, components p.toString = List.replicate n "" ++ p.parts ∧ (n = 0 ∨ p.isAbsolute = true) := by
  have hs : p.toString = p.root ++ "/".intercalate p.parts := by simp [toString, hne]
  have hparts := components_intercalate hne h.parts
  rw [hs]
  rcases h.root with hr | hr | hr
  · exact ⟨0, by rw [hr, String.empty_append, hparts]; rfl, .inl rfl⟩
  · exact ⟨1, by rw [hr, components_slash, hparts]; rfl, .inr (by rw [isAbsolute, hr]; rfl)⟩
  · have hslashes : "//" ++ "/".intercalate p.parts = "/" ++ ("/" ++ "/".intercalate p.parts) := by
      rw [← String.append_assoc]; rfl
    exact ⟨2, by rw [hr, hslashes, components_slash, components_slash, hparts]; rfl,
      .inr (by rw [isAbsolute, hr]; rfl)⟩

theorem filter_components_of_nil {p : Path} (h : p.WellFormed) (hne : p.parts = []) :
    (components p.toString).filter (fun c => c != "" && c != ".") = [] := by
  obtain ⟨root, parts⟩ := p
  obtain rfl : parts = [] := hne
  rcases h.root with rfl | rfl | rfl <;> cbv

theorem mem_intercalate {c : Char} {ls : List (List Char)} (hc : c ≠ '/') :
    c ∈ ['/'].intercalate ls ↔ ∃ l ∈ ls, c ∈ l := by
  induction ls with
  | nil => simp [List.intercalate]
  | cons l ls ih =>
    cases ls with
    | nil => simp [List.intercalate]
    | cons l' ls =>
      have hcons : ['/'].intercalate (l :: l' :: ls) = l ++ '/' :: ['/'].intercalate (l' :: ls) := by
        simp [List.intercalate]
      rw [hcons, List.mem_append, List.mem_cons, ih, List.exists_mem_cons_iff (a := l)]
      simp [hc]

/-- The text of a path has the characters of its components, slashes and a single point aside. -/
theorem contains_toString {p : Path} (h : p.WellFormed) {c : Char} (hc : c ≠ '/') (hd : c ≠ '.') :
    p.toString.contains c = p.parts.any (·.contains c) := by
  have hroot : c ∉ p.root.toList := by
    rcases h.root with hr | hr | hr <;> simp [hr, hc]
  unfold toString
  split
  · next hempty =>
    have hparts : p.parts = [] := by simp_all
    simp [hparts, hd]
  · rw [Bool.eq_iff_iff]
    simp [hroot, mem_intercalate hc]

theorem contains_eq_parent_or_name {p : Path} (h : p.WellFormed) {c : Char} (hc : c ≠ '/')
    (hd : c ≠ '.') :
    p.toString.contains c = (p.parent.toString.contains c || p.name.contains c) := by
  rw [contains_toString h hc hd, contains_toString h.parent hc hd, parent]
  by_cases hn : p.name = ""
  · have hparts : p.parts = [] := by
      cases hl : p.parts.getLast? with
      | none => exact List.getLast?_eq_none_iff.1 hl
      | some last =>
        have hlast : last = "" := by rwa [name, hl] at hn
        exact absurd hlast (h.parts last (List.mem_of_getLast? hl)).ne_empty
    simp [hparts, hn]
  · have hany := congrArg (List.any · (·.contains c)) (parts_eq_append_name hn)
    simpa using hany

/-- The text of a path begins with a slash exactly if the path is absolute. -/
theorem exists_toString_eq_cons {p : Path} (h : p.WellFormed) :
    ∃ a as, p.toString.toList = a :: as ∧ (a = '/' ↔ p.isAbsolute = true) := by
  by_cases hr : p.root = ""
  · have habs : p.isAbsolute = false := by rw [isAbsolute, hr]; rfl
    cases hp : p.parts with
    | nil => exact ⟨'.', [], by simp [toString, hr, hp], by simp [habs]⟩
    | cons c cs =>
      have hc := h.parts c (by simp [hp])
      cases hl : c.toList with
      | nil => exact absurd (String.toList_eq_nil_iff.1 hl) hc.ne_empty
      | cons a as =>
        have ha : a ≠ '/' := fun ha => hc.slash (by simp [hl, ha])
        refine ⟨a, ?_, ?_, by simp [habs, ha]⟩
        · exact as ++ (['/'].intercalate ((c :: cs).map String.toList)).drop c.toList.length
        · cases cs <;> simp [toString, hr, hp, hl, List.intercalate]
  · have habs : p.isAbsolute = true := by simp [isAbsolute, hr]
    refine ⟨'/', (p.root.toList ++ ("/".intercalate p.parts).toList).tail, ?_, by simp [habs]⟩
    rcases h.root with hr' | hr' | hr'
    · exact absurd hr' hr
    · simp [toString, hr']
    · simp [toString, hr']

theorem isEmpty_toString {p : Path} (h : p.WellFormed) : p.toString.isEmpty = false := by
  obtain ⟨a, as, ha, -⟩ := exists_toString_eq_cons h
  rw [Bool.eq_false_iff, ne_eq, String.isEmpty_iff, ← String.toList_eq_nil_iff, ha]
  simp

theorem rootOf_toString {p : Path} (h : p.WellFormed) : rootOf p.toString = p.root := by
  obtain ⟨root, parts⟩ := p
  by_cases hne : parts = []
  · subst hne
    rcases h.root with rfl | rfl | rfl <;> cbv
  · have hrelative : WellFormed ⟨"", parts⟩ := ⟨.inl rfl, h.parts⟩
    obtain ⟨a, as, ha, hslash⟩ := exists_toString_eq_cons hrelative
    have hs : toString ⟨root, parts⟩ = root ++ toString ⟨"", parts⟩ := by simp [toString, hne]
    have hstops : ∀ c, (toString ⟨"", parts⟩).toList.head? = some c → (c == '/') = false := by
      intro c hc
      obtain rfl : a = c := by simpa [ha] using hc
      simpa using mt hslash.1 (by simp [isAbsolute])
    rw [rootOf, hs, String.toList_append, (Text.takeWhile_append_of_head hstops _).1]
    rcases h.root with rfl | rfl | rfl <;> cbv

/-- A path is read back from its text. -/
theorem ofString_toString {p : Path} (h : p.WellFormed) : ofString p.toString = p := by
  have hparts : (components p.toString).filter (fun c => c != "" && c != ".") = p.parts := by
    by_cases hne : p.parts = []
    · rw [filter_components_of_nil h hne, hne]
    · obtain ⟨n, hn, -⟩ := components_toString h hne
      rw [hn, List.filter_append, List.filter_replicate_of_neg (by simp), List.nil_append,
        List.filter_eq_self]
      intro c hc
      have hpart := h.parts c hc
      simp [hpart.ne_empty, hpart.ne_point]
  rw [ofString, rootOf_toString h, hparts]

theorem isAbsolute_ofString (s : String) : (ofString s).isAbsolute = s.startsWith "/" := by
  have hroot : rootOf s = "" ↔ (s.toList.takeWhile (· == '/')).length = 0 := by
    rw [rootOf]
    split <;> simp_all
  rw [Bool.eq_iff_iff, String.startsWith_string_iff, isAbsolute, bne_iff_ne, ofString, ne_eq, hroot]
  cases s.toList with
  | nil => simp
  | cons a as =>
    by_cases ha : a = '/'
    · simp [ha]
    · simp [ha, Ne.symm ha]

theorem contains_nul_of_mem_components {s c : String} (h : c ∈ components s)
    (hs : s.contains '\x00' = false) : c.contains '\x00' = false := by
  obtain ⟨t, ht, rfl⟩ := List.mem_map.1 h
  rw [String.contains_char_eq, decide_eq_false_iff_not] at hs ⊢
  rw [String.toList_ofList]
  intro hc
  have hmem := (mem_intercalate (by decide)).2 ⟨t, ht, hc⟩
  rw [List.intercalate_splitOn] at hmem
  exact hs hmem

theorem contains_nul_ofString {s : String} (hs : s.contains '\x00' = false) :
    (ofString s).toString.contains '\x00' = false := by
  rw [contains_toString (wellFormed_ofString s) (by decide) (by decide), List.any_eq_false]
  intro c hc
  simpa using contains_nul_of_mem_components (List.mem_filter.1 hc).1 hs

theorem startsWith_toString {p : Path} (h : p.WellFormed) :
    p.toString.startsWith "/" = p.isAbsolute := by
  rw [← isAbsolute_ofString, ofString_toString h]

end Path

namespace FileTree

variable {t : FileTree} {directory here place : Place} {p : Path}

/-- Empty components and single points lead nowhere else. -/
theorem walk_filter {cs : List String} (h : t.walk here cs = .ok place) :
    t.walk here (cs.filter fun c => c != "" && c != ".") = .ok place := by
  induction cs generalizing here with
  | nil => exact h
  | cons c cs ih =>
    rw [walk] at h
    cases hn : t.get? here with
    | none => simp [hn] at h
    | some node =>
      cases node with
      | file content => simp [hn] at h
      | directory =>
        simp only [hn] at h
        by_cases hc : (c = "" || c = ".") = true
        · rw [if_pos hc] at h
          rw [List.filter_cons_of_neg (by grind)]
          exact ih h
        · rw [if_neg hc] at h
          rw [List.filter_cons_of_pos (by grind), walk, hn]
          simp only [hc, Bool.false_eq_true, if_false]
          split at h
          · next hup => rw [if_pos hup]; exact ih h
          · next hup =>
            rw [if_neg hup]
            split at h
            · next hsome => rw [if_pos hsome]; exact ih h
            · simp at h

theorem walk_replicate (n : Nat) (cs : List String) :
    t.walk [] (List.replicate n "" ++ cs) = t.walk [] cs := by
  induction n with
  | zero => rfl
  | succ n ih =>
    rw [List.replicate_succ, List.cons_append, walk]
    simp [ih]

theorem locate_eq_walk (h : p.WellFormed) (hl : p.toString.utf8ByteSize < pathLimit) :
    t.locate directory p.toString = t.walk (origin directory p) (Path.components p.toString) := by
  rw [locate, if_neg (by simp [Path.isEmpty_toString h]), if_neg (by omega),
    Path.startsWith_toString h, origin]

/-- A path is found by its text where its components lead. -/
theorem locate_toString (h : p.WellFormed) (hne : p.parts ≠ [])
    (hl : p.toString.utf8ByteSize < pathLimit) :
    t.locate directory p.toString = t.walk (origin directory p) p.parts := by
  obtain ⟨n, hn, habs⟩ := Path.components_toString h hne
  rw [locate_eq_walk h hl, hn]
  rcases habs with rfl | habs
  · rfl
  · rw [origin, if_pos habs, walk_replicate]

/-- What a text names is found where the components of its path lead. -/
theorem walk_of_locate {path : String} (hl : t.locate directory path = .ok place) :
    t.walk (origin directory (.ofString path)) (Path.ofString path).parts = .ok place := by
  rw [locate] at hl
  split at hl
  · simp at hl
  · split at hl
    · simp at hl
    · rw [origin, Path.isAbsolute_ofString]
      exact walk_filter hl

theorem walk_of_locate_toString (h : p.WellFormed)
    (hp : t.locate directory p.toString = .ok place) :
    t.walk (origin directory p) p.parts = .ok place := by
  have hw := walk_of_locate hp
  rwa [Path.ofString_toString h] at hw

section Resolving

/-- One component further, where two points lead to the directory above. -/
def further (here : Place) (c : String) : Place := if c = ".." then here.dropLast else here ++ [c]

/-- One step of a walk leaves a directory, upwards or to something that is there. -/
theorem of_walk_part {c : String} (hc : Path.IsPart c) (h : t.walk here [c] = .ok place) :
    t.get? here = some .directory ∧ place = further here c ∧
      (c = ".." ∨ (t.get? (here ++ [c])).isSome = true) := by
  rw [walk] at h
  cases hn : t.get? here with
  | none => simp [hn] at h
  | some node =>
    cases node with
    | file content => simp [hn] at h
    | directory =>
      simp only [hn, hc.ne_empty, hc.ne_point, decide_false, Bool.or_self, Bool.false_eq_true,
        if_false] at h
      by_cases hup : c = ".."
      · rw [if_pos hup] at h
        exact ⟨rfl, by rw [further, if_pos hup]; exact (Except.ok.inj h).symm, .inl hup⟩
      · rw [if_neg hup] at h
        split at h
        · next hs =>
          exact ⟨rfl, by rw [further, if_neg hup]; exact (Except.ok.inj h).symm, .inr hs⟩
        · simp at h

/-- A walk that arrives went where its components say, whatever the tree. -/
theorem walk_eq_foldl {cs : List String} (hcs : ∀ c ∈ cs, Path.IsPart c)
    (h : t.walk here cs = .ok place) : place = cs.foldl further here := by
  induction cs generalizing here with
  | nil => exact (Except.ok.inj h).symm
  | cons c cs ih =>
    rw [List.forall_mem_cons] at hcs
    rw [walk] at h
    cases hn : t.get? here with
    | none => simp [hn] at h
    | some node =>
      cases node with
      | file content => simp [hn] at h
      | directory =>
        simp only [hn, hcs.1.ne_empty, hcs.1.ne_point, decide_false, Bool.or_self,
          Bool.false_eq_true, if_false] at h
        rw [List.foldl_cons, further]
        split at h
        · next hup => rw [if_pos hup]; exact ih hcs.2 h
        · next hup =>
          rw [if_neg hup]
          split at h
          · exact ih hcs.2 h
          · simp at h

theorem foldl_further_of_not_mem {cs : List String} (h : ".." ∉ cs) (here : Place) :
    cs.foldl further here = here ++ cs := by
  induction cs generalizing here with
  | nil => simp
  | cons c cs ih =>
    rw [List.mem_cons, not_or] at h
    rw [List.foldl_cons, ih h.2, further, if_neg (Ne.symm h.1), List.append_assoc]
    rfl

/-- What a path names lies where the path says it does, seen from a directory that is given by its
names. -/
theorem locate_eq_resolve (h : p.WellFormed) (hd : ".." ∉ directory)
    (hl : t.locate directory p.toString = .ok place) : place = (p.resolve directory).parts := by
  rw [walk_eq_foldl h.parts (walk_of_locate_toString h hl), origin]
  have hnormalize : ∀ parts, Path.normalize parts = parts.foldl further [] := fun _ => rfl
  rw [Path.resolve, Path.ofAbsolute, Path.absoluteParts, hnormalize]
  split
  · rfl
  · rw [List.foldl_append, foldl_further_of_not_mem hd, List.nil_append]

end Resolving

end FileTree

end StoredRoutine
