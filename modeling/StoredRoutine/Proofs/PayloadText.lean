import StoredRoutine.Proofs.Loading
import StoredRoutine.Proofs.Substitution

/-!
The text that a routine is compiled to: every line of the payload with its placeholders replaced by
their values and the constants of that line replaced in the stretches between them.
-/
namespace StoredRoutine.Routine

open Placeholder (IsPlaceholder Separate compiledLine find)

/-- The constants on a line of a source, by the number of the line. -/
def constantsOn (directory : Place) (source : Source) (number : Nat) : List (Text × Text) :=
  let path := (Path.ofString source.path).resolve directory
  [("__FILE__".toList, Literal.string path.toString.toList),
    ("__DIR__".toList, Literal.string path.parent.toString.toList),
    ("__ROUTINE__".toList, Literal.string source.routineName.toList),
    ("__LINE__".toList, (toString number).toList)]

def constantNames : List Text :=
  ["__FILE__", "__DIR__", "__ROUTINE__", "__LINE__"].map String.toList

section Constants

variable {directory : Place} {source : Source} {number : Nat}

theorem map_fst_constantsOn (directory : Place) (source : Source) (number : Nat) :
    (constantsOn directory source number).map Prod.fst = constantNames := rfl

theorem separate_constantsOn : Separate (constantsOn directory source number) := by
  have hn : ∀ k ∈ constantNames, k ≠ [] ∧ '@' ∉ k := by decide
  have hp : ∀ k ∈ constantNames, ∀ k' ∈ constantNames, k <+: k' → k = k' := by decide
  have hd : ((constantsOn directory source number).map Prod.fst).Nodup := by
    rw [map_fst_constantsOn]
    decide
  have hk : ∀ e ∈ constantsOn directory source number, e.1 ∈ constantNames := fun e he => by
    rw [← map_fst_constantsOn directory source number]
    exact List.mem_map_of_mem he
  refine ⟨fun e he => (hn _ (hk e he)).1, fun e he => (hn _ (hk e he)).2, ?_⟩
  intro e he e' he' h
  have hfst : e.1 = e'.1 := hp _ (hk e he) _ (hk e' he') h
  have hsnd : some e.2 = some e'.2 := by
    rw [← (OrderedMap.lookup_eq_some_iff hd).2 he, ← (OrderedMap.lookup_eq_some_iff hd).2 he', hfst]
  exact Prod.ext hfst (Option.some.inj hsnd)

theorem map_fst_magicConstants :
    (magicConstants directory source).map Prod.fst =
      [fileConstant, routineConstant, directoryConstant] := rfl

/-- The constants of a line are those of all lines and its number. -/
theorem mem_constantsOn {e : Text × Text} :
    e ∈ constantsOn directory source number ↔
      e ∈ magicConstants directory source ∨ e = (lineConstant, (toString number).toList) := by
  have h : ∀ a b c d : Text × Text, e ∈ [a, b, c, d] ↔ e ∈ [a, c, b] ∨ e = d := by
    intro a b c d
    simp only [List.mem_cons, List.not_mem_nil, or_false]
    constructor
    · rintro (h | h | h | h) <;> simp [h]
    · rintro ((h | h | h) | h) <;> simp [h]
  exact h _ _ _ _

end Constants

theorem integer_lineNumber (offset index : Nat) :
    Literal.integer (lineNumber index offset) = (toString (offset + index + 1)).toList := by
  rfl

section Table

variable {directory : Place} {source : Source} {pairs : Placeholder.Pairs} {text : Text}
  {value : Text → Text}

/-- No placeholder is a constant: it begins with an at sign. -/
theorem not_constant_of_mem_find {p : Text} (h : p ∈ find text) : p ∉ constantNames := by
  obtain ⟨name, suffix, -, -, -, rfl⟩ := Placeholder.isPlaceholder_of_mem_find h
  have hc : ∀ k ∈ constantNames, k.head? ≠ some '@' := by decide
  intro hm
  exact hc _ hm rfl

/-- What is replaced on a payload line: its constants, and the placeholders of the whole text. -/
theorem mem_longestFirst_lineReplacements (offset index : Nat)
    (hv : ∀ p ∈ find text, pairs.get? p.upper = some (some (value p))) (e : Text × Text) :
    e ∈ Placeholder.longestFirst (lineReplacements
        ((Placeholder.resolve pairs text).replacements.insertMany
          (magicConstants directory source)) offset index).entries ↔
      e ∈ constantsOn directory source (offset + index + 1) ∨
        e.1 ∈ find text ∧ e.2 = value e.1 := by
  obtain ⟨k, v⟩ := e
  have hd : ((magicConstants directory source).map Prod.fst).Nodup := by
    rw [map_fst_magicConstants]
    decide
  have hl : lineConstant ∉ (magicConstants directory source).map Prod.fst := by
    rw [map_fst_magicConstants]
    decide
  have hline : lineConstant ∈ constantNames := by decide
  have hmagic : ∀ c ∈ (magicConstants directory source).map Prod.fst, c ∈ constantNames := by
    rw [map_fst_magicConstants]
    decide
  have hvalue : k ∈ find text → (Placeholder.value? pairs k = some v ↔ v = value k) := by
    intro hm
    rw [Placeholder.value?_eq_some_iff, hv k hm]
    simp [eq_comm]
  rw [Placeholder.longestFirst, List.mem_mergeSort, ← OrderedMap.get?_eq_some_iff, mem_constantsOn,
    lineReplacements, OrderedMap.get?_insert, integer_lineNumber]
  by_cases hkl : k = lineConstant
  · have hm : k ∉ find text := fun hm => not_constant_of_mem_find hm (hkl ▸ hline)
    have hn : (k, v) ∉ magicConstants directory source := fun h =>
      hl (hkl ▸ List.mem_map_of_mem h)
    rw [if_pos hkl]
    constructor
    · intro h
      exact .inl (.inr (by rw [hkl, Option.some.inj h]))
    · rintro ((h | h) | h)
      · exact absurd h hn
      · rw [(Prod.mk.inj h).2]
      · exact absurd h.1 hm
  · rw [if_neg hkl, OrderedMap.get?_insertMany_eq_some_iff hd, Placeholder.get?_replacements]
    constructor
    · rintro (h | ⟨-, h⟩)
      · exact .inl (.inl h)
      · by_cases hm : k ∈ find text
        · rw [if_pos hm] at h
          exact .inr ⟨hm, (hvalue hm).1 h⟩
        · simp [hm] at h
    · rintro ((h | h) | ⟨hm, h⟩)
      · exact .inl h
      · exact absurd (Prod.mk.inj h).1 hkl
      · refine .inr ⟨fun hc => not_constant_of_mem_find hm (hmagic _ hc), ?_⟩
        rw [if_pos hm]
        exact (hvalue hm).2 h

/-- Substituting in the lines of a payload compiles each of them. -/
theorem mapIdx_substitute (offset : Nat) {payload : List Text}
    (hp : ∀ line ∈ payload, line ∈ text.lines)
    (hv : ∀ p ∈ find text, pairs.get? p.upper = some (some (value p))) :
    (payload.mapIdx fun index line => Placeholder.substitute (lineReplacements
        ((Placeholder.resolve pairs text).replacements.insertMany (magicConstants directory source))
        offset index) line) =
      payload.mapIdx fun index line =>
        compiledLine value (constantsOn directory source (offset + index + 1)) line := by
  rw [List.mapIdx_eq_mapIdx_iff]
  intro index hi
  rw [Placeholder.substitute_eq_replaceIn]
  refine Placeholder.replaceIn_eq_compiledLine separate_constantsOn
    (fun p => Placeholder.isPlaceholder_of_mem_find)
    (mem_longestFirst_lineReplacements offset index hv) _ ?_
  intro p hm
  rw [← Placeholder.flatMap_find_lines]
  exact List.mem_flatMap.2 ⟨_, hp _ (List.getElem_mem hi), hm⟩

theorem substitutePayload_eq (offset : Nat) {payload : List Text}
    (hp : ∀ line ∈ payload, line ∈ text.lines)
    (hv : ∀ p ∈ find text, pairs.get? p.upper = some (some (value p))) :
    substitutePayload ((Placeholder.resolve pairs text).replacements.insertMany
        (magicConstants directory source)) offset payload =
      .ofLines (payload.mapIdx fun index line =>
        compiledLine value (constantsOn directory source (offset + index + 1)) line) := by
  rw [substitutePayload, mapIdx_substitute offset hp hv]

end Table

/-- A routine that loads is compiled line by line: on each line of the payload the placeholders
that the scanner finds there give their values, which are not looked at again, the stretches between
them have their constants replaced, and all else stays. -/
theorem load_source_eq_compiledLines {σ : Type} [Host σ] {pairs : Placeholder.Pairs}
    {source : Source} {s : σ} {m : Metadata} (h : (load pairs source s).1 = .ok m) :
    ∃ (text : Text) (value : Text → Text),
      (Host.files (announced source s)).HasText (Host.directory (announced source s)) source.path
        text ∧
      (∀ p ∈ find text, pairs.get? p.upper = some (some (value p))) ∧
      text.lines.flatMap find = find text ∧ m.payloadOffset = offsetOf text ∧
      m.source = .ofLines ((text.lines.drop m.payloadOffset).mapIdx fun index line =>
        compiledLine value (constantsOn (Host.directory (announced source s)) source
          (m.payloadOffset + index + 1)) line) := by
  rw [load_fst, outcomeIn, Outcome.bind_eq_ok_iff] at h
  obtain ⟨text, hr, hc⟩ := h
  have ht := ((readSource_eq_ok_iff (contains_nul_of_readSource hr)).1 hr).1
  obtain ⟨replace, d, type, documented, hreplace, -, -, -, -, rfl⟩ := compile_eq_ok_iff.1 hc
  obtain ⟨hu, rfl⟩ := replacements_eq_ok_iff.1 hreplace
  have hv : ∀ p ∈ find text,
      pairs.get? p.upper = some (some ((Placeholder.value? pairs p).getD [])) :=
    fun p hp => Placeholder.get?_eq_value (hu p hp)
  refine ⟨text, _, ht, hv, Placeholder.flatMap_find_lines text, rfl, ?_⟩
  exact substitutePayload_eq (offsetOf text) (fun line => List.mem_of_mem_drop) hv

section Sample

/-- A payload line with placeholders and constants that share characters. -/
def sharedLine : Text := "@A@B@ __FILE__LINE__ __LINE__".toList

def sharedText : Text := "/**\n@type none\n*/\n".toList ++ sharedLine

def sharedWorkspace : Workspace :=
  ⟨(∅ : FileTree).put ["a.psql"] (.file (Utf8.encode sharedText)), [], []⟩

def sharedPairs : Placeholder.Pairs := .ofList [("@A@".toList, some "__LINE__".toList)]

/-- Of two placeholders that share an at sign the first counts, of two constants that share
underscores likewise, and a value that reads like a constant stays. -/
theorem load_source_of_shared :
    ∃ m, (load sharedPairs ⟨"a.psql", "a", none⟩ sharedWorkspace).1 = .ok m ∧
      m.source = "__LINE__B@ '/a.psql'LINE__ 4".toList := by
  have ht : sharedWorkspace.files.HasText [] "a.psql" sharedText :=
    ⟨["a.psql"], by cbv, by decide +kernel⟩
  have hc : (compile [] sharedPairs ⟨"a.psql", "a", none⟩ sharedText).isOk = true := by
    decide +kernel
  obtain ⟨m, hm⟩ : ∃ m, (load sharedPairs ⟨"a.psql", "a", none⟩ sharedWorkspace).1 = .ok m := by
    rw [load_fst_of_quiet]
    change ∃ m, outcomeIn sharedWorkspace.files [] sharedPairs ⟨"a.psql", "a", none⟩ = .ok m
    rw [outcomeIn_of_hasText ht (by decide) (by cbv)]
    exact Outcome.exists_of_isOk hc
  refine ⟨m, hm, ?_⟩
  obtain ⟨text, value, ht', hv, -, ho, hs⟩ := load_source_eq_compiledLines hm
  obtain rfl := ht.unique ht'
  have hvalue : value "@A@".toList = "__LINE__".toList := by
    have h := hv "@A@".toList (by decide +kernel)
    have hg : sharedPairs.get? (Text.upper "@A@".toList) = some (some "__LINE__".toList) := by
      decide +kernel
    rw [hg] at h
    exact (Option.some.inj (Option.some.inj h)).symm
  have ho : m.payloadOffset = 3 := by
    rw [ho]
    decide +kernel
  have hl : sharedText.lines.drop 3 = [sharedLine] := by decide +kernel
  have hp : Placeholder.stretches (Placeholder.pieces sharedLine) =
      ([], [("@A@".toList, "B@ __FILE__LINE__ __LINE__".toList)]) := by decide +kernel
  rw [hs, ho, hl]
  simp only [List.mapIdx_cons, List.mapIdx_nil, compiledLine, hp, List.flatMap_cons,
    List.flatMap_nil, hvalue]
  cbv

end Sample

end StoredRoutine.Routine
