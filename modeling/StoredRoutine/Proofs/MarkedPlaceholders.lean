import StoredRoutine.Proofs.Records
import StoredRoutine.Proofs.Resolution
import StoredRoutine.Proofs.Substitution

/-!
Error markup around the placeholders without value, and the view of a source that has some.
-/
namespace StoredRoutine

/-!
Error markup around the placeholders without value. The scanner takes known and unknown placeholders
alike, the pass that marks them takes the unknown ones alone: it may find one that opens with the at
sign that closes a known placeholder. It marks what the scanner found as unknown exactly if this
happens nowhere; it keeps the lines in any case.
-/

theorem Text.length_lines (t : Text) : t.lines.length = t.count '\n' + 1 := by
  rw [lines, List.splitOn_eq_splitOnP]
  induction t with
  | nil => rfl
  | cons c t ih =>
    rw [List.splitOnP_cons_eq_if_modifyHead, List.count_cons]
    split
    · rw [List.length_cons, ih]
    · rw [List.length_modifyHead, ih, Nat.add_zero]

namespace Placeholder

/-- A placeholder with error markup around it. -/
def marked (p : Text) : Text := errorOpen ++ p ++ errorClose

/-- What is shown of a piece of a source: a placeholder without value with markup, all else as it
is written. -/
def Piece.shown (pairs : Pairs) : Piece → Text
  | .plain c => [c]
  | .placeholder p => if value? pairs p = none then marked p else p

/-- A text with error markup around those of its placeholders that have no value. -/
def markedText (pairs : Pairs) (t : Text) : Text := (pieces t).flatMap (·.shown pairs)

/-- Nowhere does an unknown placeholder open with the at sign that closes a known one. -/
def InStep (pairs : Pairs) (unknown : List Text) (ps : List Piece) : Prop :=
  ∀ p after, .placeholder p :: after <:+ ps → value? pairs p ≠ none →
    ∀ q ∈ unknown, ¬ q <+: '@' :: after.flatMap (·.text)

section InStep

variable {pairs : Pairs} {unknown : List Text} {ps : List Piece}

theorem inStep_nil : InStep pairs unknown [] := by
  intro p after h
  cases List.suffix_nil.1 h

theorem inStep_plain {c : Char} :
    InStep pairs unknown (.plain c :: ps) ↔ InStep pairs unknown ps := by
  constructor
  · exact fun h p after hs => h p after (hs.trans (List.suffix_cons _ _))
  · intro h p after hs
    rcases List.suffix_cons_iff.1 hs with he | hs
    · cases he
    · exact h p after hs

theorem inStep_placeholder {p : Text} :
    InStep pairs unknown (.placeholder p :: ps) ↔
      (value? pairs p ≠ none → ∀ q ∈ unknown, ¬ q <+: '@' :: ps.flatMap (·.text)) ∧
        InStep pairs unknown ps := by
  constructor
  · intro h
    exact ⟨h p ps List.suffix_rfl, fun q after hs => h q after (hs.trans (List.suffix_cons _ _))⟩
  · rintro ⟨hp, h⟩ q after hs
    rcases List.suffix_cons_iff.1 hs with he | hs
    · obtain ⟨hq, rfl⟩ := List.cons.inj he
      obtain rfl := Piece.placeholder.inj hq
      exact hp
    · exact h q after hs

end InStep

section Marking

variable {pairs : Pairs} {unknown : List Text}

/-- What marking replaces. -/
def markup (unknown : List Text) : OrderedMap Text Text :=
  .ofList (unknown.map fun p => (p, marked p))

theorem markUnresolved_eq (unknown : List Text) (t : Text) :
    markUnresolved unknown t = substitute (markup unknown) t := rfl

theorem get?_markup (unknown : List Text) (p : Text) :
    (markup unknown).get? p = if p ∈ unknown then some (marked p) else none := by
  have h : ∀ e ∈ unknown.map (fun p => (p, marked p)), (some ∘ marked) e.1 = some e.2 := by
    intro e he
    obtain ⟨q, -, rfl⟩ := List.mem_map.1 he
    rfl
  rw [markup, OrderedMap.ofList, OrderedMap.get?_insertMany h]
  simp

theorem mem_keys_markup {p : Text} : p ∈ (markup unknown).keys ↔ p ∈ unknown := by
  rw [OrderedMap.mem_keys_iff, get?_markup]
  simp

theorem head?_marked (p t : Text) : (marked p ++ t).head? = some '<' := rfl

theorem count_newline_marked (p : Text) : (marked p).count '\n' = p.count '\n' := by
  have hopen : errorOpen.count '\n' = 0 := by decide
  have hclose : errorClose.count '\n' = 0 := by decide
  rw [marked, List.count_append, List.count_append, hopen, hclose, Nat.zero_add, Nat.add_zero]

/-- Marking leaves the number of lines as it is. -/
theorem length_lines_markUnresolved (unknown : List Text) (t : Text) :
    (markUnresolved unknown t).lines.length = t.lines.length := by
  rw [Text.length_lines, Text.length_lines, markUnresolved_eq]
  congr 1
  refine (replaced_substitute _ t).count_eq fun p v hv => ?_
  rw [get?_markup] at hv
  split at hv
  · rw [← Option.some.inj hv, count_newline_marked]
  · cases hv

variable (hu : ∀ q ∈ unknown, IsPlaceholder q)

include hu

theorem markUnresolved_of_mem {p : Text} (hp : p ∈ unknown) (t : Text) :
    markUnresolved unknown (p ++ t) = marked p ++ markUnresolved unknown t :=
  substitute_placeholder (fun k hk => hu k (mem_keys_markup.1 hk))
    (by rw [get?_markup, if_pos hp]) t

theorem markUnresolved_of_not_opened {c : Char} {t : Text} (h : c = '@' → opened? t = none) :
    markUnresolved unknown (c :: t) = c :: markUnresolved unknown t :=
  substitute_of_not_opened (fun k hk => hu k (mem_keys_markup.1 hk)) h

omit hu in
theorem markUnresolved_cons {c : Char} {t : Text} (h : ∀ q ∈ unknown, ¬ q <+: c :: t) :
    markUnresolved unknown (c :: t) = c :: markUnresolved unknown t :=
  substitute_plain fun k hk _ => h k (mem_keys_markup.1 hk)

/-- A known placeholder is copied up to its closing at sign, where the pass stands then: it goes on
behind that sign, as the scanner does, exactly if no unknown placeholder opens there. -/
theorem markUnresolved_known_iff {p : Text} (hp : IsPlaceholder p) (hm : p ∉ unknown) (t r : Text) :
    markUnresolved unknown (p ++ t) = p ++ r ↔
      (∀ q ∈ unknown, ¬ q <+: '@' :: t) ∧ markUnresolved unknown t = r := by
  have hno : ∀ q ∈ unknown, ¬ q <+: p ++ t := by
    intro q hq hpre
    rw [(hu q hq).eq_of_prefixes hp hpre (List.prefix_append p t)] at hq
    exact hm hq
  obtain ⟨inner, rfl, hi⟩ := hp.exists_inner
  have hinner : markUnresolved unknown (inner ++ '@' :: t) =
      inner ++ markUnresolved unknown ('@' :: t) :=
    substitute_of_not_mem (fun k hk => hu k (mem_keys_markup.1 hk)) hi _
  simp only [List.cons_append, List.append_assoc, List.nil_append] at hno ⊢
  rw [markUnresolved_cons hno, hinner, List.cons.injEq, List.append_right_inj]
  by_cases hq : ∃ q ∈ unknown, q <+: '@' :: t
  · -- markup takes the place of the at sign
    obtain ⟨q, hq, u, hqu⟩ := hq
    refine iff_of_false (fun h => ?_) fun h => h.1 q hq ⟨u, hqu⟩
    have hhead := congrArg List.head? h.2
    rw [← hqu, markUnresolved_of_mem hu hq, head?_marked] at hhead
    cases hhead
  · have hno : ∀ q ∈ unknown, ¬ q <+: '@' :: t := fun q hm hpre => hq ⟨q, hm, hpre⟩
    rw [markUnresolved_cons hno, List.cons.injEq]
    exact ⟨fun h => ⟨hno, h.2.2⟩, fun h => ⟨rfl, rfl, h.2⟩⟩

/-- The pass marks what the scanner found without value exactly if the two stay in step. -/
theorem markUnresolved_eq_markedText_iff (t : Text)
    (ht : ∀ p ∈ find t, value? pairs p = none ↔ p ∈ unknown) :
    markUnresolved unknown t = markedText pairs t ↔ InStep pairs unknown (pieces t) := by
  rw [markedText]
  induction t using scan_induction with
  | nil =>
    rw [pieces]
    exact iff_of_true (substitute_nil _) inStep_nil
  | placeholder p rest hp ih =>
    rw [find_of_isPlaceholder hp, List.forall_mem_cons] at ht
    obtain ⟨hvalue, ht⟩ := ht
    rw [pieces_of_isPlaceholder hp, inStep_placeholder, flatMap_text_pieces, ← ih ht,
      List.flatMap_cons, Piece.shown]
    by_cases hm : p ∈ unknown
    · have hnone := hvalue.2 hm
      rw [markUnresolved_of_mem hu hm, if_pos hnone, List.append_right_inj]
      exact (and_iff_right fun h => absurd hnone h).symm
    · have hsome : value? pairs p ≠ none := fun h => hm (hvalue.1 h)
      rw [if_neg hsome, markUnresolved_known_iff hu hp hm, forall_prop_of_true hsome]
  | plain c t ho ih =>
    rw [find_of_not_opened ho] at ht
    rw [pieces_of_not_opened ho, inStep_plain, ← ih ht, markUnresolved_of_not_opened hu ho,
      List.flatMap_cons, Piece.shown]
    simp

end Marking

section Sample

/-- A value for one placeholder only. -/
def halfKnownPairs : Pairs := .ofList [("@A@".toList, some "x".toList)]

theorem value?_halfKnown :
    value? halfKnownPairs "@A@".toList ≠ none ∧ value? halfKnownPairs "@B@".toList = none := by
  decide +kernel

/-- The unknown placeholder stands apart from the known one. -/
def apartText : Text := "@A@,\n@B@".toList

theorem pieces_apart :
    pieces apartText =
      [.placeholder "@A@".toList, .plain ',', .plain '\n', .placeholder "@B@".toList] := by
  decide +kernel

theorem mem_unknown_apart (p : Text) :
    p ∈ find apartText ∧ value? halfKnownPairs p = none ↔ p = "@B@".toList := by
  have hfind : find apartText = ["@A@".toList, "@B@".toList] := by rw [find, pieces_apart]; rfl
  rw [hfind, List.mem_cons, List.mem_singleton]
  constructor
  · rintro ⟨rfl | h, hv⟩
    · exact absurd hv value?_halfKnown.1
    · exact h
  · rintro rfl
    exact ⟨.inr rfl, value?_halfKnown.2⟩

theorem inStep_apart : InStep halfKnownPairs ["@B@".toList] (pieces apartText) := by
  rw [pieces_apart, inStep_placeholder, inStep_plain, inStep_plain, inStep_placeholder]
  exact ⟨fun _ => by decide, fun _ => by decide, inStep_nil⟩

theorem lines_markedText_apart :
    (markedText halfKnownPairs apartText).lines.map String.ofList =
      ["@A@,", "<error>@B@</error>"] := by
  decide +kernel

/-- The unknown placeholder also opens with the at sign that closes the known one. -/
def sharedSignText : Text := "select @A@B@B@".toList

theorem find_sharedSign : find sharedSignText = ["@A@".toList, "@B@".toList] := by
  decide +kernel

theorem unknown_sharedSign :
    Text.sortedSet (resolve halfKnownPairs sharedSignText).unknown = ["@B@".toList] := by
  decide +kernel

/-- The pass marks what is no placeholder of the text, and then not the one that has no value. -/
theorem lines_marked_sharedSign :
    (markUnresolved ["@B@".toList] sharedSignText).lines.map String.ofList =
        ["select @A<error>@B@</error>B@"] ∧
      (markedText halfKnownPairs sharedSignText).lines.map String.ofList =
        ["select @A@B<error>@B@</error>"] := by
  decide +kernel

end Sample

end Placeholder

/-!
The source that a user is shown when placeholders have no value. Such a source is loaded no further
than that, and the view marks these placeholders and nothing else exactly if the pass that marks them
stays in step with the scanner.
-/

namespace Routine

open Placeholder

/-- A text with unknown placeholders goes no further than resolving them. -/
theorem compile_of_unknown {pairs : Pairs} {text : Text} (hu : (resolve pairs text).unknown ≠ [])
    (directory : Place) (source : Source) :
    compile directory pairs source text = .error (.ofUnresolved (resolve pairs text).unknown) := by
  have hr : replacements pairs text = .error (.ofUnresolved (resolve pairs text).unknown) :=
    if_neg (by simpa using hu)
  rw [compile_eq_bind, hr, Outcome.error_bind]

/-- Whatever state a source with unknown placeholders is loaded in, the load fails on them and ends
by reporting a view of the source with as many lines, which marks the placeholders without value
and nothing else exactly if no unknown placeholder opens with the at sign that closes a known one. -/
theorem load_marks_unresolved_iff {σ : Type} [Host σ] (pairs : Pairs) (source : Source) (s : σ)
    {text : Text} (hp : source.path.contains '\x00' = false)
    (ht : (Host.files (announced source s)).HasText (Host.directory (announced source s))
      source.path text)
    (hu : ∃ p ∈ find text, value? pairs p = none) :
    ∃ (unknown : List Text) (view : Text),
      (∀ p, p ∈ unknown ↔ p ∈ find text ∧ value? pairs p = none) ∧
      load pairs source s = (.error (.unresolvedPlaceholders unknown),
        [Report.diagnostic (.text ["Unknown placeholder(s):"]),
          .diagnostic (.listing (unknown.map String.ofList)),
          .diagnostic (.text (view.lines.map String.ofList))].foldl (fun s r => Host.report r s)
            (announced source s)) ∧
      view.lines.length = text.lines.length ∧
      (view = markedText pairs text ↔ InStep pairs unknown (pieces text)) := by
  obtain ⟨p, hm, hv⟩ := hu
  have hr := (readSource_eq_ok_iff hp).2 ⟨ht, not_allBlank_of_mem_find hm⟩
  have hne : (resolve pairs text).unknown ≠ [] := List.ne_nil_of_mem (mem_unknown.2 ⟨hm, hv⟩)
  have hmem : ∀ p, p ∈ Text.sortedSet (resolve pairs text).unknown ↔
      p ∈ find text ∧ value? pairs p = none := fun p => by
    rw [← mem_unknown, Text.sortedSet, Text.sort, List.mem_mergeSort, List.mem_eraseDups]
  refine ⟨Text.sortedSet (resolve pairs text).unknown,
    markUnresolved (Text.sortedSet (resolve pairs text).unknown) text, hmem, ?_,
    length_lines_markUnresolved _ text, ?_⟩
  · rw [load_of_readable pairs source s hr, compile_of_unknown hne]
    rfl
  · refine markUnresolved_eq_markedText_iff (fun q hq => ?_) text fun q hq => ?_
    · exact isPlaceholder_of_mem_find ((hmem q).1 hq).1
    · rw [hmem]
      exact (and_iff_right hq).symm

section Sample

theorem load_marks_placeholder_apart :
    (loneWorkspace apartText).files.HasText [] "a.psql" apartText ∧
      (∃ p ∈ find apartText, value? halfKnownPairs p = none) ∧
      (load halfKnownPairs ⟨"a.psql", "a", none⟩ (loneWorkspace apartText)).2.reports.getLast? =
        some (.diagnostic (.text ["@A@,", "<error>@B@</error>"])) := by
  have hu : ∃ p ∈ find apartText, value? halfKnownPairs p = none :=
    ⟨"@B@".toList, (mem_unknown_apart _).2 rfl⟩
  obtain ⟨unknown, view, hmem, hload, -, hview⟩ :=
    load_marks_unresolved_iff halfKnownPairs ⟨"a.psql", "a", none⟩ (loneWorkspace apartText)
      (by simp) (hasText_loneWorkspace apartText) hu
  have hunknown : ∀ q ∈ unknown, q ∈ ["@B@".toList] := fun q hq =>
    List.mem_singleton.2 ((mem_unknown_apart q).1 ((hmem q).1 hq))
  obtain rfl := hview.2 fun p after hs hv q hq => inStep_apart p after hs hv q (hunknown q hq)
  refine ⟨hasText_loneWorkspace apartText, hu, ?_⟩
  rw [hload, lines_markedText_apart]
  rfl

/-- The pass marks what is no placeholder of the text, and then not the one that has no value. -/
theorem load_marks_across_shared_sign :
    find sharedSignText = ["@A@".toList, "@B@".toList] ∧
      value? halfKnownPairs "@B@".toList = none ∧
      (load halfKnownPairs ⟨"a.psql", "a", none⟩
        (loneWorkspace sharedSignText)).2.reports.getLast? =
          some (.diagnostic (.text ["select @A<error>@B@</error>B@"])) ∧
      (markedText halfKnownPairs sharedSignText).lines.map String.ofList =
        ["select @A@B<error>@B@</error>"] := by
  have hm : "@B@".toList ∈ find sharedSignText := by
    rw [find_sharedSign]
    exact List.mem_cons_of_mem _ (List.mem_singleton_self _)
  have hne : (resolve halfKnownPairs sharedSignText).unknown ≠ [] :=
    List.ne_nil_of_mem (mem_unknown.2 ⟨hm, value?_halfKnown.2⟩)
  refine ⟨find_sharedSign, value?_halfKnown.2, ?_, lines_marked_sharedSign.2⟩
  rw [load_of_readable halfKnownPairs ⟨"a.psql", "a", none⟩ (loneWorkspace sharedSignText)
      (readSource_loneWorkspace (by decide)),
    compile_of_unknown hne, ← lines_marked_sharedSign.1, ← unknown_sharedSign]
  rfl

end Sample

end Routine

end StoredRoutine
