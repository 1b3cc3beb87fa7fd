import StoredRoutine.DocBlock
import StoredRoutine.Parameter
import StoredRoutine.Proofs.OrderedMap
import StoredRoutine.Proofs.Trimming

/-!
What tags say about parameters: their arguments, the parameters that they document, and when those
agree with the bind markers of a routine.
-/
namespace StoredRoutine

/-!
The arguments of the tags in a DocBlock: a registered argument of a tag is the word of its content
at the position of the argument, and empty if there are not so many words. A word is never empty
and holds no blank.
-/

namespace Text

theorem ne_nil_of_mem_words {t w : Text} (h : w ∈ t.words) : w ≠ [] := by
  have h := (List.mem_filter.1 h).2
  simpa using h

theorem not_isBlank_of_mem_words {t w : Text} (h : w ∈ t.words) : ∀ c ∈ w, isBlank c = false :=
  class_of_mem_splitOnP (List.mem_filter.1 h).1

theorem dropWhile_isBlank {t : Text} (h : ∀ c ∈ t, isBlank c = false) :
    t.dropWhile isBlank = t := by
  cases t with
  | nil => rfl
  | cons a t => rw [List.dropWhile_cons_of_neg (by simp [h a List.mem_cons_self])]

/-- Nothing is trimmed from a text without blanks. -/
theorem trim_eq_self {t : Text} (h : ∀ c ∈ t, isBlank c = false) : t.trim = t := by
  have hr : ∀ c ∈ t.reverse, isBlank c = false := fun c hc => h c (List.mem_reverse.1 hc)
  rw [trim, trimLeft, dropWhile_isBlank h, trimRight, dropWhile_isBlank hr, List.reverse_reverse]

end Text

namespace DocBlock

/-- The arguments get the words at their positions. -/
theorem assign_eq_mapIdx (arguments words : List Text) :
    assign arguments words = arguments.mapIdx fun i a => (a, words[i]?.getD []) := by
  induction arguments generalizing words with
  | nil => rfl
  | cons a as ih => cases words <;> simp [assign, ih, List.mapIdx_cons]

theorem keys_assign (arguments words : List Text) :
    (assign arguments words).map Prod.fst = arguments := by
  rw [assign_eq_mapIdx]
  exact List.ext_getElem (by simp) fun i h h' => by simp

theorem mem_assign {arguments : List Text} {a : Text} (words : List Text) (ha : a ∈ arguments) :
    (a, words[arguments.idxOf a]?.getD []) ∈ assign arguments words := by
  rw [assign_eq_mapIdx, List.mem_mapIdx]
  exact ⟨arguments.idxOf a, List.idxOf_lt_length_iff.2 ha, by rw [List.getElem_idxOf]⟩

section Registered

variable {schemas : Schemas} {name : Text} {arguments : List Text}

theorem argument_parse {a : Text} (content : Text) (hs : schemas.get? name = some arguments)
    (hd : arguments.Nodup) (ha : a ∈ arguments) :
    (Tag.parse schemas name content).argument a =
      (Tag.parse schemas name content).content.words[arguments.idxOf a]?.getD [] := by
  have hk : ((assign arguments content.trim.words).map Prod.fst).Nodup := by rwa [keys_assign]
  simp only [Tag.parse, hs, Tag.argument]
  rw [(OrderedMap.get?_ofList_eq_some_iff hk).2 (mem_assign _ ha), Option.getD_some]

theorem exists_parse_of_mem_tags {lines : List Text} {tag : Tag}
    (h : tag ∈ (extract schemas lines).tags) :
    ∃ content, tag = Tag.parse schemas tag.name content := by
  have hn : ∀ name content, (Tag.parse schemas name content).name = name := by
    intro name content
    simp only [Tag.parse]
    split <;> rfl
  simp only [extract] at h
  split at h
  · simp at h
  · obtain ⟨⟨name, ls⟩, -, rfl⟩ := List.mem_map.1 h
    exact ⟨.ofLines ls, by rw [hn]⟩

/-- An argument of a tag that is registered for it is the word at its position. -/
theorem argument_eq_word (arguments : List Text) {lines : List Text} {tag : Tag} {a : Text}
    (h : tag ∈ (extract schemas lines).tagsNamed name) (hs : schemas.get? name = some arguments)
    (hd : arguments.Nodup) (ha : a ∈ arguments) :
    tag.argument a = tag.content.words[arguments.idxOf a]?.getD [] := by
  obtain ⟨hm, hn⟩ := List.mem_filter.1 h
  obtain ⟨content, he⟩ := exists_parse_of_mem_tags hm
  rw [eq_of_beq hn] at he
  rw [he]
  exact argument_parse content hs hd ha

end Registered

section Standard

variable {lines : List Text} {tag : Tag}

theorem designation_argument (h : tag ∈ (extract standardSchemas lines).tagsNamed typeTag) :
    tag.argument typeArgument = tag.content.words.head?.getD [] := by
  rw [argument_eq_word [typeArgument] h (by decide) (by decide) (by decide)]
  rw [List.head?_eq_getElem?]
  rfl

theorem returnType_argument (h : tag ∈ (extract standardSchemas lines).tagsNamed returnTag) :
    tag.argument typeArgument = tag.content.words.head?.getD [] := by
  rw [argument_eq_word [typeArgument] h (by decide) (by decide) (by decide)]
  rw [List.head?_eq_getElem?]
  rfl

theorem parameterName_argument (h : tag ∈ (extract standardSchemas lines).tagsNamed paramTag) :
    tag.argument nameArgument = tag.content.words[1]?.getD [] := by
  rw [argument_eq_word [typeArgument, nameArgument] h (by decide) (by decide)
    (by decide)]
  rfl

end Standard

end DocBlock

/-!
Which parameters tags document, and when they agree with the bind markers of a routine: both sides
must have the same names, however often and in whatever order.
-/

namespace Parameter

open DocBlock (Tag)

theorem markerName_nil : markerName [] = [] := rfl

theorem markerName_ne_nil {w : Text} (hw : w ≠ []) (hb : ∀ c ∈ w, isBlank c = false) :
    markerName w ≠ [] := by
  rw [markerName, Text.trim_eq_self hb]
  split <;> simp_all

/-- One more tag counts only if it names a parameter that no tag before it names. -/
theorem documented_concat (tags : List Tag) (tag : Tag) :
    documented (tags ++ [tag]) = match Documented.ofTag? tag with
      | none => documented tags
      | some d =>
        if d.name ∈ (documented tags).map (·.name) then documented tags
        else documented tags ++ [d] := by
  rw [documented, List.filterMap_append, List.foldl_append, ← documented]
  cases h : Documented.ofTag? tag with
  | none => rw [List.filterMap_cons_none h, List.filterMap_nil, List.foldl_nil]
  | some d =>
    rw [List.filterMap_cons_some h, List.filterMap_nil, List.foldl_cons, List.foldl_nil]
    simp only [List.any_eq_true, beq_iff_eq, List.mem_map]

theorem names_documented (tags : List Tag) :
    (documented tags).map (·.name) =
      ((tags.filterMap Documented.ofTag?).map (·.name)).eraseDups := by
  induction tags using List.reverseRecOn with
  | nil => rfl
  | append_singleton tags tag ih =>
    rw [documented_concat, List.filterMap_append, List.map_append]
    cases h : Documented.ofTag? tag with
    | none => rw [List.filterMap_cons_none h, List.filterMap_nil, List.map_nil, List.append_nil, ih]
    | some d =>
      rw [List.filterMap_cons_some h, List.filterMap_nil, List.map_singleton, eraseDups_concat]
      simp only [apply_ite (List.map _), List.map_append, ih, List.map_singleton, List.mem_eraseDups]

theorem ofTag?_eq_some_iff {tag : Tag} {d : Documented} :
    Documented.ofTag? tag = some d ↔ markerName (tag.argument DocBlock.nameArgument) ≠ [] ∧
      d = ⟨markerName (tag.argument DocBlock.nameArgument),
        tag.argument DocBlock.typeArgument, tag.description⟩ := by
  unfold Documented.ofTag?
  split
  · next h => simp [h]
  · next h =>
    constructor
    · intro he
      exact ⟨h, (Option.some.inj he).symm⟩
    · rintro ⟨-, rfl⟩
      rfl

theorem mem_names_documented {tags : List Tag} {name : Text} :
    name ∈ (documented tags).map (·.name) ↔
      name ≠ [] ∧ ∃ tag ∈ tags, markerName (tag.argument DocBlock.nameArgument) = name := by
  rw [names_documented, List.mem_eraseDups, List.mem_map]
  constructor
  · rintro ⟨d, hd, rfl⟩
    obtain ⟨tag, ht, ho⟩ := List.mem_filterMap.1 hd
    obtain ⟨hn, rfl⟩ := ofTag?_eq_some_iff.1 ho
    exact ⟨hn, tag, ht, rfl⟩
  · rintro ⟨hn, tag, ht, rfl⟩
    exact ⟨_, List.mem_filterMap.2 ⟨tag, ht, ofTag?_eq_some_iff.2 ⟨hn, rfl⟩⟩, rfl⟩

theorem isEmpty_compare (discovered : List Text) (ds : List Documented) :
    (compare discovered ds).isEmpty = true ↔
      ∀ name, name ∈ discovered ↔ name ∈ ds.map (·.name) := by
  simp only [Mismatch.isEmpty, compare, Bool.and_eq_true, List.isEmpty_iff, List.filter_eq_nil_iff,
    Bool.not_eq_true', Bool.not_eq_false, List.contains_iff_mem]
  constructor
  · rintro ⟨h₁, h₂⟩ name
    exact ⟨h₁ name, h₂ name⟩
  · intro h
    exact ⟨fun name => (h name).1, fun name => (h name).2⟩

end Parameter

end StoredRoutine
