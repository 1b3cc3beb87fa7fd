import StoredRoutine.Proofs.CaseVariants
import StoredRoutine.Proofs.DataModel
import StoredRoutine.Proofs.GroupedLines
import StoredRoutine.Proofs.ParameterAgreement

/-!
The types of documented parameters. Placeholders are looked for in the whole source, but only the
payload has them replaced, so the types in a record are those that the tags are written with. What a
tag is read from is cut out of the source at blanks and at decoration, and no placeholder reaches over
such a cut: each placeholder in a type is one of the source, and has a value if the routine loads.
-/
namespace StoredRoutine

/-- The words on either side of a blank. -/
theorem Text.words_append_blank {b : Char} (hb : isBlank b = true) (t u : Text) :
    words (t ++ b :: u) = t.words ++ u.words := by
  rw [words, List.splitOnP_append_cons t u hb, List.filter_append]
  rfl

namespace Placeholder

open DocBlock (SetOff)

section Cuts

variable {t u : Text}

theorem find_append_setOff (t : Text) (h : SetOff u) : find (t ++ u) = find t ++ find u := by
  cases u with
  | nil => simp
  | cons b u =>
    have hb : isBlank b = true := h b rfl
    have hblank := find_append_blank hb [] u
    rw [List.nil_append, find_nil, List.nil_append] at hblank
    rw [find_append_blank hb, hblank]

theorem find_trimLeft (t : Text) : find t.trimLeft = find t := by
  conv => rhs; rw [← t.indentation_append_trimLeft]
  exact (find_of_not_mem (not_mem_of_blank fun c => Text.mem_takeWhile) _).symm

theorem find_trimRight (t : Text) : find t.trimRight = find t := by
  obtain ⟨tail, htail, ht⟩ := t.exists_trimRight
  conv => rhs; rw [ht]
  exact (find_append_of_blank _ htail).symm

theorem find_trim (t : Text) : find t.trim = find t := by
  rw [Text.trim, find_trimRight, find_trimLeft]

theorem flatMap_find_word (h : ∀ c ∈ t, isBlank c = false) :
    (Text.words t).flatMap find = find t := by
  rw [Text.words, List.splitOnP_eq_singleton fun c hc => by simp [h c hc]]
  cases t <;> simp

/-- The placeholders of all words are those of the text. -/
theorem flatMap_find_words (t : Text) : t.words.flatMap find = find t := by
  -- the induction passes over a word before it comes to the blank that ends it
  suffices h : ∀ passed : Text, (∀ c ∈ passed, isBlank c = false) →
      (Text.words (passed ++ t)).flatMap find = find (passed ++ t) from h [] (by simp)
  induction t with
  | nil =>
    intro passed hp
    rw [List.append_nil]
    exact flatMap_find_word hp
  | cons c t ih =>
    intro passed hp
    by_cases hc : isBlank c = true
    · have hrest : (Text.words t).flatMap find = find t := ih [] (by simp)
      rw [Text.words_append_blank hc, List.flatMap_append, flatMap_find_word hp, hrest,
        find_append_blank hc]
    · have hword : ∀ d ∈ passed ++ [c], isBlank d = false :=
        List.forall_mem_append.2 ⟨hp, List.forall_mem_singleton.2 (Bool.eq_false_iff.2 hc)⟩
      have hrest := ih (passed ++ [c]) hword
      rwa [List.append_assoc] at hrest

end Cuts

section Filled

variable {pairs : Pairs} {t : Text}

/-- Every placeholder has two at signs, so none is left where the values have none. -/
theorem count_at_filled (h : ∀ p ∈ find t, ∀ v, value? pairs p = some v → '@' ∉ v) :
    ((pieces t).flatMap (·.filled pairs)).count '@' + 2 * (find t).length = t.count '@' := by
  induction t using scan_induction with
  | nil => simp [pieces]
  | placeholder p rest hp ih =>
    rw [find_of_isPlaceholder hp, List.forall_mem_cons] at h
    obtain ⟨inner, hinner, hat⟩ := hp.exists_inner
    have hvalue : ((value? pairs p).getD []).count '@' = 0 := by
      cases hv : value? pairs p with
      | none => rfl
      | some v => exact List.count_eq_zero.2 (h.1 v hv)
    have htwo : p.count '@' = 2 := by
      rw [hinner]
      simp [List.count_eq_zero.2 hat]
    have ih := ih h.2
    rw [pieces_of_isPlaceholder hp, find_of_isPlaceholder hp, List.flatMap_cons, List.count_append,
      List.count_append, Piece.filled, hvalue, htwo, List.length_cons]
    omega
  | plain c t ho ih =>
    rw [find_of_not_opened ho] at h
    have ih := ih h
    rw [pieces_of_not_opened ho, find_of_not_opened ho, List.flatMap_cons, List.count_append,
      List.count_cons, Piece.filled, List.count_singleton]
    omega

theorem flatMap_filled_of_find_eq_nil (h : find t = []) :
    (pieces t).flatMap (·.filled pairs) = t := by
  induction t using scan_induction with
  | nil => simp [pieces]
  | placeholder p rest hp ih =>
    rw [find_of_isPlaceholder hp] at h
    cases h
  | plain c t ho ih =>
    rw [find_of_not_opened ho] at h
    rw [pieces_of_not_opened ho, List.flatMap_cons, ih h]
    rfl

theorem flatMap_filled_eq_self_iff
    (h : ∀ p ∈ find t, ∀ v, value? pairs p = some v → '@' ∉ v) :
    (pieces t).flatMap (·.filled pairs) = t ↔ find t = [] := by
  refine ⟨fun he => ?_, flatMap_filled_of_find_eq_nil⟩
  have hcount := count_at_filled h
  rw [he] at hcount
  exact List.length_eq_zero_iff.1 (by omega)

end Filled

end Placeholder

namespace DocBlock

open Placeholder

section Tags

variable {line text name content : Text}

theorem find_of_bare (h : Bare line text) : find text = find line := by
  cases h with
  | @plain indent _ tail blank first last =>
    obtain ⟨hindent, htail⟩ := List.forall_mem_append.1 blank
    rw [find_of_not_mem (not_mem_of_blank hindent), find_append_of_blank _ htail]
  | @starred indent _ tail blank first last =>
    obtain ⟨hindent, htail⟩ := List.forall_mem_append.1 blank
    have hstar : '@' ∉ indent ++ ['*'] := by simp [not_mem_of_blank hindent]
    rw [List.append_cons, find_of_not_mem hstar, find_append_of_blank _ htail]
  | @spaced indent _ tail blank last =>
    obtain ⟨hindent, htail⟩ := List.forall_mem_append.1 blank
    have hstar : '@' ∉ indent ++ ['*'] ++ [' '] := by simp [not_mem_of_blank hindent]
    rw [List.append_cons, List.append_cons, find_of_not_mem hstar, find_append_of_blank _ htail]

theorem find_subset_of_tagLine? (hfeed : '\n' ∉ line) (h : tagLine? line = some (name, content)) :
    find content ⊆ find line := by
  obtain ⟨rest, -, hrest, hline, rfl⟩ := (tagLine?_eq_some_iff hfeed).1 h
  rw [find_trimLeft, ← find_trimLeft line, hline, ← List.cons_append, find_append_setOff _ hrest]
  exact List.subset_append_right _ _

/-- What holds of the lines, and of the text after the name on a tag line, holds of all lines of the
tags. -/
theorem forall_draft {P : Text → Prop} (s : Section) (started : Bool) (lines : List Text)
    (h : ∀ line ∈ lines, P line ∧ ∀ name content, tagLine? line = some (name, content) → P content) :
    (∀ line ∈ (draft s started lines).continuation, P line) ∧
      ∀ tag ∈ (draft s started lines).tags, ∀ line ∈ tag.2, P line := by
  fun_induction draft s started lines with
  | case1 => exact ⟨by simp, by simp⟩
  | case2 _ _ line lines name content htag d ih =>
    obtain ⟨hline, hlines⟩ := List.forall_mem_cons.1 h
    obtain ⟨hcontinuation, htags⟩ := ih hlines
    have hcontent : P content := hline.2 name content htag
    exact ⟨by simp, List.forall_mem_cons.2 ⟨List.forall_mem_cons.2 ⟨hcontent, hcontinuation⟩, htags⟩⟩
  | case3 _ line lines _ d ih =>
    obtain ⟨hline, hlines⟩ := List.forall_mem_cons.1 h
    obtain ⟨hcontinuation, htags⟩ := ih hlines
    exact ⟨List.forall_mem_cons.2 ⟨hline.1, hcontinuation⟩, htags⟩
  | case4 _ line lines _ _ ih => exact ih (List.forall_mem_cons.1 h).2
  | case5 _ line lines _ _ d ih => exact ih (List.forall_mem_cons.1 h).2
  | case6 _ line lines _ d ih => exact ih (List.forall_mem_cons.1 h).2

theorem content_parse (schemas : Schemas) (name content : Text) :
    (Tag.parse schemas name content).content = content.trim := by
  rw [Tag.parse]
  split <;> rfl

/-- The text after the name of a tag holds no other placeholders than the source. -/
theorem find_subset_of_mem_tags {schemas : Schemas} {source : Text} {tag : Tag}
    (h : tag ∈ (extract schemas source.lines).tags) : find tag.content ⊆ find source := by
  have hbare : ∀ line ∈ source.lines.map undecorated, '\n' ∉ line ∧ find line ⊆ find source := by
    refine List.forall_mem_map.2 fun line hl => ⟨fun hm => ?_, fun p hp => ?_⟩
    · exact Text.not_mem_of_mem_splitOn hl ((bare_undecorated line).sublist.mem hm)
    · rw [find_of_bare (bare_undecorated line)] at hp
      rw [← flatMap_find_lines source]
      exact List.mem_flatMap.2 ⟨line, hl, hp⟩
  rw [extract] at h
  split at h
  · cases h
  · next b _ =>
    obtain ⟨⟨name, lines⟩, hm, rfl⟩ := List.mem_map.1 h
    have hinner : ∀ line ∈ ((source.lines.take b.last).drop (b.first + 1)).map undecorated,
        find line ⊆ find source ∧
          ∀ name content, tagLine? line = some (name, content) → find content ⊆ find source := by
      intro line hl
      obtain ⟨hfeed, hsub⟩ := hbare line (List.map_subset _ (fun line hl =>
        List.mem_of_mem_take (List.mem_of_mem_drop hl)) hl)
      exact ⟨hsub, fun _ _ ht p hp => hsub (find_subset_of_tagLine? hfeed ht hp)⟩
    have hlines : ∀ line ∈ lines, find line ⊆ find source :=
      (forall_draft .short false _ hinner).2 _ hm
    rw [content_parse, find_trim, ← flatMap_find_ofLines]
    intro p hp
    obtain ⟨line, hl, hp⟩ := List.mem_flatMap.1 hp
    exact hlines line hl hp

end Tags

end DocBlock

namespace Routine

open DocBlock (paramTag typeArgument nameArgument)
open Placeholder (find pieces value?)

/-- A documented parameter has the type that its tag is written with. -/
structure TypeAsWritten (pairs : Placeholder.Pairs) (text : Text) (d : Parameter.Documented) :
    Prop where
  /-- The type is the first word of the first tag that names the parameter. -/
  word : ∃ tag, ((docBlock text).tagsNamed paramTag).find? (Parameter.Names · d.name) = some tag ∧
    tag.content.words.head? = some d.type
  /-- The placeholders in the type are among those that must have a value. -/
  resolved : ∀ p ∈ find d.type, p ∈ find text ∧ ∃ v, value? pairs p = some v
  /-- Where no value holds an at sign, only a type without placeholders is what it would be with its
  placeholders replaced. -/
  replaced : (∀ p ∈ find text, ∀ v, value? pairs p = some v → '@' ∉ v) →
    ((pieces d.type).flatMap (·.filled pairs) = d.type ↔ find d.type = [])

variable {pairs : Placeholder.Pairs} {source : Source} {text : Text} {m : Metadata}

theorem head?_words_of_names {tag : DocBlock.Tag} {name : Text}
    (ht : tag ∈ (docBlock text).tagsNamed paramTag) (hn : Parameter.Names tag name) :
    tag.content.words.head? = some (tag.argument typeArgument) := by
  have htype : tag.argument typeArgument = tag.content.words[0]?.getD [] :=
    DocBlock.argument_eq_word [typeArgument, nameArgument] ht (by decide) (by decide) (by decide)
  have hname := DocBlock.parameterName_argument ht
  cases hw : tag.content.words with
  | nil =>
    rw [hw] at hname
    have hne := (Parameter.names_iff.1 hn)
    rw [hname] at hne
    exact absurd hne.2.symm hne.1
  | cons word words =>
    rw [htype, hw]
    rfl

theorem typeAsWritten_of_documented {d : Parameter.Documented}
    (hv : ∀ p ∈ find text, ∃ v, value? pairs p = some v)
    (h : d ∈ Parameter.documented ((docBlock text).tagsNamed paramTag)) :
    TypeAsWritten pairs text d := by
  obtain ⟨tag, htag, htype, -⟩ := Parameter.mem_documented_iff.1 h
  have hmem : tag ∈ (docBlock text).tagsNamed paramTag := List.mem_of_find?_eq_some htag
  have hnames := List.find?_some htag
  have hhead := head?_words_of_names hmem (of_decide_eq_true hnames)
  rw [← htype] at hhead
  have hsub : find d.type ⊆ find text := by
    refine fun p hp => DocBlock.find_subset_of_mem_tags (List.mem_filter.1 hmem).1 ?_
    rw [← Placeholder.flatMap_find_words]
    exact List.mem_flatMap.2 ⟨d.type, List.mem_of_head? hhead, hp⟩
  exact {
    word := ⟨tag, htag, hhead⟩
    resolved := fun p hp => ⟨hsub hp, hv p (hsub hp)⟩
    replaced := fun hvalues =>
      Placeholder.flatMap_filled_eq_self_iff fun p hp => hvalues p (hsub hp) }

/-- Each parameter of a routine that loads has, in the record and in its documentation, the type that
its tag is written with. -/
theorem load_keeps_written_types {σ : Type} [Host σ] {s : σ}
    (h : (load pairs source s).1 = .ok m) :
    ∃ text, (Host.files (announced source s)).HasText (Host.directory (announced source s))
        source.path text ∧
      List.Forall₂ (fun p d => p.name = d.name ∧ p.type = some d.type) m.parameters
        m.documentation.parameters ∧
      ∀ d ∈ m.documentation.parameters, TypeAsWritten pairs text d := by
  obtain ⟨text, replace, _, _, documented, ht, hreplace, -, -, -, hagreed, rfl⟩ :=
    exists_record_of_load h
  have hv : ∀ p ∈ find text, ∃ v, value? pairs p = some v := by
    simpa only [Placeholder.value?_eq_some_iff] using (replacements_eq_ok_iff.1 hreplace).1
  have hdocumented : ∀ d ∈ documented, TypeAsWritten pairs text d := by
    rw [agreedParameters, Outcome.mapError_eq_ok_iff, Parameter.validate_eq_ok_iff] at hagreed
    obtain ⟨-, rfl⟩ := hagreed
    intro d hd
    obtain ⟨name, -, hname⟩ := List.mem_filterMap.1 hd
    exact typeAsWritten_of_documented hv (Parameter.mem_of_find? hname)
  refine ⟨text, ht, ?_, hdocumented⟩
  change List.Forall₂ _ (documented.map (·.descriptor)) documented
  rw [List.forall₂_map_left_iff, List.forall₂_same]
  intro d hd
  obtain ⟨_, _, hhead⟩ := (hdocumented d hd).word
  have hne : d.type ≠ [] := Text.ne_nil_of_mem_words (List.mem_of_head? hhead)
  exact ⟨rfl, by simp [Parameter.Documented.descriptor, hne]⟩

section Sample

/-- A routine with a column type for one of its parameters. -/
def columnText : Text :=
  "/**\n@type none\n@param @t.c%type@ p\n@param date d\n*/\nselect :p, :d".toList

theorem exists_load_column : ∃ m,
    (load Placeholder.columnPairs ⟨"a.psql", "a", none⟩ (loneWorkspace columnText)).1 = .ok m ∧
      m.parameters =
        [⟨":p".toList, some "@t.c%type@".toList⟩, ⟨":d".toList, some "date".toList⟩] ∧
      m.documentation.parameters =
        [⟨":p".toList, "@t.c%type@".toList, []⟩, ⟨":d".toList, "date".toList, []⟩] := by
  have hparts : (compile [] Placeholder.columnPairs ⟨"a.psql", "a", none⟩ columnText).map
      (fun m => (m.parameters, m.documentation.parameters)) = .ok
        ([⟨":p".toList, some "@t.c%type@".toList⟩, ⟨":d".toList, some "date".toList⟩],
          [⟨":p".toList, "@t.c%type@".toList, []⟩, ⟨":d".toList, "date".toList, []⟩]) := by
    decide +kernel
  obtain ⟨m, hm, hparts⟩ := exists_load_of_map (by decide) hparts
  exact ⟨m, hm, Prod.mk.inj hparts⟩

/-- The word of a tag is kept with its placeholder and without one. -/
theorem load_keeps_column_type : ∃ m,
    (load Placeholder.columnPairs ⟨"a.psql", "a", none⟩ (loneWorkspace columnText)).1 = .ok m ∧
      m.documentation.parameters.map (·.type) = ["@t.c%type@".toList, "date".toList] ∧
      (∀ d ∈ m.documentation.parameters, TypeAsWritten Placeholder.columnPairs columnText d) ∧
      List.Forall₂ (fun p d => p.name = d.name ∧ p.type = some d.type) m.parameters
        m.documentation.parameters := by
  obtain ⟨m, hm, -, hdocumented⟩ := exists_load_column
  obtain ⟨text, ht, htypes, hwritten⟩ := load_keeps_written_types hm
  obtain rfl := (hasText_loneWorkspace columnText).unique ht
  exact ⟨m, hm, by rw [hdocumented]; rfl, hwritten, htypes⟩

/-- No value holds an at sign, and yet the type of a parameter is not what the word of its tag is with
its placeholder replaced. -/
theorem load_leaves_column_type :
    (∀ p ∈ find columnText, ∀ v, value? Placeholder.columnPairs p = some v → '@' ∉ v) ∧
      ((docBlock columnText).tagsNamed paramTag).map (·.content.words.head?) =
        [some "@t.c%type@".toList, some "date".toList] ∧
      (pieces "@t.c%type@".toList).flatMap (·.filled Placeholder.columnPairs) = "TEXT".toList ∧
      ∃ m, (load Placeholder.columnPairs ⟨"a.psql", "a", none⟩ (loneWorkspace columnText)).1 =
          .ok m ∧
        m.parameters =
          [⟨":p".toList, some "@t.c%type@".toList⟩, ⟨":d".toList, some "date".toList⟩] ∧
        m.documentation.parameters =
          [⟨":p".toList, "@t.c%type@".toList, []⟩, ⟨":d".toList, "date".toList, []⟩] := by
  have hfind : find columnText = ["@t.c%type@".toList] := by decide +kernel
  have hvalue : value? Placeholder.columnPairs "@t.c%type@".toList = some "TEXT".toList := by
    decide +kernel
  refine ⟨?_, by decide +kernel, by decide +kernel, exists_load_column⟩
  rw [hfind, List.forall_mem_singleton, hvalue]
  rintro v ⟨⟩
  decide

end Sample

end Routine

end StoredRoutine
