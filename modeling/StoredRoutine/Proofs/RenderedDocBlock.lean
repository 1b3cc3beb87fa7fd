import StoredRoutine.Proofs.DocumentedParameters
import StoredRoutine.Proofs.Trimming

/-!
A DocBlock that is written from its parts and read again. The decoration of a line comes off whatever
the line begins with, so the lines between the markers are those that were written, and they are
sorted into the parts that they were written for: nothing but a tag line begins a tag, and the empty
line after a description is no part of it.
-/
namespace StoredRoutine.DocBlock

section TagLine

variable {line name content rest : Text}

/-- A letter or an underscore, and then letters, digits, underscores and hyphens. -/
def IsTagName (name : Text) : Prop :=
  ∃ c t, name = c :: t ∧ isNameStart c = true ∧ ∀ d ∈ t, isTagNamePart d = true

/-- A text that is empty or begins with a blank. -/
def SetOff (rest : Text) : Prop := ∀ c, rest.head? = some c → isBlank c = true

/-- A line that begins, after its blanks, with an at sign and the name of a tag. -/
def IsTagLine (line : Text) : Prop :=
  ∃ name rest, IsTagName name ∧ SetOff rest ∧ line.trimLeft = '@' :: (name ++ rest)

theorem setOff_iff : SetOff rest ↔
    (rest.isEmpty || rest.length != rest.trimLeft.length) = true := by
  cases rest with
  | nil => simp [SetOff]
  | cons c rest =>
    have hle : (Text.trimLeft rest).length ≤ rest.length := (List.dropWhile_sublist _).length_le
    by_cases hc : isBlank c = true
    · have hl : Text.trimLeft (c :: rest) = Text.trimLeft rest := List.dropWhile_cons_of_pos hc
      simp only [SetOff, List.head?_cons, Option.some.injEq, forall_eq', hc, hl, List.length_cons,
        true_iff, Bool.or_eq_true, bne_iff_ne]
      omega
    · have hl : Text.trimLeft (c :: rest) = c :: rest := List.dropWhile_cons_of_neg hc
      simp [SetOff, hl, hc]

/-- A blank ends the name of a tag. -/
theorem isTagNamePart_of_isBlank {c : Char} (h : isBlank c = true) : isTagNamePart c = false := by
  have hhyphen : c ≠ '-' := by
    rintro rfl
    exact absurd h (by decide)
  simp [isTagNamePart, isNamePart_of_isBlank h, hhyphen]

/-- What a tag line is read as; no line has a line feed. -/
theorem tagLine?_eq_some_iff (h : '\n' ∉ line) :
    tagLine? line = some (name, content) ↔ ∃ rest, IsTagName name ∧ SetOff rest ∧
      line.trimLeft = '@' :: (name ++ rest) ∧ content = rest.trimLeft := by
  constructor
  · intro he
    rw [tagLine?] at he
    split at he
    · next c t hline =>
      split at he
      · next hc =>
        dsimp only at he
        split at he
        · next hrest =>
          obtain ⟨rfl, rfl⟩ := Prod.mk.inj (Option.some.inj he)
          refine ⟨t.dropWhile isTagNamePart, ⟨c, _, rfl, hc, fun d => Text.mem_takeWhile⟩,
            setOff_iff.2 (Bool.and_eq_true_iff.1 hrest).1, ?_, rfl⟩
          rw [hline, List.cons_append, List.takeWhile_append_dropWhile]
        · cases he
      · cases he
    · cases he
  · rintro ⟨rest, ⟨c, t, rfl, hc, ht⟩, hrest, hline, rfl⟩
    -- the name ends where the rest begins, which is at a blank if at all
    obtain ⟨htake, hdrop⟩ := Text.takeWhile_append_of_head
      (fun d hd => isTagNamePart_of_isBlank (hrest d hd)) t
    rw [List.takeWhile_eq_self_iff.2 ht] at htake
    rw [List.dropWhile_eq_nil_iff.2 ht, List.nil_append] at hdrop
    have hfeed : '\n' ∉ rest.trimLeft := fun hn => by
      have hmem : '\n' ∈ line.trimLeft := by
        rw [hline]
        exact List.mem_cons_of_mem _ (List.mem_append_right _ ((List.dropWhile_sublist _).mem hn))
      exact h ((List.dropWhile_sublist _).mem hmem)
    rw [tagLine?, hline, List.cons_append]
    simp [hc, htake, hdrop, hfeed, setOff_iff.1 hrest]

theorem tagLine?_eq_none_iff (h : '\n' ∉ line) : tagLine? line = none ↔ ¬ IsTagLine line := by
  constructor
  · rintro hn ⟨name, rest, hname, hrest, hline⟩
    have he := (tagLine?_eq_some_iff h).2 ⟨rest, hname, hrest, hline, rfl⟩
    exact absurd (he.symm.trans hn) (by simp)
  · intro hn
    rw [Option.eq_none_iff_forall_ne_some]
    rintro ⟨name, content⟩ he
    obtain ⟨rest, hname, hrest, hline, -⟩ := (tagLine?_eq_some_iff h).1 he
    exact hn ⟨name, rest, hname, hrest, hline⟩

theorem IsTagName.not_isBlank (h : IsTagName name) : ∀ c ∈ name, isBlank c = false := by
  obtain ⟨c, t, rfl, hc, ht⟩ := h
  have hpart : ∀ d ∈ c :: t, isTagNamePart d = true := by
    refine List.forall_mem_cons.2 ⟨?_, ht⟩
    rw [isTagNamePart, isNamePart_of_isNameStart hc, Bool.true_or]
  intro d hd
  refine Bool.eq_false_iff.2 fun hb => ?_
  exact absurd (hpart d hd) (by rw [isTagNamePart_of_isBlank hb]; decide)

end TagLine

section Line

/-- A line that can stand in a DocBlock: it has no line feed, and no blank at its end. -/
structure IsLine (line : Text) : Prop where
  feed : '\n' ∉ line
  last : ∀ c, line.getLast? = some c → isBlank c = false

theorem isLine_iff {line : Text} :
    IsLine line ↔ '\n' ∉ line ∧ line.getLast?.all (! isBlank ·) = true := by
  simp only [Option.all_eq_true, Bool.not_eq_true']
  exact ⟨fun h => ⟨h.feed, h.last⟩, fun h => ⟨h.1, h.2⟩⟩

instance (line : Text) : Decidable (IsLine line) := decidable_of_iff' _ isLine_iff

/-- A line as it is written in a DocBlock. -/
def decorated (line : Text) : Text := " * ".toList ++ line

/-- The line that ends a description. -/
def emptyLine : Text := " *".toList

def openingLine : Text := "/**".toList

def closingLine : Text := " */".toList

theorem trim_decorated (line : Text) :
    (decorated line).trim = '*' :: Text.trimRight (' ' :: line) :=
  Text.trimRight_append (u := ['*']) rfl (' ' :: line)

theorem undecorated_decorated (line : Text) : undecorated (decorated line) = line.trimRight := by
  rw [undecorated, trim_decorated]
  by_cases h : line.trimRight = []
  · have hblank : Text.trimRight (' ' :: line) = [] := by
      rw [Text.trimRight_eq_rdropWhile, List.rdropWhile_eq_nil_iff] at h ⊢
      exact List.forall_mem_cons.2 ⟨isBlank_space, h⟩
    rw [hblank, h]
    rfl
  · rw [Text.trimRight_cons_of_ne_nil h]
    exact List.rdropWhile_idempotent isBlank line

theorem IsLine.undecorated_decorated {line : Text} (h : IsLine line) :
    undecorated (decorated line) = line := by
  rw [DocBlock.undecorated_decorated, Text.trimRight_eq_self h.last]

theorem map_undecorated_decorated {lines : List Text} (h : ∀ line ∈ lines, IsLine line) :
    (lines.map decorated).map undecorated = lines := by
  rw [List.map_map]
  exact (List.map_congr_left fun line hl => (h line hl).undecorated_decorated).trans
    (List.map_id lines)

theorem isClosing_decorated (line : Text) : isClosing (decorated line) = false := by
  refine Bool.eq_false_iff.2 fun h => ?_
  rw [isClosing, trim_decorated, beq_iff_eq] at h
  -- after the asterisk comes a space, if anything
  have hfront : ['/'] <+: ' ' :: line := by
    have hslash : Text.trimRight (' ' :: line) = ['/'] := (List.cons.inj h).2
    exact hslash ▸ List.rdropWhile_prefix isBlank _
  exact absurd (List.cons_prefix_cons.1 hfront).1 (by decide)

end Line

section Sorted

variable {line name content : Text} {lines : List Text} {s : Section} {started : Bool}

/-- A draft with more lines before it, in a section that goes on. -/
def Draft.after (d : Draft) (lines : List Text) : Section → Draft
  | .short => { d with short := lines ++ d.short }
  | .long => { d with long := lines ++ d.long }
  | .tags => { d with continuation := lines ++ d.continuation }

theorem draft_of_tagLine (h : tagLine? line = some (name, content)) :
    draft s started (line :: lines) =
      { draft .tags started lines with
        continuation := []
        tags := (name, content :: (draft .tags started lines).continuation) ::
          (draft .tags started lines).tags } := by
  simp only [draft, h]

theorem draft_of_empty :
    draft .short started ([] :: lines) = draft (if started then .long else .short) started lines :=
  rfl

theorem draft_skip {gap : List Text} (h : ∀ line ∈ gap, line = []) (lines : List Text) :
    draft .short false (gap ++ lines) = draft .short false lines := by
  induction gap with
  | nil => rfl
  | cons line gap ih =>
    obtain ⟨rfl, hgap⟩ := List.forall_mem_cons.1 h
    exact ih hgap

/-- Any other line stays in its section. -/
theorem draft_of_text (h : tagLine? line = none) (hs : s = .short → line ≠ []) :
    draft s started (line :: lines) =
      (draft s (started || decide (s = .short)) lines).after [line] s := by
  cases s with
  | short =>
    have hempty : line.isEmpty = false := by simpa using hs rfl
    simp [draft, h, hempty, Draft.after]
  | long => simp [draft, h, Draft.after]
  | tags => simp [draft, h, Draft.after]

theorem draft_append (h : ∀ line ∈ lines, tagLine? line = none)
    (hs : s = .short → started = true ∧ ∀ line ∈ lines, line ≠ []) (rest : List Text) :
    draft s started (lines ++ rest) = (draft s started rest).after lines s := by
  induction lines with
  | nil => cases s <;> rfl
  | cons line lines ih =>
    have hstarted : (started || decide (s = .short)) = started := by
      cases s with
      | short => simp [(hs rfl).1]
      | long | tags => simp
    rw [List.cons_append, draft_of_text (h line List.mem_cons_self)
      fun he => (hs he).2 line List.mem_cons_self, hstarted,
      ih (fun l hl => h l (List.mem_cons_of_mem _ hl))
        fun he => ⟨(hs he).1, fun l hl => (hs he).2 l (List.mem_cons_of_mem _ hl)⟩]
    cases s <;> rfl

/-- Empty lines before the short description are no part of it. -/
theorem draft_short {gap short : List Text} (hgap : ∀ line ∈ gap, line = [])
    (hshort : ∀ line ∈ short, tagLine? line = none ∧ line ≠ []) (rest : List Text) :
    draft .short false (gap ++ (short ++ rest)) =
      (draft .short (!short.isEmpty) rest).after short .short := by
  rw [draft_skip hgap]
  cases short with
  | nil => rfl
  | cons line lines =>
    obtain ⟨hline, hlines⟩ := List.forall_mem_cons.1 hshort
    rw [List.cons_append, draft_of_text hline.1 fun _ => hline.2,
      draft_append (fun l hl => (hlines l hl).1) fun _ => ⟨by simp, fun l hl => (hlines l hl).2⟩]
    rfl

/-- Tag lines begin tags in whatever section they come, and the lines after them continue them. -/
theorem draft_flatMap {τ : Type} {tags : List τ} {head name content : τ → Text}
    {continuation : τ → List Text}
    (hhead : ∀ tag ∈ tags, tagLine? (head tag) = some (name tag, content tag))
    (hnone : ∀ tag ∈ tags, ∀ line ∈ continuation tag, tagLine? line = none) (s : Section)
    (started : Bool) :
    draft s started (tags.flatMap fun tag => head tag :: continuation tag) =
      ⟨[], [], [], tags.map fun tag => (name tag, content tag :: continuation tag)⟩ := by
  induction tags generalizing s with
  | nil => rfl
  | cons tag tags ih =>
    have ih := ih (fun t hm => hhead t (List.mem_cons_of_mem _ hm))
      (fun t hm => hnone t (List.mem_cons_of_mem _ hm)) .tags
    rw [List.flatMap_cons, List.cons_append, draft_of_tagLine (hhead tag List.mem_cons_self),
      draft_append (hnone tag List.mem_cons_self) (by simp), ih]
    simp [Draft.after]

end Sorted

/-- A tag to be written: its name, the text after the name, and the lines that continue it. -/
structure WrittenTag where
  name : Text
  first : Text
  continuation : List Text

namespace WrittenTag

/-- The lines of a tag after its name. -/
def content (tag : WrittenTag) : List Text := tag.first :: tag.continuation

/-- The first line of a tag, without decoration. -/
def head (tag : WrittenTag) : Text := '@' :: (tag.name ++ ' ' :: tag.first)

/-- The lines of a tag as they are written. -/
def lines (tag : WrittenTag) : List Text := (tag.head :: tag.continuation).map decorated

/-- A name that is one, and lines of which none but the first may look like a tag. -/
structure WellFormed (tag : WrittenTag) : Prop where
  name : IsTagName tag.name
  lines : ∀ line ∈ tag.content, IsLine line
  continuation : ∀ line ∈ tag.continuation, ¬ IsTagLine line

variable {tag : WrittenTag}

theorem WellFormed.trimRight_head (h : tag.WellFormed) :
    tag.head.trimRight = '@' :: (tag.name ++ Text.trimRight (' ' :: tag.first)) := by
  have hmark : Text.trimRight ('@' :: tag.name) = '@' :: tag.name := by
    refine Text.trimRight_eq_self fun c hc => ?_
    rcases List.mem_cons.1 (List.mem_of_getLast? hc) with rfl | hm
    · rfl
    · exact h.name.not_isBlank c hm
  exact Text.trimRight_append hmark (' ' :: tag.first)

theorem WellFormed.tagLine?_head (h : tag.WellFormed) :
    tagLine? tag.head.trimRight = some (tag.name, tag.first.trimLeft) := by
  have hfirst : IsLine tag.first := h.lines _ List.mem_cons_self
  have hfront : Text.trimRight (' ' :: tag.first) <+: ' ' :: tag.first :=
    List.rdropWhile_prefix isBlank _
  have hfeed : '\n' ∉ tag.head.trimRight := by
    rw [h.trimRight_head, List.mem_cons, List.mem_append]
    rintro (hn | hn | hn)
    · exact absurd hn (by decide)
    · exact absurd (h.name.not_isBlank _ hn) (by decide)
    · exact (List.mem_cons.1 (hfront.mem hn)).elim (by decide) hfirst.feed
  have hsetOff : SetOff (Text.trimRight (' ' :: tag.first)) := by
    intro c hc
    obtain ⟨t, ht⟩ := List.head?_eq_some_iff.1 hc
    rw [ht] at hfront
    rw [(List.cons_prefix_cons.1 hfront).1]
    rfl
  have hcontent : tag.first.trimLeft = (Text.trimRight (' ' :: tag.first)).trimLeft := by
    have htrim := Text.trimRight_eq_self hfirst.last
    cases hf : tag.first with
    | nil => rfl
    | cons c t =>
      rw [hf] at htrim
      rw [Text.trimRight_cons_of_ne_nil (by simp [htrim]), htrim]
      rfl
  refine (tagLine?_eq_some_iff hfeed).2 ⟨_, h.name, hsetOff, ?_, hcontent⟩
  rw [h.trimRight_head]
  rfl

theorem WellFormed.tagLine?_continuation (h : tag.WellFormed) :
    ∀ line ∈ tag.continuation, tagLine? line = none := fun line hl =>
  (tagLine?_eq_none_iff (h.lines line (List.mem_cons_of_mem _ hl)).feed).2 (h.continuation line hl)

theorem WellFormed.map_undecorated_lines (h : tag.WellFormed) :
    tag.lines.map undecorated = tag.head.trimRight :: tag.continuation := by
  rw [WrittenTag.lines, List.map_cons, List.map_cons, undecorated_decorated,
    map_undecorated_decorated fun line hl => h.lines line (List.mem_cons_of_mem _ hl)]

/-- What a tag is read as: its name, the text of its lines, and, if the tag is registered, the first
words of that text as its arguments and the other words as its description. -/
structure ReadsAs (schemas : Schemas) (written : WrittenTag) (tag : Tag) : Prop where
  name : tag.name = written.name
  content : tag.content = (Text.ofLines written.content).trim
  registered : ∀ arguments, schemas.get? written.name = some arguments →
    tag.arguments = .ofList (arguments.mapIdx fun i a => (a, tag.content.words[i]?.getD [])) ∧
      tag.description = .ofWords (tag.content.words.drop arguments.length)
  unregistered : schemas.get? written.name = none → tag.arguments = ∅ ∧ tag.description = []

theorem readsAs_parse (schemas : Schemas) (tag : WrittenTag) :
    tag.ReadsAs schemas
      (.parse schemas tag.name (.ofLines (tag.first.trimLeft :: tag.continuation))) := by
  have hcontent := Text.trim_ofLines_trimLeft tag.first tag.continuation
  rw [Tag.parse, hcontent]
  cases hs : schemas.get? tag.name with
  | none => exact ⟨rfl, rfl, by simp [hs], fun _ => ⟨rfl, rfl⟩⟩
  | some arguments =>
    refine ⟨rfl, rfl, fun arguments' he => ?_, by simp [hs]⟩
    obtain rfl : arguments = arguments' := Option.some.inj (hs.symm.trans he)
    exact ⟨congrArg OrderedMap.ofList (assign_eq_mapIdx _ _), rfl⟩

end WrittenTag

theorem draft_tags {tags : List WrittenTag} (h : ∀ tag ∈ tags, tag.WellFormed) (s : Section)
    (started : Bool) :
    draft s started ((tags.flatMap WrittenTag.lines).map undecorated) =
      ⟨[], [], [], tags.map fun tag => (tag.name, tag.first.trimLeft :: tag.continuation)⟩ := by
  have hlines : (tags.flatMap WrittenTag.lines).map undecorated =
      tags.flatMap fun tag => tag.head.trimRight :: tag.continuation := by
    rw [List.map_flatMap]
    exact List.flatMap_congr fun tag hm => (h tag hm).map_undecorated_lines
  rw [hlines]
  exact draft_flatMap (fun tag hm => (h tag hm).tagLine?_head)
    (fun tag hm => (h tag hm).tagLine?_continuation) s started

/-- Blank lines after lines that neither begin nor end with one. -/
theorem trimLines_append {lines gap : List Text}
    (hfirst : ∀ line, lines.head? = some line → line.allBlank = false)
    (hlast : ∀ line, lines.getLast? = some line → line.allBlank = false)
    (hgap : ∀ line ∈ gap, line.allBlank = true) : trimLines (lines ++ gap) = lines := by
  have hdrop : (lines ++ gap).dropWhile (·.allBlank) = lines ++ gap ∨ lines = [] := by
    cases lines with
    | nil => exact .inr rfl
    | cons line lines => exact .inl (List.dropWhile_cons_of_neg (by simp [hfirst line rfl]))
  have hgap' : ∀ line ∈ gap.reverse, line.allBlank = true := by simpa using hgap
  rcases hdrop with hdrop | rfl
  · rw [trimLines, hdrop, List.reverse_append, List.dropWhile_append_of_pos hgap', ← List.rdropWhile,
      List.rdropWhile_eq_self_iff]
    exact fun hne => Bool.eq_false_iff.1 (hlast _ (List.getLast?_eq_some_getLast hne))
  · rw [trimLines, List.nil_append, List.dropWhile_eq_nil_iff.2 hgap]
    rfl

theorem trimLines_append_of_blank {gap : List Text} (h : ∀ line ∈ gap, line.allBlank = true)
    (lines : List Text) : trimLines (gap ++ lines) = trimLines lines := by
  rw [trimLines, List.dropWhile_append_of_pos h, trimLines]

/-- Lines without a blank one stay as they are. -/
theorem trimLines_eq_self {lines : List Text} (h : ∀ line ∈ lines, line.allBlank = false) :
    trimLines lines = lines := by
  have ht : trimLines (lines ++ []) = lines :=
    trimLines_append (fun line hl => h line (List.mem_of_head? hl))
      (fun line hl => h line (List.mem_of_getLast? hl)) (by simp)
  rwa [List.append_nil] at ht

/-- A DocBlock to be written: two descriptions and tags. -/
structure Outline where
  short : List Text
  long : List Text
  tags : List WrittenTag

namespace Outline

/-- Descriptions that begin and end with a line that is not blank, of which the short one has no
blank line at all and is not missing before a long one. -/
structure WellFormed (o : Outline) : Prop where
  short : ∀ line ∈ o.short, IsLine line ∧ line.allBlank = false ∧ ¬ IsTagLine line
  long : ∀ line ∈ o.long, IsLine line ∧ ¬ IsTagLine line
  first : ∀ line, o.long.head? = some line → line.allBlank = false
  last : ∀ line, o.long.getLast? = some line → line.allBlank = false
  order : o.short = [] → o.long = []
  tags : ∀ tag ∈ o.tags, tag.WellFormed

/-- The lines of a description as they are written, with an empty line after them. A description
without lines may be written as no line at all. -/
inductive Described (lines : List Text) : List Text → Prop
  | ended : Described lines (lines.map decorated ++ [emptyLine])
  | missing (h : lines = []) : Described lines []

/-- The lines between the markers of a DocBlock that is written. -/
inductive Rendered (o : Outline) : List Text → Prop
  | intro {short long : List Text} (hs : Described o.short short) (hl : Described o.long long) :
    Rendered o (short ++ (long ++ o.tags.flatMap WrittenTag.lines))

variable {o : Outline} {inner : List Text}

theorem Described.map_undecorated {lines written : List Text} (h : Described lines written)
    (hl : ∀ line ∈ lines, IsLine line) :
    ∃ gap : List Text, written.map undecorated = lines ++ gap ∧ (∀ line ∈ gap, line = []) ∧
      (lines ≠ [] → gap = [[]]) := by
  cases h with
  | ended =>
    refine ⟨[[]], ?_, by simp, fun _ => rfl⟩
    rw [List.map_append, map_undecorated_decorated hl]
    rfl
  | missing h => exact ⟨[], by rw [h]; rfl, by simp, fun hne => absurd h hne⟩

/-- The lines between the markers are sorted as they were written, but for the empty line that ends
the long description. -/
theorem WellFormed.draft_rendered (h : o.WellFormed) (hi : o.Rendered inner) :
    ∃ gap : List Text, (∀ line ∈ gap, line.allBlank = true) ∧
      draft .short false (inner.map undecorated) = ⟨o.short, o.long ++ gap, [],
        o.tags.map fun tag => (tag.name, tag.first.trimLeft :: tag.continuation)⟩ := by
  obtain ⟨hs, hl⟩ := hi
  obtain ⟨gap, hs, hempty, hgap⟩ := hs.map_undecorated fun line hm => (h.short line hm).1
  obtain ⟨gap', hl, hempty', -⟩ := hl.map_undecorated fun line hm => (h.long line hm).1
  have htext : ∀ line ∈ o.short, tagLine? line = none ∧ line ≠ [] := by
    intro line hm
    obtain ⟨hline, hblank, htag⟩ := h.short line hm
    refine ⟨(tagLine?_eq_none_iff hline.feed).2 htag, ?_⟩
    rintro rfl
    exact absurd hblank (by decide)
  rw [List.map_append, List.map_append, hs, hl, List.append_assoc,
    ← List.nil_append (o.short ++ _), draft_short (by simp) htext]
  cases hshort : o.short with
  | nil =>
    -- neither description has a line, and empty lines before the first line change nothing
    refine ⟨[], by simp, ?_⟩
    rw [h.order hshort, List.nil_append, List.isEmpty_nil, Bool.not_true, draft_skip hempty,
      draft_skip hempty', draft_tags h.tags]
    rfl
  | cons line lines =>
    obtain rfl : gap = [[]] := hgap (by simp [hshort])
    have hlong : ∀ l ∈ o.long ++ gap', tagLine? l = none := by
      intro l hl
      rcases List.mem_append.1 hl with hl | hl
      · exact (tagLine?_eq_none_iff (h.long l hl).1.feed).2 (h.long l hl).2
      · rw [hempty' l hl]
        rfl
    refine ⟨gap', fun l hl => by rw [hempty' l hl]; rfl, ?_⟩
    rw [List.singleton_append, draft_of_empty, List.isEmpty_cons, Bool.not_false, if_pos rfl,
      draft_append hlong (by simp), draft_tags h.tags]
    simp [Draft.after]

theorem not_isClosing_described {lines written : List Text} (h : Described lines written) :
    ∀ line ∈ written, isClosing line = false := by
  cases h with
  | missing => simp
  | ended =>
    intro line hl
    rcases List.mem_append.1 hl with hl | hl
    · obtain ⟨line, -, rfl⟩ := List.mem_map.1 hl
      exact isClosing_decorated line
    · rw [List.mem_singleton.1 hl]
      decide

theorem not_isClosing_rendered (hi : o.Rendered inner) : ∀ line ∈ inner, isClosing line = false := by
  obtain ⟨hs, hl⟩ := hi
  intro line hm
  rcases List.mem_append.1 hm with hm | hm
  · exact not_isClosing_described hs line hm
  rcases List.mem_append.1 hm with hm | hm
  · exact not_isClosing_described hl line hm
  · obtain ⟨tag, -, hm⟩ := List.mem_flatMap.1 hm
    obtain ⟨line, -, rfl⟩ := List.mem_map.1 hm
    exact isClosing_decorated line

/-- The markers are found where they were written. -/
theorem bounds?_of_rendered (hi : o.Rendered inner) (payload : List Text) :
    bounds? (openingLine :: (inner ++ closingLine :: payload)) =
      some ⟨0, inner.length + 1⟩ := by
  have hopen : List.findIdx? isOpening (openingLine :: (inner ++ closingLine :: payload)) =
      some 0 := rfl
  have hclose : List.findIdx? isClosing (inner ++ closingLine :: payload) = some inner.length := by
    rw [List.findIdx?_append, List.findIdx?_eq_none_iff.2 (not_isClosing_rendered hi)]
    have hfound : isClosing closingLine = true := by decide
    simp [List.findIdx?_cons, hfound]
  rw [bounds?_eq_findIdx?, hopen]
  simp [hclose, Nat.add_comm]

/-- A DocBlock that is written from its parts is read as those parts, whatever lines follow it. -/
theorem extract_of_rendered (schemas : Schemas) (h : o.WellFormed) (hi : o.Rendered inner)
    (payload : List Text) :
    ∃ tags, extract schemas (openingLine :: (inner ++ closingLine :: payload)) =
        ⟨some ⟨0, inner.length + 1⟩, .ofLines o.short, .ofLines o.long, tags⟩ ∧
      List.Forall₂ (WrittenTag.ReadsAs schemas) o.tags tags := by
  obtain ⟨gap, hgap, hdraft⟩ := h.draft_rendered hi
  have hlines : ((openingLine :: (inner ++ closingLine :: payload)).take (inner.length + 1)).drop
      1 = inner := by simp
  have hshort : trimLines o.short = o.short :=
    trimLines_eq_self fun line hl => (h.short line hl).2.1
  refine ⟨o.tags.map fun tag => .parse schemas tag.name
    (.ofLines (tag.first.trimLeft :: tag.continuation)), ?_, ?_⟩
  · rw [extract, bounds?_of_rendered hi]
    simp only [hlines, parse, hdraft, hshort, trimLines_append h.first h.last hgap, List.map_map]
    rfl
  · rw [List.forall₂_map_right_iff]
    exact List.forall₂_same.2 fun tag _ => tag.readsAs_parse schemas

section Sample

/-- Lines that begin with an asterisk, a blank, an at sign or the closing marker. -/
def sample : Outline where
  short := ["Adds a thing,".toList, "  twice.".toList]
  long := ["* first".toList, [], "@ no tag".toList]
  tags := [⟨paramTag, "int   p_a  The".toList, ["  value.".toList]⟩,
    ⟨"note".toList, [], [[], "*/ is no marker".toList]⟩]

def sampleLines : List Text :=
  [" * Adds a thing,", " *   twice.", " *", " * * first", " * ", " * @ no tag", " *",
    " * @param int   p_a  The", " *   value.", " * @note ", " * ",
    " * */ is no marker"].map String.toList

theorem wellFormed_sample : sample.WellFormed where
  short := by
    have h : ∀ line ∈ sample.short, IsLine line ∧ line.allBlank = false ∧ tagLine? line = none := by
      decide +kernel
    exact fun line hl => ⟨(h line hl).1, (h line hl).2.1,
      (tagLine?_eq_none_iff (h line hl).1.feed).1 (h line hl).2.2⟩
  long := by
    have h : ∀ line ∈ sample.long, IsLine line ∧ tagLine? line = none := by decide +kernel
    exact fun line hl => ⟨(h line hl).1, (tagLine?_eq_none_iff (h line hl).1.feed).1 (h line hl).2⟩
  first := by decide
  last := by decide
  order := by decide
  tags := by
    have hlines : ∀ tag ∈ sample.tags, (∀ line ∈ tag.content, IsLine line) ∧
        ∀ line ∈ tag.continuation, tagLine? line = none := by decide +kernel
    have hnames : ∀ tag ∈ sample.tags, IsTagName tag.name :=
      List.forall_mem_cons.2 ⟨⟨'p', "aram".toList, rfl, by decide, List.all_eq_true.1 (by decide)⟩,
        List.forall_mem_singleton.2
          ⟨'n', "ote".toList, rfl, by decide, List.all_eq_true.1 (by decide)⟩⟩
    refine fun tag ht => ⟨hnames tag ht, (hlines tag ht).1, fun line hl => ?_⟩
    have hfeed := ((hlines tag ht).1 line (List.mem_cons_of_mem _ hl)).feed
    exact (tagLine?_eq_none_iff hfeed).1 ((hlines tag ht).2 line hl)

theorem rendered_sample : sample.Rendered sampleLines := by
  have h : sampleLines = (sample.short.map decorated ++ [emptyLine]) ++
      ((sample.long.map decorated ++ [emptyLine]) ++ sample.tags.flatMap WrittenTag.lines) := by
    decide +kernel
  exact h ▸ .intro .ended .ended

/-- Every line is read as it was written, and the words of the registered tag are told apart. -/
theorem extract_sample : sample.WellFormed ∧ sample.Rendered sampleLines ∧
    ∃ param note, extract standardSchemas (openingLine :: (sampleLines ++ closingLine ::
        ["select 1".toList])) =
      ⟨some ⟨0, 13⟩, "Adds a thing,\n  twice.".toList, "* first\n\n@ no tag".toList,
        [param, note]⟩ ∧
      param.content = "int   p_a  The\n  value.".toList ∧
      param.arguments.entries =
        [(typeArgument, "int".toList), (nameArgument, "p_a".toList)] ∧
      param.description = "The value.".toList ∧
      note.name = "note".toList ∧ note.content = "*/ is no marker".toList ∧
      note.arguments = ∅ := by
  obtain ⟨tags, hextract, hreads⟩ := extract_of_rendered standardSchemas wellFormed_sample
    rendered_sample ["select 1".toList]
  obtain ⟨param, others, hparam, hothers, rfl⟩ := List.forall₂_cons_left_iff.1 hreads
  obtain ⟨note, none, hnote, hnone, rfl⟩ := List.forall₂_cons_left_iff.1 hothers
  obtain rfl := List.forall₂_nil_left_iff.1 hnone
  have hcontent : param.content = "int   p_a  The\n  value.".toList :=
    hparam.content.trans (by decide +kernel)
  obtain ⟨harguments, hdescription⟩ := hparam.registered [typeArgument, nameArgument] (by decide)
  rw [hcontent] at harguments hdescription
  have hshort : Text.ofLines sample.short = "Adds a thing,\n  twice.".toList := by decide +kernel
  have hlong : Text.ofLines sample.long = "* first\n\n@ no tag".toList := by decide +kernel
  rw [hshort, hlong] at hextract
  refine ⟨wellFormed_sample, rendered_sample, param, note, hextract, hcontent, ?_, ?_, hnote.name, ?_,
    (hnote.unregistered (by decide)).1⟩
  · rw [harguments]
    decide +kernel
  · rw [hdescription]
    decide +kernel
  · exact hnote.content.trans (by decide +kernel)

end Sample

end Outline

end StoredRoutine.DocBlock
