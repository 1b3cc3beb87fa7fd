import StoredRoutine.Proofs.RenderedDocBlock

/-!
The lines of a DocBlock told apart. The lines between the markers, without their decoration, are cut
at the tag lines: what comes before the first one is the short description, a gap and the long
description with blank lines around them, and each tag line goes with the lines up to the next one.
There is such a grouping of any lines, with none left over, and the parts that are read are those of
the grouping.
-/
namespace StoredRoutine.DocBlock

section Bare

/-- A line and what it holds without decoration. Blanks around it are left out, and an asterisk that
it begins with together with one space after it. -/
inductive Bare : Text → Text → Prop
  | plain {indent text tail : Text} (blank : ∀ c ∈ indent ++ tail, isBlank c = true)
      (first : ∀ c, text.head? = some c → isBlank c = false ∧ c ≠ '*')
      (last : ∀ c, text.getLast? = some c → isBlank c = false) :
      Bare (indent ++ (text ++ tail)) text
  | starred {indent text tail : Text} (blank : ∀ c ∈ indent ++ tail, isBlank c = true)
      (first : text.head? ≠ some ' ')
      (last : ∀ c, text.getLast? = some c → isBlank c = false) :
      Bare (indent ++ '*' :: (text ++ tail)) text
  | spaced {indent text tail : Text} (blank : ∀ c ∈ indent ++ tail, isBlank c = true)
      (last : ∀ c, text.getLast? = some c → isBlank c = false) :
      Bare (indent ++ '*' :: ' ' :: (text ++ tail)) text

variable {line text : Text}

/-- An asterisk is where trimming ends. -/
theorem trim_starred {indent rest : Text} (h : ∀ c ∈ indent, isBlank c = true) :
    (indent ++ '*' :: rest).trim = '*' :: rest.trimRight := by
  rw [Text.trim, Text.trimLeft_append_of_blank h]
  exact Text.trimRight_append (u := ['*']) rfl rest

theorem undecorated_eq_of_bare (h : Bare line text) : undecorated line = text := by
  cases h with
  | @plain indent text tail blank first last =>
    obtain ⟨hi, ht⟩ := List.forall_mem_append.1 blank
    have htrim := Text.trim_surrounded hi ht (fun c hc => (first c hc).1) last
    rw [undecorated, htrim]
    split
    · exact absurd rfl (first _ rfl).2
    · exact absurd rfl (first _ rfl).2
    · exact Text.trimRight_eq_self last
  | @starred indent text tail blank first last =>
    obtain ⟨hi, ht⟩ := List.forall_mem_append.1 blank
    rw [undecorated, trim_starred hi, Text.trimRight_append_of_blank _ ht,
      Text.trimRight_eq_self last]
    split
    · next he =>
      obtain rfl := (List.cons.inj he).2
      exact absurd rfl first
    · next he =>
      obtain rfl := (List.cons.inj he).2
      exact Text.trimRight_eq_self last
    · next _ hno => exact absurd rfl (hno _)
  | @spaced indent text tail blank last =>
    obtain ⟨hi, ht⟩ := List.forall_mem_append.1 blank
    rw [undecorated, trim_starred hi, ← List.cons_append, Text.trimRight_append_of_blank _ ht]
    cases text with
    | nil => rfl
    | cons c text =>
      have hlast := Text.trimRight_eq_self last
      rw [Text.trimRight_cons_of_ne_nil (by simp [hlast]), hlast]
      exact hlast

theorem bare_undecorated (line : Text) : Bare line (undecorated line) := by
  -- the line begins with its indentation, and its end is blank
  obtain ⟨tail, htail, hcut⟩ := line.exists_trim
  have hindent : ∀ c ∈ line.indentation, isBlank c = true := fun c => Text.mem_takeWhile
  have hblank : ∀ more : Text, (∀ c ∈ more, isBlank c = true) →
      ∀ c ∈ line.indentation ++ (more ++ tail), isBlank c = true := fun _ hmore =>
    List.forall_mem_append.2 ⟨hindent, List.forall_mem_append.2 ⟨hmore, htail⟩⟩
  rw [undecorated]
  split
  · next t ht =>
    obtain ⟨more, hmore, hcut'⟩ := Text.exists_trimRight t
    rw [ht, List.cons_append, List.cons_append, hcut', List.append_assoc] at hcut
    rw [hcut]
    exact .spaced (hblank more hmore) fun c => Text.not_isBlank_getLast_trimRight
  · next t hspace ht =>
    have hfirst : (Text.trimRight t).head? ≠ some ' ' := by
      intro hhead
      obtain ⟨more, hmore⟩ := List.head?_eq_some_iff.1 hhead
      have hfront : ' ' :: more <+: t := hmore ▸ List.rdropWhile_prefix isBlank t
      obtain ⟨u, rfl⟩ := hfront
      exact hspace _ rfl
    obtain ⟨more, hmore, hcut'⟩ := Text.exists_trimRight t
    rw [ht, List.cons_append, hcut', List.append_assoc] at hcut
    rw [hcut]
    exact .starred (hblank more hmore) hfirst fun c => Text.not_isBlank_getLast_trimRight
  · next _ hstar =>
    have hlast : line.trim.trimRight = line.trim := List.rdropWhile_idempotent isBlank line.trimLeft
    have hfirst : ∀ c, line.trim.head? = some c → isBlank c = false ∧ c ≠ '*' := by
      intro c hc
      obtain ⟨t, ht⟩ := List.head?_eq_some_iff.1 hc
      obtain ⟨u, hu⟩ := Text.trim_prefix_trimLeft line
      refine ⟨Text.not_isBlank_head_trimLeft (t := line) ?_, by rintro rfl; exact hstar t ht⟩
      rw [← hu, ht]
      rfl
    rw [hlast]
    nth_rewrite 1 [hcut]
    exact .plain (hblank [] (by simp)) hfirst fun c => Text.not_isBlank_getLast_trimRight

theorem bare_iff : Bare line text ↔ undecorated line = text :=
  ⟨undecorated_eq_of_bare, fun h => h ▸ bare_undecorated line⟩

theorem Bare.last (h : Bare line text) : ∀ c, text.getLast? = some c → isBlank c = false := by
  cases h with
  | plain _ _ last => exact last
  | starred _ _ last => exact last
  | spaced _ last => exact last

theorem Bare.sublist (h : Bare line text) : text.Sublist line := by
  have hmid : ∀ tail, text.Sublist (text ++ tail) := fun tail => List.sublist_append_left _ _
  cases h with
  | plain => exact (hmid _).trans (List.sublist_append_right _ _)
  | starred => exact ((hmid _).cons _).trans (List.sublist_append_right _ _)
  | spaced => exact (((hmid _).cons _).cons _).trans (List.sublist_append_right _ _)

/-- Nothing is left of a blank line. -/
theorem Bare.eq_nil (h : Bare line text) (hb : text.allBlank = true) : text = [] := by
  by_contra hne
  have hlast := h.last _ (List.getLast?_eq_some_getLast hne)
  exact absurd (List.all_eq_true.1 hb _ (List.getLast_mem hne)) (Bool.eq_false_iff.1 hlast)

theorem forall₂_bare_iff {lines texts : List Text} :
    List.Forall₂ Bare lines texts ↔ lines.map undecorated = texts := by
  constructor
  · intro h
    induction h with
    | nil => rfl
    | cons hline _ ih => rw [List.map_cons, bare_iff.1 hline, ih]
  · rintro rfl
    rw [List.forall₂_map_right_iff]
    exact List.forall₂_same.2 fun line _ => bare_undecorated line

end Bare

/-- A tag line, without its decoration, and the lines up to the next one. The text after the name
is everything that stands there. -/
structure TagLines where
  indent : Text
  tag : WrittenTag

namespace TagLines

def head (t : TagLines) : Text := t.indent ++ '@' :: (t.tag.name ++ t.tag.first)

def lines (t : TagLines) : List Text := t.head :: t.tag.continuation

structure WellFormed (t : TagLines) : Prop where
  indent : ∀ c ∈ t.indent, isBlank c = true
  name : IsTagName t.tag.name
  first : SetOff t.tag.first
  continuation : ∀ line ∈ t.tag.continuation, ¬ IsTagLine line

variable {t : TagLines}

theorem WellFormed.tagLine?_head (h : t.WellFormed) (hfeed : '\n' ∉ t.head) :
    tagLine? t.head = some (t.tag.name, t.tag.first.trimLeft) := by
  refine (tagLine?_eq_some_iff hfeed).2 ⟨_, h.name, h.first, ?_, rfl⟩
  rw [head, Text.trimLeft_append_of_blank h.indent]
  exact Text.trimLeft_eq_self (by rintro c ⟨⟩; decide)

theorem draft_flatMap_lines {tags : List TagLines} (h : ∀ t ∈ tags, t.WellFormed)
    (hfeed : ∀ t ∈ tags, ∀ line ∈ t.lines, '\n' ∉ line) (s : Section) (started : Bool) :
    draft s started (tags.flatMap lines) =
      ⟨[], [], [], tags.map fun t => (t.tag.name, t.tag.first.trimLeft :: t.tag.continuation)⟩ :=
  draft_flatMap (fun t ht => (h t ht).tagLine?_head (hfeed t ht _ List.mem_cons_self))
    (fun t ht line hl => (tagLine?_eq_none_iff
      (hfeed t ht line (List.mem_cons_of_mem _ hl))).2 ((h t ht).continuation line hl)) s started

/-- Lines are cut at the tag lines. -/
theorem exists_cut (lines : List Text) :
    ∃ (prose : List Text) (tags : List TagLines), lines = prose ++ tags.flatMap TagLines.lines ∧
      (∀ line ∈ prose, ¬ IsTagLine line) ∧ ∀ t ∈ tags, t.WellFormed := by
  induction lines with
  | nil => exact ⟨[], [], rfl, by simp, by simp⟩
  | cons line lines ih =>
    obtain ⟨prose, tags, rfl, hprose, htags⟩ := ih
    by_cases htag : IsTagLine line
    · -- the lines up to the next tag line go with this one
      obtain ⟨name, rest, hname, hrest, hline⟩ := htag
      refine ⟨[], ⟨line.indentation, ⟨name, rest, prose⟩⟩ :: tags, ?_, by simp, ?_⟩
      · rw [List.nil_append, List.flatMap_cons, TagLines.lines, head, ← hline,
          Text.indentation_append_trimLeft, List.cons_append]
      · exact List.forall_mem_cons.2 ⟨⟨fun c => Text.mem_takeWhile, hname, hrest, hprose⟩, htags⟩
    · exact ⟨line :: prose, tags, rfl, List.forall_mem_cons.2 ⟨htag, hprose⟩, htags⟩

end TagLines

/-- The lines of a DocBlock, without their decoration, told apart. -/
structure Grouping where
  above : List Text
  short : List Text
  between : List Text
  long : List Text
  below : List Text
  tags : List TagLines

namespace Grouping

/-- The lines before the first tag line. -/
def prose (g : Grouping) : List Text := g.above ++ (g.short ++ (g.between ++ (g.long ++ g.below)))

def lines (g : Grouping) : List Text := g.prose ++ g.tags.flatMap TagLines.lines

/-- Lines without a blank one, and, with blank lines around them, lines that begin and end with one
that is not blank. Of the parts after the first blank lines, none follows a missing one. -/
structure WellFormed (g : Grouping) : Prop where
  prose : ∀ line ∈ g.prose, ¬ IsTagLine line
  short : ∀ line ∈ g.short, line.allBlank = false
  blank : ∀ line ∈ g.above ++ (g.between ++ g.below), line.allBlank = true
  first : ∀ line, g.long.head? = some line → line.allBlank = false
  last : ∀ line, g.long.getLast? = some line → line.allBlank = false
  between : g.short = [] → g.between = []
  long : g.between = [] → g.long = []
  below : g.long = [] → g.below = []
  tags : ∀ t ∈ g.tags, t.WellFormed

/-- The grouping of lines that are cut at the tag lines: one run after another, as long as it can
be, and the blank lines at the end. -/
def ofCut (prose : List Text) (tags : List TagLines) : Grouping :=
  let started := prose.dropWhile (·.allBlank)
  let after := started.dropWhile (! ·.allBlank)
  let rest := after.dropWhile (·.allBlank)
  { above := prose.takeWhile (·.allBlank)
    short := started.takeWhile (! ·.allBlank)
    between := after.takeWhile (·.allBlank)
    long := rest.rdropWhile (·.allBlank)
    below := rest.rtakeWhile (·.allBlank)
    tags }

theorem prose_ofCut (prose : List Text) (tags : List TagLines) :
    (ofCut prose tags).prose = prose := by
  simp only [ofCut, Grouping.prose, List.rdropWhile_append_rtakeWhile,
    List.takeWhile_append_dropWhile]

/-- A run is missing only at the end. -/
theorem dropWhile_eq_nil_of_takeWhile {p q : Text → Bool} {lines : List Text}
    (hpq : ∀ line, p line = false → q line = true)
    (h : (lines.dropWhile p).takeWhile q = []) : lines.dropWhile p = [] := by
  cases hrest : lines.dropWhile p with
  | nil => rfl
  | cons line rest =>
    have hhead := List.head?_dropWhile_not p lines
    rw [hrest] at hhead h
    rw [List.takeWhile_cons_of_pos (hpq line hhead)] at h
    cases h

theorem eq_false_of_head?_rdropWhile {p : Text → Bool} {lines : List Text} {line : Text}
    (h : ((lines.dropWhile p).rdropWhile p).head? = some line) : p line = false := by
  obtain ⟨kept, hkept⟩ := List.head?_eq_some_iff.1 h
  obtain ⟨dropped, hdropped⟩ := List.rdropWhile_prefix p (lines.dropWhile p)
  have hhead := List.head?_dropWhile_not p lines
  rwa [← hdropped, hkept] at hhead

theorem wellFormed_ofCut {prose : List Text} {tags : List TagLines}
    (hprose : ∀ line ∈ prose, ¬ IsTagLine line) (htags : ∀ t ∈ tags, t.WellFormed) :
    (ofCut prose tags).WellFormed where
  prose := by rwa [prose_ofCut]
  short := fun line hl => by simpa using List.mem_takeWhile_imp hl
  blank := by
    refine List.forall_mem_append.2 ⟨fun line => List.mem_takeWhile_imp, ?_⟩
    exact List.forall_mem_append.2
      ⟨fun line => List.mem_takeWhile_imp, fun line => List.mem_rtakeWhile_imp⟩
  first := fun line hl => eq_false_of_head?_rdropWhile hl
  last := fun line hl => Text.eq_false_of_getLast?_rdropWhile hl
  between := fun h => by
    have hnone := dropWhile_eq_nil_of_takeWhile (by simp) h
    simp [ofCut, hnone]
  long := fun h => by
    have hnone := dropWhile_eq_nil_of_takeWhile (by simp) h
    simp [ofCut, hnone]
  below := fun h => by
    have hall := List.dropWhile_eq_nil_iff.2 (List.rdropWhile_eq_nil_iff.1 h)
    rw [List.dropWhile_idempotent] at hall
    simp [ofCut, hall]
  tags := htags

theorem exists_wellFormed (lines : List Text) : ∃ g : Grouping, g.WellFormed ∧ g.lines = lines := by
  obtain ⟨prose, tags, rfl, hprose, htags⟩ := TagLines.exists_cut lines
  refine ⟨ofCut prose tags, wellFormed_ofCut hprose htags, ?_⟩
  rw [Grouping.lines, prose_ofCut]
  rfl

variable {g : Grouping}

/-- Grouped lines are sorted as they are grouped, but for the blank lines around the long
description. -/
theorem WellFormed.draft_lines (h : g.WellFormed) (hfeed : ∀ line ∈ g.lines, '\n' ∉ line)
    (hempty : ∀ line ∈ g.lines, line.allBlank = true → line = []) :
    ∃ gap gap' : List Text, (∀ line ∈ gap ++ gap', line.allBlank = true) ∧
      draft .short false g.lines = ⟨g.short, gap ++ (g.long ++ gap'), [],
        g.tags.map fun t => (t.tag.name, t.tag.first.trimLeft :: t.tag.continuation)⟩ := by
  obtain ⟨habove, hblank⟩ := List.forall_mem_append.1 h.blank
  obtain ⟨hbetween, hbelow⟩ := List.forall_mem_append.1 hblank
  have hnone : ∀ line ∈ g.prose, tagLine? line = none := fun line hl =>
    (tagLine?_eq_none_iff (hfeed line (List.mem_append_left _ hl))).2 (h.prose line hl)
  have htags := TagLines.draft_flatMap_lines h.tags fun t ht line hl =>
    hfeed line (List.mem_append_right _ (List.mem_flatMap_of_mem ht hl))
  have hshort : ∀ line ∈ g.short, tagLine? line = none ∧ line ≠ [] := by
    refine fun line hl => ⟨hnone line (by simp [Grouping.prose, hl]), ?_⟩
    rintro rfl
    exact absurd (h.short _ hl) (by decide)
  have hnil : ∀ line ∈ g.prose, line.allBlank = true → line = [] := fun line hl =>
    hempty line (List.mem_append_left _ hl)
  have hcut : g.lines = g.above ++ (g.short ++
      (g.between ++ (g.long ++ (g.below ++ g.tags.flatMap TagLines.lines)))) := by
    simp only [Grouping.lines, Grouping.prose, List.append_assoc]
  rw [hcut, draft_short (fun line hl => hnil line (by simp [Grouping.prose, hl]) (habove line hl))
    hshort]
  -- the long description begins after a blank line, if there is one
  cases hb : g.between with
  | nil =>
    have hlong := h.long hb
    refine ⟨[], [], by simp, ?_⟩
    rw [hlong, h.below hlong, List.nil_append, List.nil_append, List.nil_append, htags]
    simp [Draft.after]
  | cons line gap =>
    have hstarted : g.short.isEmpty = false := by
      refine Bool.eq_false_iff.2 fun hs => ?_
      rw [h.between (List.isEmpty_iff.1 hs)] at hb
      cases hb
    rw [hb] at hbetween
    obtain ⟨hblankLine, hgap⟩ := List.forall_mem_cons.1 hbetween
    obtain rfl : line = [] := hnil line (by simp [Grouping.prose, hb]) hblankLine
    have hafter : ∀ line ∈ gap ++ (g.long ++ g.below), tagLine? line = none := by
      refine fun line hl => hnone line (List.mem_append_right _ (List.mem_append_right _ ?_))
      rw [hb]
      exact List.mem_cons_of_mem _ hl
    refine ⟨gap, g.below, List.forall_mem_append.2 ⟨hgap, hbelow⟩, ?_⟩
    have hrest : gap ++ (g.long ++ (g.below ++ g.tags.flatMap TagLines.lines)) =
        (gap ++ (g.long ++ g.below)) ++ g.tags.flatMap TagLines.lines := by
      simp only [List.append_assoc]
    rw [List.cons_append, draft_of_empty, hstarted, Bool.not_false, if_pos rfl, hrest,
      draft_append hafter (by simp), htags]
    simp [Draft.after]

end Grouping

/-- Any lines are grouped without their decoration, and what is read are the parts of the
grouping: the tags in order, each with its lines, and the descriptions. -/
theorem parse_groups_lines (schemas : Schemas) {lines : List Text}
    (hfeed : ∀ line ∈ lines, '\n' ∉ line) :
    (∃ g : Grouping, g.WellFormed ∧ List.Forall₂ Bare lines g.lines) ∧
      ∀ g : Grouping, g.WellFormed → List.Forall₂ Bare lines g.lines →
        ∃ tags, parse schemas lines = (.ofLines g.short, .ofLines g.long, tags) ∧
          List.Forall₂ (fun t tag => t.tag.ReadsAs schemas tag) g.tags tags := by
  constructor
  · obtain ⟨g, hg, hlines⟩ := Grouping.exists_wellFormed (lines.map undecorated)
    exact ⟨g, hg, forall₂_bare_iff.2 hlines.symm⟩
  · intro g hg hbare
    have hlines := forall₂_bare_iff.1 hbare
    have hraw : ∀ line ∈ g.lines, ∃ raw ∈ lines, undecorated raw = line := fun line hl =>
      List.mem_map.1 (hlines ▸ hl)
    have hfeed' : ∀ line ∈ g.lines, '\n' ∉ line := by
      intro line hl hmem
      obtain ⟨raw, hraw, rfl⟩ := hraw line hl
      exact hfeed raw hraw ((bare_undecorated raw).sublist.mem hmem)
    have hempty : ∀ line ∈ g.lines, line.allBlank = true → line = [] := by
      intro line hl hblank
      obtain ⟨raw, -, rfl⟩ := hraw line hl
      exact (bare_undecorated raw).eq_nil hblank
    obtain ⟨gap, gap', hgap, hdraft⟩ := hg.draft_lines hfeed' hempty
    obtain ⟨hgap, hgap'⟩ := List.forall_mem_append.1 hgap
    refine ⟨g.tags.map fun t => .parse schemas t.tag.name
      (.ofLines (t.tag.first.trimLeft :: t.tag.continuation)), ?_, ?_⟩
    · rw [parse, hlines, hdraft]
      simp only [trimLines_eq_self hg.short, trimLines_append_of_blank hgap,
        trimLines_append hg.first hg.last hgap', List.map_map]
      rfl
    · rw [List.forall₂_map_right_iff]
      exact List.forall₂_same.2 fun t _ => t.tag.readsAs_parse schemas

section Sample

/-- Lines with and without decoration, of which two look like tag lines and are none. -/
def mixedLines : List Text :=
  ["", " * Adds", "   twice.  ", " *", "@ no tag", " *@-no tag", "*", " * \t@note \tone ", " * * two",
    " *"].map String.toList

def mixed : Grouping where
  above := [[]]
  short := ["Adds".toList, "twice.".toList]
  between := [[]]
  long := ["@ no tag".toList, "@-no tag".toList]
  below := [[]]
  tags := [⟨"\t".toList, "note".toList, " \tone".toList, ["* two".toList, []]⟩]

theorem wellFormed_mixed : mixed.WellFormed where
  prose := by
    have h : ∀ line ∈ mixed.prose, '\n' ∉ line ∧ tagLine? line = none := by decide +kernel
    exact fun line hl => (tagLine?_eq_none_iff (h line hl).1).1 (h line hl).2
  short := by decide
  blank := by decide
  first := by decide
  last := by decide
  between := by decide
  long := by decide
  below := by decide
  tags := by
    have h : ∀ line ∈ ["* two".toList, []], '\n' ∉ line ∧ tagLine? line = none := by decide +kernel
    exact List.forall_mem_singleton.2 ⟨List.all_eq_true.1 (by decide),
      ⟨'n', "ote".toList, rfl, by decide, List.all_eq_true.1 (by decide)⟩,
      by rintro c ⟨⟩; decide, fun line hl => (tagLine?_eq_none_iff (h line hl).1).1 (h line hl).2⟩

/-- No line is lost, and the lines after the tag line are its own. -/
theorem parse_mixed : (∀ line ∈ mixedLines, '\n' ∉ line) ∧
    ∃ note, parse standardSchemas mixedLines =
        ("Adds\ntwice.".toList, "@ no tag\n@-no tag".toList, [note]) ∧
      note.name = "note".toList ∧ note.content = "one\n* two".toList ∧ note.arguments = ∅ := by
  have hfeed : ∀ line ∈ mixedLines, '\n' ∉ line := by decide +kernel
  have hbare : List.Forall₂ Bare mixedLines mixed.lines :=
    forall₂_bare_iff.2 (by decide +kernel)
  obtain ⟨tags, hparse, hreads⟩ :=
    (parse_groups_lines standardSchemas hfeed).2 mixed wellFormed_mixed hbare
  obtain ⟨note, none, hnote, hnone, rfl⟩ := List.forall₂_cons_left_iff.1 hreads
  obtain rfl := List.forall₂_nil_left_iff.1 hnone
  have hshort : Text.ofLines mixed.short = "Adds\ntwice.".toList := by decide +kernel
  have hlong : Text.ofLines mixed.long = "@ no tag\n@-no tag".toList := by decide +kernel
  rw [hshort, hlong] at hparse
  exact ⟨hfeed, note, hparse, hnote.name, hnote.content.trans (by decide +kernel),
    (hnote.unregistered (by decide)).1⟩

end Sample

end StoredRoutine.DocBlock
