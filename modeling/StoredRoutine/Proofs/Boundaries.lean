import StoredRoutine.Proofs.Records
import StoredRoutine.Proofs.Trimming
import StoredRoutine.Routine.Load

/-!
The boundaries of a source, said by least indices, and which routines have a payload.
-/
namespace StoredRoutine

/-!
The boundaries of a source, said by least indices. A DocBlock lies between the first line that holds
nothing but the opening marker and the first later line that holds nothing but the closing one, and
there is none if either is missing; the payload begins at the first line after it that is not blank,
or where the lines end.
-/

section

section Indices

variable {α : Type} {P : α → Prop} {p : α → Bool} {l : List α} {start i : Nat}

/-- The indices, from a start on, at which a list has an element with a property. -/
def indicesFrom (start : Nat) (P : α → Prop) (l : List α) : Set Nat :=
  {i | start ≤ i ∧ ∃ x, l[i]? = some x ∧ P x}

theorem lt_length_of_mem_indicesFrom (h : i ∈ indicesFrom start P l) : i < l.length := by
  obtain ⟨-, x, hx, -⟩ := h
  exact (List.getElem?_eq_some_iff.1 hx).1

/-- What is found in the rest of a list is at the least index from its start on. -/
theorem findIdx?_drop_eq_some_iff (hp : ∀ x, p x = true ↔ P x) {k : Nat} :
    (l.drop start).findIdx? p = some k ↔ IsLeast (indicesFrom start P l) (start + k) := by
  rw [List.findIdx?_eq_some_iff_getElem]
  constructor
  · rintro ⟨hk, hfound, hbefore⟩
    rw [List.getElem_drop] at hfound
    refine ⟨⟨Nat.le_add_right _ _, _, List.getElem?_eq_getElem _, (hp _).1 hfound⟩, ?_⟩
    rintro i ⟨hi, x, hx, hP⟩
    obtain ⟨hlt, rfl⟩ := List.getElem?_eq_some_iff.1 hx
    by_contra hlow
    have hno := hbefore (i - start) (by omega)
    simp only [List.getElem_drop, Nat.add_sub_cancel' hi] at hno
    exact hno ((hp _).2 hP)
  · rintro ⟨⟨-, x, hx, hP⟩, hleast⟩
    obtain ⟨hlt, rfl⟩ := List.getElem?_eq_some_iff.1 hx
    refine ⟨by rw [List.length_drop]; omega, by rw [List.getElem_drop]; exact (hp _).2 hP, ?_⟩
    intro j hj hfound
    rw [List.getElem_drop] at hfound
    have hle := hleast ⟨Nat.le_add_right start j, _, List.getElem?_eq_getElem _, (hp _).1 hfound⟩
    omega

theorem findIdx?_drop_eq_none_iff (hp : ∀ x, p x = true ↔ P x) :
    (l.drop start).findIdx? p = none ↔ ¬ (indicesFrom start P l).Nonempty := by
  constructor
  · intro hnone hne
    have hleast : IsLeast (indicesFrom start P l) (sInf (indicesFrom start P l)) :=
      ⟨Nat.sInf_mem hne, fun _ => Nat.sInf_le⟩
    rw [← Nat.add_sub_cancel' hleast.1.1, ← findIdx?_drop_eq_some_iff hp, hnone] at hleast
    cases hleast
  · intro hempty
    rw [Option.eq_none_iff_forall_ne_some]
    intro k hk
    exact hempty ⟨_, ((findIdx?_drop_eq_some_iff hp).1 hk).1⟩

end Indices

/-- A line that holds a text and around it nothing but blanks. -/
def Text.HoldsOnly (marker line : Text) : Prop :=
  ∃ before after, line = before ++ (marker ++ after) ∧ ∀ c ∈ before ++ after, isBlank c = true

/-- A line with a character that is not blank. -/
def Text.NotBlank (line : Text) : Prop := ∃ c ∈ line, isBlank c = false

open Text (HoldsOnly NotBlank)

section Lines

variable {marker line : Text}

theorem Text.trim_eq_iff (hfirst : ∀ c, marker.head? = some c → isBlank c = false)
    (hlast : ∀ c, marker.getLast? = some c → isBlank c = false) :
    line.trim = marker ↔ HoldsOnly marker line := by
  constructor
  · rintro rfl
    obtain ⟨tail, htail, hline⟩ := line.exists_trim
    refine ⟨line.indentation, tail, hline, List.forall_mem_append.2 ⟨?_, htail⟩⟩
    exact fun c => Text.mem_takeWhile
  · rintro ⟨before, after, rfl, hblank⟩
    obtain ⟨hbefore, hafter⟩ := List.forall_mem_append.1 hblank
    exact Text.trim_surrounded hbefore hafter hfirst hlast

theorem Text.allBlank_eq_false_iff : line.allBlank = false ↔ NotBlank line := by
  rw [Text.allBlank, List.all_eq_false]
  simp only [Bool.not_eq_true, NotBlank]

end Lines

namespace DocBlock

theorem isOpening_iff (line : Text) : isOpening line = true ↔ HoldsOnly "/**".toList line := by
  rw [isOpening, beq_iff_eq]
  exact Text.trim_eq_iff (by rintro c ⟨⟩; rfl) (by rintro c ⟨⟩; rfl)

theorem isClosing_iff (line : Text) : isClosing line = true ↔ HoldsOnly "*/".toList line := by
  rw [isClosing, beq_iff_eq]
  exact Text.trim_eq_iff (by rintro c ⟨⟩; rfl) (by rintro c ⟨⟩; rfl)

/-- The bounds are the first line with the opening marker and the first later one with the closing
marker. -/
structure Delimits (lines : List Text) (b : Bounds) : Prop where
  first : IsLeast (indicesFrom 0 (HoldsOnly "/**".toList) lines) b.first
  last : IsLeast (indicesFrom (b.first + 1) (HoldsOnly "*/".toList) lines) b.last

variable {lines : List Text} {b : Bounds}

theorem bounds?_eq_some_iff : bounds? lines = some b ↔ Delimits lines b := by
  have hopening : ∀ first, lines.findIdx? isOpening = some first ↔
      IsLeast (indicesFrom 0 (HoldsOnly "/**".toList) lines) first := fun first => by
    have h : (lines.drop 0).findIdx? isOpening = some first ↔
        IsLeast (indicesFrom 0 (HoldsOnly "/**".toList) lines) (0 + first) :=
      findIdx?_drop_eq_some_iff isOpening_iff
    rwa [List.drop_zero, Nat.zero_add] at h
  simp only [bounds?_eq_findIdx?, Option.bind_eq_bind, Option.bind_eq_some_iff, hopening,
    findIdx?_drop_eq_some_iff isClosing_iff]
  constructor
  · rintro ⟨first, hfirst, inner, hinner, ⟨⟩⟩
    exact ⟨hfirst, hinner⟩
  · rintro ⟨hfirst, hlast⟩
    obtain ⟨inner, hinner⟩ := Nat.exists_eq_add_of_le hlast.1.1
    rw [hinner] at hlast
    exact ⟨b.first, hfirst, inner, hlast, by rw [← hinner]; rfl⟩

theorem bounds?_eq_none_iff : bounds? lines = none ↔ ¬ ∃ b, Delimits lines b := by
  simp only [Option.eq_none_iff_forall_ne_some, ne_eq, bounds?_eq_some_iff, not_exists]

theorem bounds_extract (schemas : Schemas) (lines : List Text) :
    (extract schemas lines).bounds = bounds? lines := by
  rw [extract]
  split
  · next hnone => exact hnone.symm
  · next b hsome => exact hsome.symm

end DocBlock

namespace Routine

open DocBlock (Delimits bounds?)

/-- The payload begins, from a start on, at the first line that is not blank, or where the lines end
if there is none; the lines before it are blank. -/
structure PayloadBegins (lines : List Text) (start offset : Nat) : Prop where
  start_le : start ≤ offset
  first : (indicesFrom start NotBlank lines).Nonempty →
    IsLeast (indicesFrom start NotBlank lines) offset
  atEnd : ¬ (indicesFrom start NotBlank lines).Nonempty → offset = lines.length
  blank : ∀ i, start ≤ i → i < offset → ∃ line, lines[i]? = some line ∧ ∀ c ∈ line, isBlank c = true

variable {lines : List Text} {start i : Nat}

theorem blank_of_not_mem_indicesFrom (hs : start ≤ i) (hi : i < lines.length)
    (hn : i ∉ indicesFrom start NotBlank lines) :
    ∃ line, lines[i]? = some line ∧ ∀ c ∈ line, isBlank c = true := by
  refine ⟨_, List.getElem?_eq_getElem hi, fun c hc => ?_⟩
  by_contra hb
  exact hn ⟨hs, _, List.getElem?_eq_getElem hi, c, hc, Bool.eq_false_iff.2 hb⟩

theorem payloadBegins (hs : start ≤ lines.length) : PayloadBegins lines start
    (start + ((lines.drop start).takeWhile (·.allBlank)).length) := by
  have hp : ∀ line : Text, (! line.allBlank) = true ↔ NotBlank line := fun line => by
    rw [Bool.not_eq_true', Text.allBlank_eq_false_iff]
  have hlength : ((lines.drop start).takeWhile (·.allBlank)).length =
      (lines.drop start).findIdx (! Text.allBlank ·) := by
    rw [List.takeWhile_eq_take_findIdx_not, List.length_take]
    exact Nat.min_eq_left List.findIdx_le_length
  rw [hlength]
  cases hfound : (lines.drop start).findIdx? (! Text.allBlank ·) with
  | some k =>
    obtain ⟨-, rfl⟩ := List.findIdx?_eq_some_iff_findIdx_eq.1 hfound
    have hleast := (findIdx?_drop_eq_some_iff hp).1 hfound
    have hend := lt_length_of_mem_indicesFrom hleast.1
    exact {
      start_le := Nat.le_add_right _ _
      first := fun _ => hleast
      atEnd := fun hempty => absurd ⟨_, hleast.1⟩ hempty
      blank := fun i hi hlt =>
        blank_of_not_mem_indicesFrom hi (hlt.trans hend) fun hm => Nat.not_lt.2 (hleast.2 hm) hlt }
  | none =>
    have hempty := (findIdx?_drop_eq_none_iff hp).1 hfound
    rw [List.findIdx?_eq_none_iff_findIdx_eq] at hfound
    rw [hfound, List.length_drop, Nat.add_sub_cancel' hs]
    exact {
      start_le := hs
      first := fun hne => absurd hne hempty
      atEnd := fun _ => rfl
      blank := fun i hi hlt => blank_of_not_mem_indicesFrom hi hlt fun hm => hempty ⟨i, hm⟩ }

/-- The payload begins after the closing marker. -/
theorem payloadBegins_of_delimits (schemas : DocBlock.Schemas) {b : DocBlock.Bounds}
    (h : Delimits lines b) :
    PayloadBegins lines (b.last + 1) (payloadOffset lines (.extract schemas lines)) := by
  have hend : b.last < lines.length := lt_length_of_mem_indicesFrom h.last.1
  rw [payloadOffset, DocBlock.bounds_extract, DocBlock.bounds?_eq_some_iff.2 h]
  exact payloadBegins hend

/-- Without DocBlock the payload begins at the top. -/
theorem payloadBegins_of_not_delimits (schemas : DocBlock.Schemas)
    (h : ¬ ∃ b, Delimits lines b) :
    PayloadBegins lines 0 (payloadOffset lines (.extract schemas lines)) := by
  rw [payloadOffset, DocBlock.bounds_extract, DocBlock.bounds?_eq_none_iff.2 h]
  exact payloadBegins (Nat.zero_le _)

/-- The DocBlock lies between the first line with the opening marker and the first later line with the
closing one, and there is none exactly if there are no two such lines. The payload begins at the first
line after the DocBlock, or of all lines if there is none, that is not blank. -/
theorem boundaries_are_least (schemas : DocBlock.Schemas) (lines : List Text) :
    (∀ b, bounds? lines = some b ↔ Delimits lines b) ∧
      (bounds? lines = none ↔ ¬ ∃ b, Delimits lines b) ∧
      (∀ b, Delimits lines b →
        PayloadBegins lines (b.last + 1) (payloadOffset lines (.extract schemas lines))) ∧
      ((¬ ∃ b, Delimits lines b) →
        PayloadBegins lines 0 (payloadOffset lines (.extract schemas lines))) :=
  ⟨fun _ => DocBlock.bounds?_eq_some_iff, DocBlock.bounds?_eq_none_iff,
    fun _ => payloadBegins_of_delimits schemas, payloadBegins_of_not_delimits schemas⟩

/-- A closing marker before the opening one, markers with other blanks around them, and a second
DocBlock, which is part of the payload. -/
example :
    let lines := ["*/", "\t/**", "/**", "\u00A0*/ ", "\u2003", "/**", "*/"].map String.toList
    bounds? lines = some ⟨1, 3⟩ ∧
      payloadOffset lines (.extract DocBlock.standardSchemas lines) = 5 := by
  decide +kernel

/-- A DocBlock that is not closed is payload, and the last line may close one. -/
example :
    bounds? (["/**", "@type none"].map String.toList) = none ∧
      bounds? (["/**", "*/"].map String.toList) = some ⟨0, 1⟩ ∧
      payloadOffset (["/**", "*/"].map String.toList)
        (.extract ∅ (["/**", "*/"].map String.toList)) = 2 := by
  decide +kernel

end Routine

end

/-!
Whether a routine that loads has a payload. It has a DocBlock, which declares its designation, and its
payload begins at a line that is not blank exactly if some line after the DocBlock is not. Only the
whole source must not be blank, and the DocBlock is enough for that: a routine without payload loads
as one without bind markers, and compiles to an empty text.
-/

namespace Routine

open DocBlock (Delimits bounds? typeTag)
open Text (NotBlank)

variable {pairs : Placeholder.Pairs} {source : Source} {text : Text} {m : Metadata}

/-- Only a DocBlock has tags. -/
theorem exists_delimits_of_tags {name : Text} (h : (docBlock text).tagsNamed name ≠ []) :
    ∃ b, Delimits text.lines b := by
  by_contra hnone
  have hbounds : bounds? text.lines = none := DocBlock.bounds?_eq_none_iff.2 hnone
  refine h ?_
  rw [docBlock, DocBlock.extract, hbounds]
  rfl

theorem exists_delimits_of_designation {d : Designation}
    (h : designation (docBlock text) = .ok d) : ∃ b, Delimits text.lines b := by
  obtain ⟨tag, htag, -, -⟩ := declares_designation_iff.1 (designation_eq_ok_iff.1 h)
  have htags : (docBlock text).tagsNamed typeTag ≠ [] := by
    rw [htag]
    exact List.cons_ne_nil _ _
  exact exists_delimits_of_tags htags

/-- Lines of which the first is not blank are no blank text. -/
theorem notBlank_ofLines {line : Text} {lines : List Text} (h : NotBlank line) :
    NotBlank (.ofLines (line :: lines)) := by
  obtain ⟨c, hc, hb⟩ := h
  refine ⟨c, ?_, hb⟩
  cases lines with
  | nil => simpa [Text.ofLines] using hc
  | cons line' lines =>
    rw [Text.ofLines_cons (List.cons_ne_nil _ _)]
    exact List.mem_append_left _ hc

/-- Without payload there are no bind markers to document, and nothing to compile. -/
theorem record_of_payloadLines_eq_nil {directory : Place} {replace : OrderedMap Text Text}
    {d : Designation} {type : Option Text} {documented : List Parameter.Documented}
    (hp : payloadLines text = []) (hagreed : agreedParameters text = .ok documented) :
    (record directory source text replace d type documented).source = [] ∧
      (record directory source text replace d type documented).parameters = [] := by
  have hnames := names_of_agreedParameters hagreed
  rw [hp] at hnames
  have hnone : documented = [] := List.map_eq_nil_iff.1 (hnames.trans (by decide +kernel))
  rw [record, hp, hnone]
  exact ⟨rfl, rfl⟩

/-- A line that is not blank stands at an index. -/
def NotBlankAt (lines : List Text) (i : Nat) : Prop := ∃ line, lines[i]? = some line ∧ NotBlank line

theorem PayloadBegins.notBlankAt_iff {lines : List Text} {start offset : Nat}
    (h : PayloadBegins lines start offset) :
    NotBlankAt lines offset ↔ ∃ i, start ≤ i ∧ NotBlankAt lines i :=
  ⟨fun hat => ⟨offset, h.start_le, hat⟩, fun hne => (h.first hne).1.2⟩

theorem NotBlankAt.notBlank_ofLines_drop {lines : List Text} {i : Nat} (h : NotBlankAt lines i) :
    NotBlank (.ofLines (lines.drop i)) := by
  obtain ⟨line, hline, hnot⟩ := h
  obtain ⟨hlt, rfl⟩ := List.getElem?_eq_some_iff.1 hline
  rw [List.drop_eq_getElem_cons hlt]
  exact notBlank_ofLines hnot

/-- A routine that loads has a DocBlock. If a line after it is not blank, the payload begins at the
first such line, and is no blank text. Otherwise the payload begins where the source ends and is empty,
and so are the parameters and the compiled text. -/
theorem load_finds_payload {σ : Type} [Host σ] {s : σ} (h : (load pairs source s).1 = .ok m) :
    ∃ text b, (Host.files (announced source s)).HasText (Host.directory (announced source s))
        source.path text ∧
      Delimits text.lines b ∧ PayloadBegins text.lines (b.last + 1) m.payloadOffset ∧
      (NotBlankAt text.lines m.payloadOffset ↔ ∃ i, b.last < i ∧ NotBlankAt text.lines i) ∧
      (NotBlankAt text.lines m.payloadOffset →
        NotBlank (.ofLines (text.lines.drop m.payloadOffset))) ∧
      (¬ NotBlankAt text.lines m.payloadOffset →
        m.payloadOffset = text.lines.length ∧ text.lines.drop m.payloadOffset = [] ∧
          m.source = [] ∧ m.parameters = []) := by
  obtain ⟨text, replace, d, type, documented, ht, -, hd, -, -, hagreed, hm⟩ :=
    exists_record_of_load h
  obtain ⟨b, hb⟩ := exists_delimits_of_designation hd
  have ho : m.payloadOffset = offsetOf text := by rw [hm]; rfl
  have hbegins : PayloadBegins text.lines (b.last + 1) (offsetOf text) :=
    payloadBegins_of_delimits _ hb
  rw [ho]
  refine ⟨text, b, ht, hb, hbegins, hbegins.notBlankAt_iff, NotBlankAt.notBlank_ofLines_drop, ?_⟩
  intro hnone
  have hend : offsetOf text = text.lines.length :=
    hbegins.atEnd fun hne => hnone (hbegins.notBlankAt_iff.2 hne)
  have hdrop : payloadLines text = [] := by
    rw [payloadLines, hend]
    exact List.drop_length
  rw [hm]
  exact ⟨hend, hdrop, record_of_payloadLines_eq_nil hdrop hagreed⟩

section Sample

/-- A routine with an empty line before its payload. -/
def spacedText : Text := "/**\n@type none\n*/\n\nselect 1".toList

/-- A routine that is nothing but its DocBlock. -/
def bareText : Text := "/**\n@type none\n*/".toList

/-- The payload begins at the line after the empty one. -/
theorem load_finds_spaced_payload : ∃ m,
    (load ∅ ⟨"a.psql", "a", none⟩ (loneWorkspace spacedText)).1 = .ok m ∧
      NotBlankAt spacedText.lines m.payloadOffset ∧
      NotBlank (.ofLines (spacedText.lines.drop m.payloadOffset)) ∧
      IsLeast (indicesFrom 3 NotBlank spacedText.lines) m.payloadOffset := by
  have hc : (compile [] ∅ ⟨"a.psql", "a", none⟩ spacedText).map (·.payloadOffset) = .ok 4 := by
    decide +kernel
  obtain ⟨m, hm, -⟩ := exists_load_of_map (by decide) hc
  obtain ⟨text, b, ht, hb, hbegins, hiff, hnot, -⟩ := load_finds_payload hm
  obtain rfl := (hasText_loneWorkspace spacedText).unique ht
  have hbounds : bounds? spacedText.lines = some ⟨0, 2⟩ := by decide +kernel
  obtain rfl := Option.some.inj (hbounds.symm.trans (DocBlock.bounds?_eq_some_iff.2 hb))
  have hline : NotBlankAt spacedText.lines 4 :=
    ⟨"select 1".toList, by decide +kernel, 's', by decide, by decide⟩
  have hat := hiff.2 ⟨4, by decide, hline⟩
  exact ⟨m, hm, hat, hnot hat, hbegins.first ⟨4, by decide, hline⟩⟩

/-- A DocBlock with nothing after it loads, although its payload is empty and begins at no line. -/
theorem load_without_payload : ∃ m,
    (load ∅ ⟨"a.psql", "a", none⟩ (loneWorkspace bareText)).1 = .ok m ∧
      ¬ NotBlankAt bareText.lines m.payloadOffset ∧
      Text.ofLines (bareText.lines.drop m.payloadOffset) = [] ∧ m.source = [] := by
  have hc : (compile [] ∅ ⟨"a.psql", "a", none⟩ bareText).map
      (fun m => (m.payloadOffset, m.source)) = .ok (3, []) := by decide +kernel
  obtain ⟨m, hm, hparts⟩ := exists_load_of_map (by decide) hc
  obtain ⟨hoffset, hsource⟩ := Prod.mk.inj hparts
  have hend : bareText.lines[3]? = none := by decide +kernel
  refine ⟨m, hm, ?_, ?_, hsource⟩
  · rw [hoffset]
    rintro ⟨line, hline, -⟩
    rw [hend] at hline
    cases hline
  · rw [hoffset]
    decide +kernel

end Sample

end Routine

end StoredRoutine
