import StoredRoutine.Proofs.FragmentsByLine
import StoredRoutine.Proofs.Trimming
import StoredRoutine.Script

/-!
The lines that are told with fragments and statements, counted through the whole script.
-/
namespace StoredRoutine

/-!
The line on which a statement starts, counted through the whole script. Lines are counted from
fragment to fragment, and no break lies across two of them, so the count for a fragment is that of
the breaks before its first character that is not blank.
-/

namespace Text

/-- Neither the first nor the last character is blank, and there is one. -/
def Trimmed (t : Text) : Prop :=
  (∃ c, t.head? = some c ∧ isBlank c = false) ∧ ∃ c, t.getLast? = some c ∧ isBlank c = false

/-- The line, counted from one, of the character at a place: every line before it ends in a break. -/
def lineAt (t : Text) (place : Nat) : Nat :=
  1 + (physicalLines (t.take place)).countP fun l => l.brk ≠ []

theorem lineAt_eq (t : Text) (place : Nat) : t.lineAt place = 1 + breaks (t.take place) := by
  rw [lineAt, breaks_eq_countP]

section Trim

variable {t : Text}

theorem exists_trimLeft_eq_cons (h : t.allBlank = false) :
    ∃ c u, t.trimLeft = c :: u ∧ isBlank c = false := by
  cases hu : t.trimLeft with
  | nil =>
    have hall := List.dropWhile_eq_nil_iff.1 hu
    rw [allBlank, List.all_eq_true.2 hall] at h
    exact absurd h (by decide)
  | cons c u => exact ⟨c, u, rfl, not_isBlank_head_trimLeft (by rw [hu]; rfl)⟩

theorem trimmed_trim (h : t.allBlank = false) : Trimmed t.trim := by
  obtain ⟨c, u, hu, hc⟩ := exists_trimLeft_eq_cons h
  have hne : t.trim ≠ [] := by
    intro hn
    rw [trim, trimRight_eq_rdropWhile, List.rdropWhile_eq_nil_iff, hu] at hn
    rw [hn c List.mem_cons_self] at hc
    exact absurd hc (by decide)
  constructor
  · obtain ⟨d, v, hv⟩ := List.exists_cons_of_ne_nil hne
    have hp := trim_prefix_trimLeft t
    rw [hv, hu, List.cons_prefix_cons] at hp
    exact ⟨c, by rw [hv, hp.1]; rfl, hc⟩
  · have hlast := List.getLast?_eq_some_getLast hne
    exact ⟨t.trim.getLast hne, hlast, not_isBlank_getLast_trimRight hlast⟩

/-- The text without the blanks around it stands after its leading blanks. -/
theorem trim_prefix_drop (t : Text) : t.trim <+: t.drop t.indentation.length := by
  have hd : t.drop t.indentation.length = t.trimLeft := by
    conv => lhs; arg 2; rw [← indentation_append_trimLeft t]
    exact List.drop_left
  rw [hd]
  exact trim_prefix_trimLeft t

end Trim

end Text

namespace Script

open Text (EndsLine Apart breaks lineAt Trimmed)

/-- The place of the first character of a fragment that is not blank, or of its end. -/
def Fragment.start (f : Fragment) : Nat := f.offset + f.text.indentation.length

section Terminators

/-- Whatever ends a statement ends its line. -/
theorem endsLine_of_lineEnd? {t brk rest : Text} (h : lineEnd? t = some (brk, rest)) :
    EndsLine brk rest := by
  unfold lineEnd? at h
  split at h
  · obtain ⟨rfl, rfl⟩ := Prod.mk.inj (Option.some.inj h)
    exact .last
  · obtain ⟨rfl, rfl⟩ := Prod.mk.inj (Option.some.inj h)
    exact .both _
  · next c t hne =>
    split at h
    · next hc =>
      obtain ⟨rfl, rfl⟩ := Prod.mk.inj (Option.some.inj h)
      refine Text.endsLine_singleton hc fun hcr hd => ?_
      obtain ⟨u, hu⟩ := List.head?_eq_some_iff.1 hd
      exact hne u hcr hu
    · simp at h

theorem exists_brk_of_closing? {t tail rest : Text} (h : closing? t = some (tail, rest)) :
    ∃ inner brk, tail = inner ++ brk ∧ EndsLine brk rest := by
  simp only [closing?, Option.map_eq_some_iff, Prod.mk.injEq, Prod.exists] at h
  obtain ⟨brk, r, hr, rfl, rfl⟩ := h
  exact ⟨_, brk, rfl, endsLine_of_lineEnd? hr⟩

/-- A terminator is a semicolon and what follows it up to the end of its line. -/
theorem exists_brk_of_cut? {t : Text} {cut : Cut} (h : cut? t = some cut) :
    ∃ inner brk, cut.terminator = ';' :: inner ++ brk ∧ EndsLine brk cut.rest := by
  induction t generalizing cut with
  | nil => simp [cut?] at h
  | cons c t ih =>
    unfold cut? at h
    split at h
    · next tail rest hc =>
      obtain rfl := Option.some.inj h
      split at hc
      · obtain ⟨inner, brk, rfl, he⟩ := exists_brk_of_closing? hc
        exact ⟨inner, brk, rfl, he⟩
      · simp at hc
    · obtain ⟨cut', hc, rfl⟩ := Option.map_eq_some_iff.1 h
      exact @ih cut' hc

end Terminators

section Lines

variable {offset line : Nat} {script : Text} {f : Fragment}

/-- The leading blanks of a statement have fewer breaks than the statement up to the end of its
line, unless the script ends there. -/
theorem breaks_indentation_lt {cut : Cut} (h : cut? script = some cut) (hr : cut.rest ≠ []) :
    breaks cut.body.indentation < breaks (cut.body ++ cut.terminator) := by
  obtain ⟨inner, brk, hterm, he⟩ := exists_brk_of_cut? h
  have hsplit : cut.body ++ cut.terminator =
      cut.body.indentation ++ (cut.body.trimLeft ++ cut.terminator) := by
    rw [← List.append_assoc, Text.indentation_append_trimLeft]
  have hapart : Apart cut.body.indentation (cut.body.trimLeft ++ cut.terminator) := by
    intro _ hnl
    cases hu : cut.body.trimLeft with
    | nil => simp [hu, hterm] at hnl
    | cons c u =>
      rw [hu] at hnl
      have hc : isBlank '\n' = false := Text.not_isBlank_head_trimLeft (by rw [hu]; exact hnl)
      exact absurd hc (by decide)
  have hlast : breaks brk ≤ breaks (cut.body.trimLeft ++ cut.terminator) := by
    rw [hterm, ← List.append_assoc]
    exact Text.breaks_le_breaks_append _ brk
  rw [hsplit, Text.breaks_append hapart]
  rw [he.breaks_eq hr] at hlast
  omega

theorem le_of_mem_fragmentsFrom (h : f ∈ fragmentsFrom offset line script) :
    offset ≤ f.offset ∧ line ≤ f.line := by
  fun_induction fragmentsFrom offset line script with
  | case1 offset line script cut hc ih =>
    rcases List.mem_cons.1 h with rfl | h
    · exact ⟨Nat.le_refl _, Nat.le_add_right _ _⟩
    · have ih := ih h
      omega
  | case2 => exact absurd h List.not_mem_nil
  | case3 =>
    obtain rfl := List.mem_singleton.1 h
    exact ⟨Nat.le_refl _, Nat.le_add_right _ _⟩

theorem pairwise_fragmentsFrom (offset line : Nat) (script : Text) :
    (fragmentsFrom offset line script).Pairwise fun f g => f.start < g.start ∧ f.line < g.line := by
  fun_induction fragmentsFrom offset line script with
  | case1 offset line script cut hc ih =>
    refine List.pairwise_cons.2 ⟨fun g hg => ?_, ih⟩
    have hr : cut.rest ≠ [] := by
      intro hr
      rw [hr, fragmentsFrom_of_uncut rfl] at hg
      simp at hg
    obtain ⟨ho, hl⟩ := le_of_mem_fragmentsFrom hg
    have hlt := breaks_indentation_lt hc hr
    have hlen := List.length_pos_iff.2 (terminator_ne_nil hc)
    have hind := (List.takeWhile_sublist (l := cut.body) isBlank).length_le
    rw [← Text.indentation] at hind
    rw [List.length_append] at ho
    simp only [Fragment.start]
    omega
  | case2 => exact .nil
  | case3 => exact List.pairwise_singleton _ _

/-- The line on which a text starts after its leading blanks. -/
theorem lineAt_start {before body tail : Text} (h : Apart before (body ++ tail)) :
    lineAt (before ++ (body ++ tail)) (before.length + body.indentation.length) =
      1 + breaks before + breaks body.indentation := by
  have hprefix : body.indentation <+: body ++ tail :=
    (List.takeWhile_prefix isBlank).trans (List.prefix_append body tail)
  have hsplit : body ++ tail = body.indentation ++ (body.trimLeft ++ tail) := by
    rw [← List.append_assoc, Text.indentation_append_trimLeft]
  rw [Text.lineAt_eq, ← List.length_append]
  conv => lhs; rw [hsplit, ← List.append_assoc, List.take_left]
  rw [Text.breaks_append (h.of_prefix hprefix), Nat.add_assoc]

/-- The line of a fragment is that of its start, counted from the start of the script. -/
theorem line_of_mem_fragmentsFrom {before : Text} (ha : Apart before script)
    (ho : offset = before.length) (hl : line = 1 + breaks before)
    (h : f ∈ fragmentsFrom offset line script) : f.line = lineAt (before ++ script) f.start := by
  fun_induction fragmentsFrom offset line script generalizing before with
  | case1 offset line script cut hc ih =>
    have hs := append_of_cut? hc
    rw [← hs, List.append_assoc] at ha
    rcases List.mem_cons.1 h with rfl | h
    · rw [← hs, List.append_assoc]
      simp only [Fragment.start, ho, hl]
      exact (lineAt_start ha).symm
    · obtain ⟨inner, brk, hterm, he⟩ := exists_brk_of_cut? hc
      have hnext : Apart (before ++ (cut.body ++ cut.terminator)) cut.rest := by
        rw [hterm, ← List.append_assoc, ← List.append_assoc]
        exact he.apart _
      have hbreaks : line + breaks (cut.body ++ cut.terminator) =
          1 + breaks (before ++ (cut.body ++ cut.terminator)) := by
        rw [← List.append_assoc] at ha
        rw [Text.breaks_append (ha.of_prefix (List.prefix_append _ _)), hl, Nat.add_assoc]
      have ih := ih hnext (by rw [ho, ← List.length_append]) hbreaks h
      rwa [List.append_assoc, hs] at ih
  | case2 => exact absurd h List.not_mem_nil
  | case3 offset line script =>
    obtain rfl := List.mem_singleton.1 h
    rw [← List.append_nil script] at ha
    have hs := lineAt_start ha
    rw [List.append_nil] at hs
    simp only [Fragment.start, ho, hl]
    exact hs.symm

theorem line_of_mem_fragments (h : f ∈ fragments script) : f.line = lineAt script f.start := by
  have ha : Apart [] script := fun h => by simp at h
  exact line_of_mem_fragmentsFrom ha rfl rfl h

end Lines

/-- The fragments that are executed: those that a semicolon ends and that are not blank. -/
def executed (script : Text) : List Fragment :=
  (fragments script).filter fun f => f.terminated && !f.blank

theorem of_mem_executed (h : f ∈ executed script) : f ∈ fragments script ∧ f.blank = false := by
  obtain ⟨hf, he⟩ := List.mem_filter.1 h
  simp only [Bool.and_eq_true, Bool.not_eq_true'] at he
  exact ⟨hf, he.2⟩

theorem statements_eq_map_executed (script : Text) :
    statements script =
      (executed script).map fun f => ⟨f.text.trim, lineAt script f.start⟩ := by
  rw [executed, ← List.filterMap_eq_map, List.filterMap_filter, statements]
  refine List.filterMap_congr fun f hf => ?_
  rw [Fragment.statement?, line_of_mem_fragments hf]
  rfl

theorem trim_prefix_of_mem_executed (h : f ∈ executed script) :
    f.text.trim <+: script.drop f.start := by
  obtain ⟨hp, -⟩ := exists_lines_of_mem_fragments (of_mem_executed h).1
  rw [Fragment.start, ← List.drop_drop]
  exact (Text.trim_prefix_drop f.text).trans (hp.drop _)

/-- The statements of a script are its fragments that are executed, in order. Each of them is free
of blanks around it and stands in the script after the leading blanks of its fragment, on the line
that is told with it; places and lines strictly ascend. -/
theorem statements_stand_at_lines (script : Text) :
    statements script =
        (executed script).map (fun f => ⟨f.text.trim, lineAt script f.start⟩) ∧
      (executed script).Pairwise (fun f g =>
        f.start < g.start ∧ lineAt script f.start < lineAt script g.start) ∧
      ∀ f ∈ executed script, Trimmed f.text.trim ∧ f.text.trim <+: script.drop f.start ∧
        ∀ c ∈ (script.take f.start).drop f.offset, isBlank c = true := by
  refine ⟨statements_eq_map_executed script, ?_, ?_⟩
  · refine ((pairwise_fragmentsFrom 0 1 script).filter _).imp_of_mem ?_
    rintro f g hf hg ⟨hstart, hline⟩
    rw [line_of_mem_fragments (of_mem_executed hf).1,
      line_of_mem_fragments (of_mem_executed hg).1] at hline
    exact ⟨hstart, hline⟩
  · intro f h
    obtain ⟨hf, hb⟩ := of_mem_executed h
    obtain ⟨hp, -⟩ := exists_lines_of_mem_fragments hf
    have hind : f.text.indentation <+: script.drop f.offset :=
      (List.takeWhile_prefix isBlank).trans hp
    refine ⟨Text.trimmed_trim hb, trim_prefix_of_mem_executed h, ?_⟩
    rw [Fragment.start, List.drop_take, Nat.add_sub_cancel_left, ← List.prefix_iff_eq_take.1 hind]
    exact fun c hc => Text.mem_takeWhile hc

end Script

/-!
The line of a blank fragment. A fragment is told with the line on which its leading blanks end. A blank
fragment has nothing else, so the line is that of its end: the line on which the fragment starts only if
there is no break in it.
-/

namespace Text

theorem breaks_eq_zero_iff {t : Text} : breaks t = 0 ↔ ∀ c ∈ t, isBreak c = false := by
  constructor
  · intro h c hc
    by_contra hbreak
    rw [Bool.not_eq_false] at hbreak
    obtain ⟨u, v, rfl⟩ := List.append_of_mem hc
    have hle := breaks_le_breaks_append u (c :: v)
    by_cases hpair : c = '\r' → v.head? ≠ some '\n'
    · rw [breaks_cons hpair, if_pos hbreak] at hle
      omega
    · -- a carriage return with the line feed after it is one break
      simp only [not_forall, not_not] at hpair
      obtain ⟨rfl, hv⟩ := hpair
      obtain ⟨w, rfl⟩ := List.head?_eq_some_iff.1 hv
      rw [breaks] at hle
      omega
  · intro h
    have hbreaks := breaks_append_of_not_isBreak h []
    rwa [List.append_nil] at hbreaks

/-- No break lies across the place where a line begins. -/
theorem apart_of_physicalLines (t : Text) : ∀ before after, physicalLines t = before ++ after →
    Apart (ofPhysicalLines before) (ofPhysicalLines after) := by
  induction t using physicalLines_induction with
  | nil =>
    intro before after h
    rw [(List.append_eq_nil_iff.1 h.symm).1]
    exact fun hl => by cases hl
  | line body brk rest hbody hend ih =>
    intro before after h
    cases before with
    | nil => exact fun hl => by cases hl
    | cons l before =>
      obtain rfl := (List.cons.inj h).1
      have hrest : physicalLines rest = before ++ after := (List.cons.inj h).2
      rw [ofPhysicalLines, List.flatMap_cons, ← ofPhysicalLines, Line.text]
      by_cases hempty : ofPhysicalLines before = []
      · have hafter : ofPhysicalLines after = rest := by
          rw [← ofPhysicalLines_physicalLines rest, hrest, ofPhysicalLines_append, hempty,
            List.nil_append]
        rw [hempty, List.append_nil, hafter]
        exact hend.apart body
      · intro hl
        rw [List.getLast?_append_of_ne_nil _ hempty] at hl
        exact ih before after hrest hl

end Text

namespace Script

open Text (Apart breaks isBreak lineAt)

variable {script : Text} {f : Fragment}

theorem apart_of_mem_fragments (h : f ∈ fragments script) :
    Apart (script.take f.offset) (script.drop f.offset) := by
  obtain ⟨-, before, after, hlines, hbefore⟩ := exists_lines_of_mem_fragments h
  have hscript : script.take f.offset ++ script.drop f.offset =
      script.take f.offset ++ Text.ofPhysicalLines after := by
    rw [List.take_append_drop, ← hbefore, ← Text.ofPhysicalLines_append, ← hlines,
      Text.ofPhysicalLines_physicalLines]
  rw [List.append_cancel_left hscript, ← hbefore]
  exact Text.apart_of_physicalLines script before after hlines

theorem indentation_of_blank (h : f.blank = true) : f.text.indentation = f.text :=
  List.takeWhile_eq_self_iff.2 fun c hc => List.all_eq_true.1 h c hc

/-- A blank fragment is told with the line on which it ends, so it is told with the line on which it
starts exactly if it has no break in it. -/
theorem line_of_blank (h : f ∈ fragments script) (hb : f.blank = true) :
    f.line = lineAt script f.offset + breaks f.text ∧
      (f.line = lineAt script f.offset ↔ ∀ c ∈ f.text, isBreak c = false) := by
  have hline : f.line = lineAt script f.offset + breaks f.text := by
    obtain ⟨⟨rest, hrest⟩, -⟩ := exists_lines_of_mem_fragments h
    have hapart : Apart (script.take f.offset) f.text :=
      Text.Apart.of_prefix (apart_of_mem_fragments h) ⟨rest, hrest⟩
    have htake : script.take (f.offset + f.text.length) = script.take f.offset ++ f.text := by
      rw [List.take_add, ← hrest, List.take_left]
    rw [line_of_mem_fragments h, Fragment.start, indentation_of_blank hb, Text.lineAt_eq,
      Text.lineAt_eq, htake, Text.breaks_append hapart, Nat.add_assoc]
  refine ⟨hline, ?_⟩
  rw [hline, Nat.add_eq_left]
  exact Text.breaks_eq_zero_iff

/-- A script whose second fragment is a semicolon with blanks before it, and whose tail is blank. -/
def blankScript : Text := "select 1;\r\n\t ;\r\n\r\n\r".toList

/-- The tail is told with a line two lines below the one on which it starts. -/
theorem line_of_blank_tail :
    (⟨"\r\n\r".toList, 16, 5, false⟩ ∈ fragments blankScript ∧
      Fragment.blank ⟨"\r\n\r".toList, 16, 5, false⟩ = true) ∧ 5 = lineAt blankScript 16 + 2 := by
  have hm : (⟨"\r\n\r".toList, 16, 5, false⟩ : Fragment) ∈ fragments blankScript := by
    decide +kernel
  have hb : Fragment.blank ⟨"\r\n\r".toList, 16, 5, false⟩ = true := by decide
  exact ⟨⟨hm, hb⟩, (line_of_blank hm hb).1⟩

/-- A semicolon after an empty line is told with its own line, though its fragment starts on the line
before. -/
theorem line_of_blank_after_break :
    fragments "\n;".toList = [⟨"\n".toList, 0, 2, true⟩] ∧
      Fragment.blank ⟨"\n".toList, 0, 2, true⟩ = true ∧ lineAt "\n;".toList 0 = 1 := by
  decide +kernel

end Script

end StoredRoutine
