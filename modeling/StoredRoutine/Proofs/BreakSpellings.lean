import StoredRoutine.Proofs.CarriageReturns
import StoredRoutine.Proofs.StatementLines

/-!
Scripts in another spelling of their line breaks. A script whose line feeds are written as carriage
returns, alone or before a line feed, has the same physical lines but for their breaks. It is cut at
the same places, its breaks count the same and its blanks stay blank, so it splits into the same
fragments and statements, on the same lines and in that spelling.
-/
namespace StoredRoutine

namespace Text

section Respell

variable {t brk : Text}

theorem respell_of_not_isBreak (h : ∀ c ∈ t, isBreak c = false) (brk : Text) :
    t.respell brk = t :=
  respell_eq_self (fun hn => absurd (h _ hn) (by decide)) brk

theorem endsLine_respell (hb : IsReturn brk) (t : Text) : EndsLine brk (t.respell brk) := by
  rcases hb with rfl | rfl
  · exact .both _
  · refine .carriage fun h => ?_
    obtain ⟨c, -, hc⟩ := List.mem_flatMap.1 (List.mem_of_mem_head? h)
    by_cases hn : c = '\n'
    · simp [hn] at hc
    · simp [hn, Ne.symm hn] at hc

theorem EndsLine.respell (hb : IsReturn brk) {b rest : Text} (h : EndsLine b rest)
    (hr : '\r' ∉ b) : EndsLine (b.respell brk) (rest.respell brk) := by
  cases h with
  | both => simp at hr
  | feed =>
    have hfeed : Text.respell ['\n'] brk = brk := by simp [Text.respell]
    rw [hfeed]
    exact endsLine_respell hb rest
  | carriage => simp at hr
  | last => exact .last

theorem respell_eq_nil_iff (hb : IsReturn brk) : t.respell brk = [] ↔ t = [] := by
  constructor
  · intro h
    rw [respell, List.flatMap_eq_nil_iff] at h
    refine List.eq_nil_iff_forall_not_mem.2 fun c hc => ?_
    exact (hb.keepsClass (p := isBreak) rfl c).1 (h c hc)
  · rintro rfl
    rfl

/-- A break counts the same in every spelling. -/
theorem breaks_respell (hb : IsReturn brk) (ht : '\r' ∉ t) : breaks (t.respell brk) = breaks t := by
  induction t using physicalLines_induction with
  | nil => rfl
  | line body b rest hbody hend ih =>
    simp only [List.mem_append, not_or] at ht
    rw [respell_append, respell_append, respell_of_not_isBreak hbody,
      breaks_append_of_not_isBreak hbody, breaks_append_of_not_isBreak hbody,
      (hend.respell hb ht.2.1).breaks_append, hend.breaks_append, ih ht.2.2]
    simp only [respell_eq_nil_iff hb]

theorem indentation_respell (hb : IsReturn brk) (t : Text) :
    indentation (t.respell brk) = t.indentation.respell brk :=
  takeWhile_flatMap (hb.keepsClass rfl) t

theorem trim_respell (hb : IsReturn brk) (t : Text) : trim (t.respell brk) = t.trim.respell brk :=
  trim_flatMap (hb.keepsClass rfl) t

end Respell

end Text

namespace Script

open Text (EndsLine IsReturn breaks)

def Cut.respell (cut : Cut) (brk : Text) : Cut :=
  ⟨cut.body.respell brk, cut.terminator.respell brk, cut.rest.respell brk⟩

/-- A fragment of a script as it stands in another spelling of the script. -/
def Fragment.respell (f : Fragment) (script brk : Text) : Fragment :=
  { f with
    text := f.text.respell brk
    offset := (Text.respell (script.take f.offset) brk).length }

def Statement.respell (s : Statement) (brk : Text) : Statement :=
  { s with text := s.text.respell brk }

variable {script brk : Text}

/-- A script is cut at the same place in every spelling. -/
theorem cut?_respell (hb : IsReturn brk) (hs : '\r' ∉ script) :
    cut? (script.respell brk) = (cut? script).map (·.respell brk) := by
  induction script using Text.physicalLines_induction with
  | nil => rfl
  | line body b rest hbody hend ih =>
    simp only [List.mem_append, not_or] at hs
    have hself : ∀ t : Text, t ⊆ body → t.respell brk = t := fun t ht =>
      Text.respell_of_not_isBreak (fun c hc => hbody c (ht hc)) brk
    rw [Text.respell_append, Text.respell_append, hself body (List.Subset.refl body),
      cut?_line hbody (hend.respell hb hs.2.1), cut?_line hbody hend]
    cases ending? body with
    | some i =>
      simp only [Option.map_some, Cut.respell, Text.respell_append,
        hself _ (List.take_subset i body), hself _ (List.drop_subset i body)]
    | none =>
      rw [ih hs.2.2, Option.map_map, Option.map_map]
      refine congrArg (fun f => Option.map f (cut? rest)) (funext fun cut => ?_)
      simp only [Function.comp_apply, Cut.respell, Cut.after, Text.respell_append,
        hself body (List.Subset.refl body)]

/-- The fragments of the rest of a script, of which a part has been passed. -/
theorem fragmentsFrom_respell (hb : IsReturn brk) {offset line : Nat} (before : Text)
    (hs : '\r' ∉ script) (ho : offset = before.length) :
    fragmentsFrom (before.respell brk).length line (script.respell brk) =
      (fragmentsFrom offset line script).map (·.respell (before ++ script) brk) := by
  fun_induction fragmentsFrom offset line script generalizing before with
  | case1 offset line script cut hc ih =>
    have hscript := append_of_cut? hc
    have hmem : '\r' ∉ cut.body ++ cut.terminator ∧ '\r' ∉ cut.rest := by
      rwa [← hscript, List.mem_append, not_or] at hs
    have hbody : '\r' ∉ cut.body.indentation := fun h =>
      hmem.1 (List.mem_append_left _ (List.takeWhile_subset _ h))
    have hcut : cut? (script.respell brk) = some (cut.respell brk) := by
      rw [cut?_respell hb hs, hc]
      rfl
    have ih := ih (before ++ (cut.body ++ cut.terminator)) hmem.2 (by
      rw [ho, ← List.length_append])
    rw [List.append_assoc, hscript] at ih
    rw [fragmentsFrom_of_cut hcut, List.map_cons, ← ih]
    simp only [Cut.respell, Fragment.respell, ho, List.take_left, Text.indentation_respell hb,
      Text.breaks_respell hb hbody, ← Text.respell_append, Text.breaks_respell hb hmem.1,
      ← List.length_append]
  | case2 offset line script hc he =>
    obtain rfl := List.isEmpty_iff.1 he
    rw [Text.respell_nil, fragmentsFrom_of_uncut rfl]
    rfl
  | case3 offset line script hc he =>
    have hbody : '\r' ∉ script.indentation := fun h => hs (List.takeWhile_subset _ h)
    have hcut : cut? (script.respell brk) = none := by
      rw [cut?_respell hb hs, hc]
      rfl
    have hne : ¬ (script.respell brk).isEmpty = true := fun h =>
      he (List.isEmpty_iff.2 ((Text.respell_eq_nil_iff hb).1 (List.isEmpty_iff.1 h)))
    rw [fragmentsFrom_of_uncut hcut, if_neg hne]
    simp only [List.map_cons, List.map_nil, Fragment.respell, ho, List.take_left,
      Text.indentation_respell hb, Text.breaks_respell hb hbody]

theorem fragments_respell (hb : IsReturn brk) (hs : '\r' ∉ script) :
    fragments (script.respell brk) = (fragments script).map (·.respell script brk) :=
  fragmentsFrom_respell hb [] hs rfl

theorem Fragment.blank_respell (hb : IsReturn brk) (f : Fragment) :
    (f.respell script brk).blank = f.blank :=
  Text.allBlank_respell hb f.text

theorem statement?_respell (hb : IsReturn brk) (f : Fragment) :
    (f.respell script brk).statement? = f.statement?.map (·.respell brk) := by
  have htext : (f.respell script brk).text.trim = f.text.trim.respell brk :=
    Text.trim_respell hb f.text
  rw [Fragment.statement?, Fragment.blank_respell hb, htext, Fragment.statement?,
    apply_ite (Option.map _)]
  rfl

/-- A script without carriage returns and the script with a carriage return in place of each line feed,
or before each, have the same fragments and the same statements, in the spelling of the script and on
the same lines. -/
theorem statements_respelled (hs : '\r' ∉ script)
    (hb : brk = ['\r', '\n'] ∨ brk = ['\r']) :
    statements (script.respell brk) =
        (statements script).map (fun s => ⟨s.text.respell brk, s.line⟩) ∧
      fragments (script.respell brk) = (fragments script).map fun f =>
        ⟨f.text.respell brk, (Text.respell (script.take f.offset) brk).length, f.line,
          f.terminated⟩ := by
  refine ⟨?_, fragments_respell hb hs⟩
  rw [statements, fragments_respell hb hs, List.filterMap_map, statements, List.map_filterMap]
  exact List.filterMap_congr fun f _ => statement?_respell hb f

/-- A script with a statement of two lines, a comment after it and a tail. -/
def spelledScript : Text := "\nselect 1\n, 2; -- a;\n\ncommit;\n-- b".toList

theorem statements_respelled_returns :
    ('\r' ∉ spelledScript ∧ (['\r'] = ['\r', '\n'] ∨ ['\r'] = ['\r'])) ∧
      statements ("\rselect 1\r, 2; -- a;\r\rcommit;\r-- b".toList) =
        [⟨"select 1\r, 2".toList, 2⟩, ⟨"commit".toList, 5⟩] ∧
      (fragments ("\rselect 1\r, 2; -- a;\r\rcommit;\r-- b".toList)).map (·.line) =
        (fragments spelledScript).map (·.line) := by
  have hs : '\r' ∉ spelledScript := by decide
  have hb : ['\r'] = ['\r', '\n'] ∨ ['\r'] = ['\r'] := .inr rfl
  obtain ⟨hstatements, hfragments⟩ := statements_respelled hs hb
  have hspelled : spelledScript.respell ['\r'] =
      "\rselect 1\r, 2; -- a;\r\rcommit;\r-- b".toList := by decide
  have hplain : statements spelledScript =
      [⟨"select 1\n, 2".toList, 2⟩, ⟨"commit".toList, 5⟩] := by decide +kernel
  rw [hspelled] at hstatements hfragments
  refine ⟨⟨hs, hb⟩, ?_, ?_⟩
  · rw [hstatements, hplain]
    decide
  · rw [hfragments, List.map_map]
    rfl

end Script

end StoredRoutine
