import StoredRoutine.Proofs.StatementLines

/-!
A script put behind another one. Where the first one ends with the line of its last terminator, it is
cut at the same places with the second one behind it as alone, and no break lies across the seam. So
the fragments of both together are those of the first one and, on later lines, those of the second
one.
-/
namespace StoredRoutine

namespace Text

/-- No line of a text is left open. -/
def Finished (t : Text) : Prop := ∀ c, t.getLast? = some c → isBreak c = true

theorem Finished.of_append {s t : Text} (h : Finished (s ++ t)) : Finished t := fun c hc =>
  h c (by rw [List.getLast?_append, hc, Option.some_or])

theorem Apart.of_append {s t u : Text} (h : Apart (s ++ t) u) : Apart t u := fun hl =>
  h (by rw [List.getLast?_append, hl, Option.some_or])

theorem Finished.eq_nil {t : Text} (h : Finished t) (ht : ∀ c ∈ t, isBreak c = false) : t = [] := by
  rw [← List.getLast?_eq_none_iff]
  refine Option.eq_none_iff_forall_ne_some.2 fun c hc => ?_
  have hbreak := h c hc
  rw [ht c (List.mem_of_getLast? hc)] at hbreak
  cases hbreak

/-- A line that ends before more of its text is not changed by what is put behind that text. -/
theorem EndsLine.append {brk rest u : Text} (h : EndsLine brk rest) (hb : brk ≠ [])
    (hu : Apart (brk ++ rest) u) : EndsLine brk (rest ++ u) := by
  cases h with
  | both => exact .both _
  | feed => exact .feed _
  | carriage hr =>
    refine .carriage ?_
    cases rest with
    | nil => exact hu rfl
    | cons c rest => exact hr
  | last => exact absurd rfl hb

end Text

namespace Script

open Text (Apart Finished breaks isBreak)

variable {a b : Text}

section Cut

/-- What is put behind a finished text does not change where the text is cut. -/
theorem cut?_append (ha : Finished a) (hab : Apart a b) :
    cut? (a ++ b) = match cut? a with
      | some cut => some { cut with rest := cut.rest ++ b }
      | none => (cut? b).map (·.after a) := by
  induction a using Text.physicalLines_induction with
  | nil => exact (Cut.after_nil (cut? b)).symm
  | line body brk rest hbody hend ih =>
    by_cases hbrk : brk = []
    · -- only the empty text has a last line without break
      subst hbrk
      cases hend
      rw [List.nil_append, List.append_nil] at ha ⊢
      obtain rfl := ha.eq_nil hbody
      exact (Cut.after_nil (cut? b)).symm
    · have hseam : Apart (brk ++ rest) b := hab.of_append
      have happend : body ++ (brk ++ rest) ++ b = body ++ (brk ++ (rest ++ b)) := by
        simp only [List.append_assoc]
      rw [happend, cut?_line hbody (hend.append hbrk hseam), cut?_line hbody hend]
      cases ending? body with
      | some i => rfl
      | none =>
        dsimp only
        rw [ih ha.of_append.of_append hseam.of_append]
        cases cut? rest with
        | some cut => rfl
        | none =>
          simp only [Option.map_none, Option.map_map]
          refine congrArg (fun f => Option.map f (cut? b)) (funext fun cut => ?_)
          simp [Cut.after]

end Cut

/-- A fragment at a later place of a script, on a later line. -/
def Fragment.later (places lines : Nat) (f : Fragment) : Fragment :=
  { f with offset := f.offset + places, line := f.line + lines }

theorem fragmentsFrom_later (places lines offset line : Nat) (script : Text) :
    fragmentsFrom (offset + places) (line + lines) script =
      (fragmentsFrom offset line script).map (·.later places lines) := by
  fun_induction fragmentsFrom offset line script with
  | case1 offset line script cut hc ih =>
    rw [fragmentsFrom_of_cut hc, List.map_cons, ← ih]
    simp only [Fragment.later, Nat.add_right_comm]
  | case2 offset line script hc he =>
    rw [fragmentsFrom_of_uncut hc, if_pos he]
    rfl
  | case3 offset line script hc he =>
    rw [fragmentsFrom_of_uncut hc, if_neg he]
    simp only [Fragment.later, List.map_cons, List.map_nil, Nat.add_right_comm]

theorem statement?_later (places lines : Nat) (f : Fragment) :
    (f.later places lines).statement? =
      f.statement?.map fun s => ⟨s.text, s.line + lines⟩ := by
  rw [Fragment.statement?, Fragment.statement?, apply_ite (Option.map _)]
  rfl

/-- The last of some fragments, if there is one, is one that a semicolon ends. -/
def Ended (fs : List Fragment) : Prop := ∀ f, fs.getLast? = some f → f.terminated = true

theorem fragmentsFrom_append (ha : Finished a) (hab : Apart a b) {offset line : Nat}
    (he : Ended (fragmentsFrom offset line a)) :
    fragmentsFrom offset line (a ++ b) =
      fragmentsFrom offset line a ++ fragmentsFrom (offset + a.length) (line + breaks a) b := by
  fun_induction fragmentsFrom offset line a with
  | case1 offset line a cut hc ih =>
    have hcut : cut? (a ++ b) = some { cut with rest := cut.rest ++ b } := by
      rw [cut?_append ha hab, hc]
    have hsplit := append_of_cut? hc
    obtain ⟨inner, brk, hterm, hend⟩ := exists_brk_of_cut? hc
    have hseam : Apart (cut.body ++ cut.terminator) cut.rest := by
      rw [hterm, ← List.append_assoc]
      exact hend.apart _
    have hrest : Ended (fragmentsFrom (offset + (cut.body ++ cut.terminator).length)
        (line + breaks (cut.body ++ cut.terminator)) cut.rest) := fun f hf =>
      he f (by rw [List.getLast?_cons, hf, Option.getD_some])
    rw [← hsplit] at ha hab
    rw [fragmentsFrom_of_cut hcut, ih ha.of_append hab.of_append hrest, List.cons_append, ← hsplit,
      Text.breaks_append hseam]
    simp only [List.length_append, Nat.add_assoc]
  | case2 offset line a hc hempty =>
    obtain rfl := List.isEmpty_iff.1 hempty
    rfl
  | case3 offset line a hc hempty => cases he _ rfl

/-- Splitting goes script by script. Behind a script that is empty, or that ends with a break and has no
fragment left open, another one is split as it is alone, at later places and on later lines, and what
comes before it stays; only a break must not lie across the seam. -/
theorem fragments_append
    (ha : a = [] ∨ (∃ c, a.getLast? = some c ∧ isBreak c = true) ∧
      ∃ f, (fragments a).getLast? = some f ∧ f.terminated = true)
    (hab : ¬ (a.getLast? = some '\r' ∧ b.head? = some '\n')) :
    fragments (a ++ b) = fragments a ++ (fragments b).map (fun f =>
        ⟨f.text, f.offset + a.length, f.line + breaks a, f.terminated⟩) ∧
      statements (a ++ b) = statements a ++ (statements b).map fun s =>
        ⟨s.text, s.line + breaks a⟩ := by
  have hfinished : Finished a ∧ Ended (fragments a) := by
    rcases ha with rfl | ⟨⟨c, hc, hbreak⟩, f, hf, hterm⟩
    · refine ⟨fun c hc => (by cases hc), fun f hf => ?_⟩
      rw [fragments, fragmentsFrom_of_uncut rfl] at hf
      cases hf
    · exact ⟨fun d hd => Option.some.inj (hc.symm.trans hd) ▸ hbreak,
        fun g hg => Option.some.inj (hf.symm.trans hg) ▸ hterm⟩
  have hseam : Apart a b := fun hl hh => hab ⟨hl, hh⟩
  have hfragments : fragments (a ++ b) =
      fragments a ++ (fragments b).map (·.later a.length (breaks a)) := by
    rw [fragments, fragmentsFrom_append hfinished.1 hseam hfinished.2, fragmentsFrom_later]
    rfl
  refine ⟨hfragments, ?_⟩
  rw [statements, hfragments, List.filterMap_append, List.filterMap_map, statements, statements,
    List.map_filterMap]
  simp only [Function.comp_def, statement?_later]

/-- A script of two statements, of which one is blank, with breaks in all spellings. -/
def firstScript : Text := "select 1; -- one;\r\n\n;\r".toList

/-- A script that begins with a break and leaves its end open. -/
def secondScript : Text := "\rselect\n2;\nselect 3".toList

theorem fragments_append_two :
    ((∃ c, firstScript.getLast? = some c ∧ isBreak c = true) ∧
      (∃ f, (fragments firstScript).getLast? = some f ∧ f.terminated = true) ∧
      ¬ (firstScript.getLast? = some '\r' ∧ secondScript.head? = some '\n')) ∧
    (fragments (firstScript ++ secondScript)).map (fun f => (f.offset, f.line)) =
      [(0, 1), (19, 3), (22, 5), (33, 7)] ∧
    statements (firstScript ++ secondScript) =
      [⟨"select 1".toList, 1⟩, ⟨"select\n2".toList, 5⟩] := by
  have hbreak : ∃ c, firstScript.getLast? = some c ∧ isBreak c = true := ⟨'\r', by decide, rfl⟩
  have hterm : ∃ f, (fragments firstScript).getLast? = some f ∧ f.terminated = true :=
    ⟨⟨['\n'], 19, 3, true⟩, by decide +kernel, rfl⟩
  have hseam : ¬ (firstScript.getLast? = some '\r' ∧ secondScript.head? = some '\n') := by decide
  obtain ⟨hfragments, hstatements⟩ := fragments_append (.inr ⟨hbreak, hterm⟩) hseam
  refine ⟨⟨hbreak, hterm, hseam⟩, ?_, ?_⟩
  · rw [hfragments]
    decide +kernel
  · rw [hstatements]
    decide +kernel

end Script

end StoredRoutine
