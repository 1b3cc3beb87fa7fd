import StoredRoutine.Proofs.BindMarkers
import StoredRoutine.Proofs.CarriageReturns
import StoredRoutine.Proofs.PayloadText
import StoredRoutine.Proofs.Records

/-!
A source whose lines end in a carriage return and a line feed compiles to what it compiles to with
line feeds alone. The carriage return is a blank at the end of a line: no marker, no decoration and
no tag sees it, it ends placeholders and bind markers as the line feed does, and no token that is
replaced holds one, so it comes out at the end of the compiled line.
-/
namespace StoredRoutine

open Text (returned)

namespace DocBlock

theorem isOpening_return (line : Text) : isOpening (line ++ ['\r']) = isOpening line := by
  rw [isOpening, Text.trim_concat_of_blank line isBlank_return, isOpening]

theorem isClosing_return (line : Text) : isClosing (line ++ ['\r']) = isClosing line := by
  rw [isClosing, Text.trim_concat_of_blank line isBlank_return, isClosing]

theorem undecorated_return (line : Text) : undecorated (line ++ ['\r']) = undecorated line := by
  rw [undecorated, Text.trim_concat_of_blank line isBlank_return, undecorated]

theorem findIdx?_returned {p : Text → Bool} (h : ∀ line, p (line ++ ['\r']) = p line)
    (lines : List Text) : (returned lines).findIdx? p = lines.findIdx? p := by
  have hmap := congrArg (List.findIdx? id) (Text.map_returned h lines)
  rwa [List.findIdx?_map, List.findIdx?_map] at hmap

theorem bounds?_returned (lines : List Text) : bounds? (returned lines) = bounds? lines := by
  simp only [bounds?_eq_findIdx?, findIdx?_returned isOpening_return, Text.drop_returned,
    findIdx?_returned isClosing_return]

theorem extract_returned (schemas : Schemas) (lines : List Text) :
    extract schemas (returned lines) = extract schemas lines := by
  have hparse : ∀ b : Bounds, parse schemas (((returned lines).take b.last).drop (b.first + 1)) =
      parse schemas ((lines.take b.last).drop (b.first + 1)) := fun b => by
    rw [parse, parse, List.map_drop, List.map_take, Text.map_returned undecorated_return,
      List.map_drop, List.map_take]
  rw [extract, extract, bounds?_returned]
  simp only [hparse]

end DocBlock

namespace BindMarker

theorem scan_ofLines_returned (lines : List Text) :
    scan false (.ofLines (returned lines)) = scan false (.ofLines lines) := by
  fun_induction returned lines with
  | case1 => rfl
  | case2 line => rfl
  | case3 line line' lines ih =>
    rw [Text.ofLines_cons (Text.returned_ne_nil (List.cons_ne_nil _ _)),
      Text.ofLines_cons (List.cons_ne_nil _ _), List.append_assoc, List.singleton_append,
      scan_append_separator (by decide) (by decide), scan_of_not_colon (by decide), ih,
      scan_append_separator (by decide) (by decide)]

end BindMarker

namespace Placeholder

theorem find_return (line : Text) : find (line ++ ['\r']) = find line :=
  find_append_of_blank line (List.forall_mem_singleton.2 isBlank_return)

theorem find_crlf (t : Text) : find t.crlf = find t := by
  rw [← flatMap_find_lines, ← flatMap_find_lines, Text.lines_crlf, List.flatMap_def,
    Text.map_returned find_return, List.flatMap_def]

section Pass

variable {tokens : List (Text × Text)} {c : Char}

theorem after?_concat {start : Text} (h : c ∉ start) (t : Text) :
    Text.after? start (t ++ [c]) = (Text.after? start t).map (· ++ [c]) := by
  induction start generalizing t with
  | nil => rfl
  | cons a start ih =>
    rw [List.mem_cons, not_or] at h
    cases t with
    | nil => simp [Text.after?, Ne.symm h.1]
    | cons b t =>
      rw [List.cons_append, Text.after?, Text.after?, ih h.2]
      split <;> rfl

theorem replaced?_concat (h : ∀ e ∈ tokens, c ∉ e.1) (t : Text) :
    replaced? tokens (t ++ [c]) =
      (replaced? tokens t).map fun (value, rest) => (value, rest ++ [c]) := by
  induction tokens with
  | nil => rfl
  | cons e tokens ih =>
    obtain ⟨he, h⟩ := List.forall_mem_cons.1 h
    have ih := ih h
    rw [replaced?, replaced?] at ih ⊢
    rw [List.findSome?_cons, List.findSome?_cons, ih, after?_concat he]
    cases e.1.isEmpty with
    | true => rfl
    | false => cases Text.after? e.1 t <;> rfl

theorem replaceIn_of_replaced {t value rest : Text}
    (h : replaced? tokens (c :: t) = some (value, rest)) :
    replaceIn tokens (c :: t) = value ++ replaceIn tokens rest := by
  rw [replaceIn]
  split
  · next value' rest' h' =>
    obtain ⟨rfl, rfl⟩ := Prod.mk.inj (Option.some.inj (h.symm.trans h'))
    rfl
  · next h' => exact absurd (h.symm.trans h') (by simp)

theorem replaceIn_of_not_replaced {t : Text} (h : replaced? tokens (c :: t) = none) :
    replaceIn tokens (c :: t) = c :: replaceIn tokens t := by
  rw [replaceIn]
  split
  · next h' => exact absurd (h.symm.trans h') (by simp)
  · rfl

/-- A character that no token holds stays at the end. -/
theorem replaceIn_concat (h : ∀ e ∈ tokens, c ∉ e.1) (t : Text) :
    replaceIn tokens (t ++ [c]) = replaceIn tokens t ++ [c] := by
  fun_induction replaceIn tokens t with
  | case1 =>
    have hnone : replaced? tokens [c] = none := by
      rw [Option.eq_none_iff_forall_ne_some]
      rintro ⟨value, rest⟩ hr
      obtain ⟨e, he, hne, -, hc⟩ := exists_token_of_replaced? hr
      obtain ⟨d, name, hname⟩ := List.exists_cons_of_ne_nil hne
      rw [hname] at hc
      exact h e he (by rw [hname, (List.cons.inj hc).1]; exact List.mem_cons_self)
    rw [List.nil_append, replaceIn_of_not_replaced hnone, replaceIn]
  | case2 d t value rest hr ih =>
    have hr' := replaced?_concat h (d :: t)
    rw [hr, List.cons_append] at hr'
    rw [List.cons_append, replaceIn_of_replaced hr', ih, List.append_assoc]
  | case3 d t hr ih =>
    have hr' := replaced?_concat h (d :: t)
    rw [hr, List.cons_append] at hr'
    rw [List.cons_append, replaceIn_of_not_replaced hr', ih, List.cons_append]

end Pass

end Placeholder

namespace Routine

open Placeholder (compiledLine find)

theorem payloadOffset_returned (lines : List Text) (doc : DocBlock) :
    payloadOffset (returned lines) doc = payloadOffset lines doc := by
  have hblank : ∀ line : Text, (line ++ ['\r']).allBlank = line.allBlank := fun line => by
    simp [Text.allBlank]
  have hlength : ∀ lines : List Text, ((returned lines).takeWhile (·.allBlank)).length =
      (lines.takeWhile (·.allBlank)).length := fun lines => by
    have hmap := congrArg (fun bs => (bs.takeWhile id).length) (Text.map_returned hblank lines)
    simpa [List.takeWhile_map] using hmap
  simp only [payloadOffset, Text.drop_returned, hlength]

section Crlf

variable {directory : Place} {source : Source} {pairs : Placeholder.Pairs} {text : Text}
  {value : Text → Text}

theorem docBlock_crlf (text : Text) : docBlock text.crlf = docBlock text := by
  rw [docBlock, Text.lines_crlf, DocBlock.extract_returned, docBlock]

theorem offsetOf_crlf (text : Text) : offsetOf text.crlf = offsetOf text := by
  rw [offsetOf, docBlock_crlf, Text.lines_crlf, payloadOffset_returned, offsetOf]

theorem payloadLines_crlf (text : Text) :
    payloadLines text.crlf = returned (payloadLines text) := by
  rw [payloadLines, offsetOf_crlf, Text.lines_crlf, Text.drop_returned, payloadLines]

theorem agreedParameters_crlf (text : Text) : agreedParameters text.crlf = agreedParameters text := by
  rw [agreedParameters, agreedParameters, docBlock_crlf, payloadLines_crlf, BindMarker.discover,
    BindMarker.scan_ofLines_returned, BindMarker.discover]

theorem replacements_crlf (pairs : Placeholder.Pairs) (text : Text) :
    replacements pairs text.crlf = replacements pairs text := by
  rw [replacements, replacements, Placeholder.resolve, Placeholder.find_crlf, Placeholder.resolve]

/-- What a compilation comes to before the payload is substituted. -/
def stages (pairs : Placeholder.Pairs) (text : Text) : Except LoadFailure
    (OrderedMap Text Text × Designation × Option Text × List Parameter.Documented) := do
  let replace ← replacements pairs text
  let d ← designation (docBlock text)
  let type ← declaredReturnType (docBlock text) d
  checkReturnType d type
  let documented ← agreedParameters text
  return (replace, d, type, documented)

theorem stages_crlf (pairs : Placeholder.Pairs) (text : Text) :
    stages pairs text.crlf = stages pairs text := by
  rw [stages, replacements_crlf, docBlock_crlf, agreedParameters_crlf, stages]

theorem compile_eq_map (directory : Place) (pairs : Placeholder.Pairs) (source : Source)
    (text : Text) :
    compile directory pairs source text = (stages pairs text).map
      fun (replace, d, type, documented) =>
        record directory source text replace d type documented := by
  rw [compile_eq_bind, stages]
  cases replacements pairs text with
  | error failure => rfl
  | ok replace =>
    cases designation (docBlock text) with
    | error failure => rfl
    | ok d =>
      simp only [Outcome.ok_bind]
      cases declaredReturnType (docBlock text) d with
      | error failure => rfl
      | ok type =>
        simp only [Outcome.ok_bind]
        cases checkReturnType d type with
        | error failure => rfl
        | ok _ => cases agreedParameters text <;> rfl

theorem record_crlf (directory : Place) (source : Source) (text : Text)
    (replace : OrderedMap Text Text) (d : Designation) (type : Option Text)
    (documented : List Parameter.Documented) :
    record directory source text.crlf replace d type documented =
      { record directory source text replace d type documented with
        source := substitutePayload (replace.insertMany (magicConstants directory source))
          (offsetOf text) (returned (payloadLines text)) } := by
  rw [record, docBlock_crlf, offsetOf_crlf, payloadLines_crlf, record]

/-- A carriage return at the end of a payload line is one at the end of the compiled line. -/
theorem substitutePayload_returned (offset : Nat) {payload : List Text}
    (hp : ∀ line ∈ payload, line ∈ text.lines)
    (hv : ∀ p ∈ find text, pairs.get? p.upper = some (some (value p))) :
    substitutePayload ((Placeholder.resolve pairs text).replacements.insertMany
        (magicConstants directory source)) offset (returned payload) =
      ['\r', '\n'].intercalate (payload.mapIdx fun index line =>
        compiledLine value (constantsOn directory source (offset + index + 1)) line) := by
  have hconstants : ∀ name ∈ constantNames, '\r' ∉ name := by decide
  have htokens : ∀ index, ∀ e ∈ Placeholder.longestFirst (lineReplacements
      ((Placeholder.resolve pairs text).replacements.insertMany (magicConstants directory source))
      offset index).entries, '\r' ∉ e.1 := by
    intro index e he hm
    rcases (mem_longestFirst_lineReplacements offset index hv e).1 he with hc | ⟨hf, -⟩
    · refine hconstants e.1 ?_ hm
      rw [← map_fst_constantsOn directory source (offset + index + 1)]
      exact List.mem_map_of_mem hc
    · exact absurd ((Placeholder.isPlaceholder_of_mem_find hf).not_isBlank _ hm) (by simp)
  have hreturn : ∀ index line, Placeholder.substitute (lineReplacements
      ((Placeholder.resolve pairs text).replacements.insertMany (magicConstants directory source))
      offset index) (line ++ ['\r']) = Placeholder.substitute (lineReplacements
      ((Placeholder.resolve pairs text).replacements.insertMany (magicConstants directory source))
      offset index) line ++ ['\r'] := fun index line => by
    rw [Placeholder.substitute_eq_replaceIn, Placeholder.substitute_eq_replaceIn,
      Placeholder.replaceIn_concat (htokens index)]
  rw [substitutePayload, Text.mapIdx_returned hreturn, mapIdx_substitute offset hp hv,
    Text.ofLines_returned]

/-- A text compiles with carriage returns as it does without them: to the same failure, or to the
same record but for the text, whose lines end as those of the source do. -/
theorem compile_crlf (directory : Place) (pairs : Placeholder.Pairs) (source : Source)
    (text : Text) :
    (∃ failure, compile directory pairs source text = .error failure ∧
        compile directory pairs source text.crlf = .error failure) ∨
      ∃ (m : Metadata) (value : Text → Text) (compiled : List Text),
        compile directory pairs source text = .ok m ∧
        compile directory pairs source text.crlf =
          .ok { m with source := ['\r', '\n'].intercalate compiled } ∧
        (∀ p ∈ find text, pairs.get? p.upper = some (some (value p))) ∧
        compiled = (text.lines.drop m.payloadOffset).mapIdx (fun index line =>
          compiledLine value (constantsOn directory source (m.payloadOffset + index + 1)) line) ∧
        m.source = .ofLines compiled := by
  rw [compile_eq_map, compile_eq_map, stages_crlf]
  cases hstages : stages pairs text with
  | error failure => exact .inl ⟨failure, rfl, rfl⟩
  | ok staged =>
    obtain ⟨replace, d, type, documented⟩ := staged
    have hreplace : replacements pairs text = .ok replace := by
      simp only [stages, Outcome.bind_eq_ok_iff] at hstages
      obtain ⟨replace', hr, d', hd, type', ht, _, hc, documented', hdoc, he⟩ := hstages
      rw [hr, (Prod.mk.inj (Except.ok.inj he)).1]
    obtain ⟨hu, rfl⟩ := replacements_eq_ok_iff.1 hreplace
    have hv : ∀ p ∈ find text,
        pairs.get? p.upper = some (some ((Placeholder.value? pairs p).getD [])) :=
      fun p hp => Placeholder.get?_eq_value (hu p hp)
    have hp : ∀ line ∈ payloadLines text, line ∈ text.lines := fun line => List.mem_of_mem_drop
    have hcrlf := record_crlf directory source text (Placeholder.resolve pairs text).replacements d
      type documented
    rw [substitutePayload_returned (offsetOf text) hp hv] at hcrlf
    exact .inr ⟨record directory source text _ d type documented, _, _, rfl,
      congrArg Except.ok hcrlf, hv, rfl, substitutePayload_eq (offsetOf text) hp hv⟩

end Crlf

/-- A file loads with carriage returns before its line feeds as it does without them: to the same
failure, or to the same record but for the text, which is made of the same compiled lines. -/
theorem load_crlf {σ : Type} [Host σ] [QuietHost σ] (pairs : Placeholder.Pairs) (source : Source)
    {text : Text} {s s' : σ} (hd : Host.directory s' = Host.directory s)
    (ht : (Host.files s).HasText (Host.directory s) source.path text)
    (ht' : (Host.files s').HasText (Host.directory s') source.path text.crlf) :
    (∃ failure, (load pairs source s).1 = .error failure ∧
        (load pairs source s').1 = .error failure) ∨
      ∃ (m : Metadata) (value : Text → Text) (compiled : List Text),
        (load pairs source s).1 = .ok m ∧
        (load pairs source s').1 = .ok { m with source := ['\r', '\n'].intercalate compiled } ∧
        (∀ p ∈ find text, pairs.get? p.upper = some (some (value p))) ∧
        compiled = (text.lines.drop m.payloadOffset).mapIdx (fun index line =>
          compiledLine value (constantsOn (Host.directory s) source (m.payloadOffset + index + 1))
            line) ∧
        m.source = .ofLines compiled := by
  by_cases hnul : source.path.contains '\x00' = true
  · refine .inl ⟨.invalidPath, ?_, ?_⟩ <;>
      rw [load_fst_of_quiet, outcomeIn, readSource_of_nul hnul, Outcome.error_bind]
  have hp := Bool.eq_false_iff.2 hnul
  by_cases hblank : text.allBlank = true
  · refine .inl ⟨.emptySource, ?_, ?_⟩
    · rw [load_fst_of_quiet, outcomeIn, readSource_of_blank hp ht hblank, Outcome.error_bind]
    · rw [load_fst_of_quiet, outcomeIn, readSource_of_blank hp ht' (by rwa [Text.allBlank_crlf]),
        Outcome.error_bind]
  have hb := Bool.eq_false_iff.2 hblank
  rw [load_fst_of_hasText ht hb hp,
    load_fst_of_hasText ht' (by rwa [Text.allBlank_crlf]) hp, hd]
  exact compile_crlf (Host.directory s) pairs source text

section Sample

/-- A source with a placeholder, a bind marker and a constant, each at the end of what it is in. -/
def endingsText : Text := "/**\n@param int a\n@type none\n*/\n\nselect :a\n@A@\n__LINE__".toList

/-- A replacement that itself has a line feed. -/
def endingsPairs : Placeholder.Pairs := .ofList [("@A@".toList, some "1\n2".toList)]

/-- The line feed of a value stays as it is; the line feeds of the source do not. -/
theorem load_endings :
    (loneWorkspace endingsText).files.HasText [] "a.psql" endingsText ∧
    (loneWorkspace endingsText.crlf).files.HasText [] "a.psql" endingsText.crlf ∧
    ∃ m m', (load endingsPairs ⟨"a.psql", "a", none⟩ (loneWorkspace endingsText)).1 = .ok m ∧
      (load endingsPairs ⟨"a.psql", "a", none⟩ (loneWorkspace endingsText.crlf)).1 = .ok m' ∧
      m.source = "select :a\n1\n2\n8".toList ∧ m'.source = "select :a\r\n1\n2\r\n8".toList ∧
      m' = { m with source := m'.source } := by
  have ht : (loneWorkspace endingsText).files.HasText [] "a.psql" endingsText :=
    ⟨["a.psql"], by cbv, by decide +kernel⟩
  have ht' : (loneWorkspace endingsText.crlf).files.HasText [] "a.psql" endingsText.crlf :=
    ⟨["a.psql"], by cbv, by decide +kernel⟩
  refine ⟨ht, ht', ?_⟩
  obtain ⟨loaded, hloaded⟩ : ∃ m, (load endingsPairs ⟨"a.psql", "a", none⟩
      (loneWorkspace endingsText)).1 = .ok m :=
    exists_load_of_isOk ht (by decide) (by decide +kernel)
  have hd : Host.directory (loneWorkspace endingsText.crlf) =
      Host.directory (loneWorkspace endingsText) := rfl
  rcases load_crlf endingsPairs ⟨"a.psql", "a", none⟩ hd ht ht' with
    ⟨failure, hf, -⟩ | ⟨m, value, compiled, hm, hm', hv, hc, hs⟩
  · exact absurd (hf.symm.trans hloaded) (by simp)
  · obtain ⟨text, replace, d, type, documented, htext, -, -, -, -, -, hrecord⟩ :=
      exists_record_of_load hm
    obtain rfl := ht.unique htext
    have hoffset : offsetOf endingsText = 5 := by decide +kernel
    have ho : m.payloadOffset = 5 := by
      rw [hrecord]
      exact hoffset
    have hvalue : value "@A@".toList = "1\n2".toList := by
      have h := hv "@A@".toList (by decide +kernel)
      have hg : endingsPairs.get? (Text.upper "@A@".toList) = some (some "1\n2".toList) := by
        decide +kernel
      exact (Option.some.inj (Option.some.inj (hg.symm.trans h))).symm
    have hcompiled : compiled = ["select :a".toList, "1\n2".toList, "8".toList] := by
      have hl : endingsText.lines.drop 5 =
          ["select :a".toList, "@A@".toList, "__LINE__".toList] := by decide +kernel
      have hp : Placeholder.stretches (Placeholder.pieces "@A@".toList) =
          ([], [("@A@".toList, [])]) := by decide +kernel
      have hp' : Placeholder.stretches (Placeholder.pieces "select :a".toList) =
          ("select :a".toList, []) := by decide +kernel
      have hp'' : Placeholder.stretches (Placeholder.pieces "__LINE__".toList) =
          ("__LINE__".toList, []) := by decide +kernel
      rw [hc, ho, hl]
      simp only [List.mapIdx_cons, List.mapIdx_nil, compiledLine, hp, hp', hp'', List.flatMap_cons,
        List.flatMap_nil, hvalue]
      cbv
    have hjoin : ['\r', '\n'].intercalate ["select :a".toList, "1\n2".toList, "8".toList] =
        "select :a\r\n1\n2\r\n8".toList := by decide
    rw [hcompiled] at hs hm'
    exact ⟨m, _, hm, hm', hs.trans (by decide), hjoin, rfl⟩

end Sample

end Routine

end StoredRoutine
