import StoredRoutine.Proofs.BindMarkers
import StoredRoutine.Proofs.PayloadText
import StoredRoutine.Proofs.Records
import StoredRoutine.Proofs.Substitution

/-!
The names of the parameters of a routine, and the markers of its payload before and after tokens are
swapped for their values.
-/
namespace StoredRoutine

/-!
The tokens of a payload that are swapped for their values, each in its place. A swap is neutral if
the text since the token before brings the same new bind markers with the value as with the token
and no marker runs over into what follows; a payload whose swaps are neutral keeps its markers.
-/

namespace Placeholder

open BindMarker (Apart Closed discover eraseDups_found_append newMarkers newMarkers_congr scan)

/-- What becomes of a line from left to right. -/
inductive Step where
  | copied (c : Char)
  | swapped (token value : Text)
  deriving DecidableEq, Repr

def Step.written : Step → Text
  | copied c => [c]
  | swapped token _ => token

def Step.compiled : Step → Text
  | copied c => [c]
  | swapped _ value => value

/-- The steps of a stretch, in which the constants are swapped. -/
def stretchSteps (constants : List (Text × Text)) : Text → List Step
  | [] => []
  | c :: t =>
    match constants.find? fun e => e.1.isPrefixOf (c :: t) with
    | some (name, value) => .swapped name value :: stretchSteps constants (t.drop (name.length - 1))
    | none => .copied c :: stretchSteps constants t
termination_by t => t.length

/-- The steps of a line, in which the placeholders are swapped, and the constants between them. -/
def lineSteps (value : Text → Text) (constants : List (Text × Text)) (line : Text) : List Step :=
  stretchSteps constants (stretches (pieces line)).1 ++
    (stretches (pieces line)).2.flatMap fun e =>
      .swapped e.1 (value e.1) :: stretchSteps constants e.2

section Steps

variable {value : Text → Text} {constants : List (Text × Text)}

theorem flatMap_compiled_stretchSteps (t : Text) :
    (stretchSteps constants t).flatMap (·.compiled) = expand constants t := by
  fun_induction stretchSteps constants t with
  | case1 => simp [expand]
  | case2 c t name value h ih => rw [List.flatMap_cons, ih, expand, h]; rfl
  | case3 c t h ih => rw [List.flatMap_cons, ih, expand, h]; rfl

theorem flatMap_written_stretchSteps (h : Separate constants) (t : Text) :
    (stretchSteps constants t).flatMap (·.written) = t := by
  fun_induction stretchSteps constants t with
  | case1 => rfl
  | case2 c t name value hf ih =>
    have hm := List.mem_of_find?_eq_some hf
    have hp : name <+: c :: t := by simpa using List.find?_some hf
    obtain ⟨d, name, rfl⟩ := List.exists_cons_of_ne_nil (h.ne_nil _ hm)
    obtain ⟨rest, hrest⟩ := hp
    obtain ⟨rfl, rfl⟩ := List.cons.inj hrest
    rw [List.flatMap_cons, ih, List.length_cons, Nat.add_sub_cancel]
    simp [Step.written]
  | case3 c t hf ih => rw [List.flatMap_cons, ih]; rfl

/-- The steps lead to the compiled line. -/
theorem flatMap_compiled_lineSteps (line : Text) :
    (lineSteps value constants line).flatMap (·.compiled) = compiledLine value constants line := by
  rw [lineSteps, List.flatMap_append, flatMap_compiled_stretchSteps, List.flatMap_assoc,
    compiledLine]
  congr 1
  refine List.flatMap_congr fun e _ => ?_
  rw [List.flatMap_cons, flatMap_compiled_stretchSteps]
  rfl

theorem flatMap_stretches (ps : List Piece) :
    (stretches ps).1 ++ (stretches ps).2.flatMap (fun e => e.1 ++ e.2) = ps.flatMap (·.text) := by
  induction ps with
  | nil => rfl
  | cons p ps ih =>
    cases p with
    | plain c =>
      rw [List.flatMap_cons, ← ih]
      rfl
    | placeholder p =>
      rw [List.flatMap_cons, ← ih]
      simp [stretches, Piece.text]

/-- The steps start from the line as it is written. -/
theorem flatMap_written_lineSteps (h : Separate constants) (line : Text) :
    (lineSteps value constants line).flatMap (·.written) = line := by
  conv => rhs; rw [← flatMap_text_pieces line, ← flatMap_stretches]
  rw [lineSteps, List.flatMap_append, flatMap_written_stretchSteps h, List.flatMap_assoc]
  congr 1
  refine List.flatMap_congr fun e _ => ?_
  rw [List.flatMap_cons, flatMap_written_stretchSteps h]
  rfl

end Steps

/-- A token and the value that it is swapped for, in their place: the markers found up to the token
before, the text since then, and what follows as it is written and as it is compiled. -/
structure Swap where
  found : List Text
  before : Text
  token : Text
  value : Text
  written : Text
  compiled : Text
  deriving DecidableEq, Repr

/-- The swaps in some steps, which begin after some markers and a text without swaps. -/
def swaps (found : List Text) (before : Text) : List Step → List Swap
  | [] => []
  | .copied c :: ss => swaps found (before ++ [c]) ss
  | .swapped token value :: ss =>
    ⟨found, before, token, value, ss.flatMap (·.written), ss.flatMap (·.compiled)⟩ ::
      swaps (found ++ scan false (before ++ token)) [] ss

/-- With the value in its place the text brings the new markers that it brings with the token, and
neither of them runs over into what follows. -/
structure Swap.Neutral (s : Swap) : Prop where
  newMarkers : newMarkers s.found (s.before ++ s.value) = newMarkers s.found (s.before ++ s.token)
  apart_token : Apart (s.before ++ s.token) s.written
  apart_value : Apart (s.before ++ s.value) s.compiled

section Neutral

instance : DecidablePred Swap.Neutral := fun _ =>
  decidable_of_iff (_ ∧ _ ∧ _) ⟨fun h => ⟨h.1, h.2.1, h.2.2⟩, fun h => ⟨h.1, h.2, h.3⟩⟩

/-- After text that leaves nothing open, a value without colons is neutral. -/
theorem neutral_of_not_colon {s : Swap} (hb : Closed s.before) (ht : ':' ∉ s.token)
    (hv : ':' ∉ s.value) : s.Neutral where
  newMarkers := by
    rw [BindMarker.newMarkers, BindMarker.newMarkers, hb.scan_append hv, hb.scan_append ht]
  apart_token := hb.append ht _
  apart_value := hb.append hv _

/-- Steps whose swaps are neutral keep the distinct markers, whatever was found before. -/
theorem eraseDups_scan_compiled {kept found : List Text} {before : Text} {ss : List Step}
    (hf : kept.eraseDups = found.eraseDups) (h : ∀ s ∈ swaps found before ss, s.Neutral) :
    (kept ++ scan false (before ++ ss.flatMap (·.compiled))).eraseDups =
      (found ++ scan false (before ++ ss.flatMap (·.written))).eraseDups := by
  induction ss generalizing kept found before with
  | nil =>
    rw [List.flatMap_nil, List.flatMap_nil, eraseDups_found_append, eraseDups_found_append, hf,
      newMarkers_congr hf]
  | cons step ss ih =>
    cases step with
    | copied c =>
      rw [swaps] at h
      have ih := ih hf h
      simpa [Step.compiled, Step.written] using ih
    | swapped token value =>
      rw [swaps] at h
      have hs := h _ List.mem_cons_self
      -- what is found up to the end of the token, which the rest begins with
      have hf : (kept ++ scan false (before ++ value)).eraseDups =
          (found ++ scan false (before ++ token)).eraseDups := by
        rw [eraseDups_found_append, eraseDups_found_append, hf, newMarkers_congr hf,
          hs.newMarkers]
      have ih := ih hf fun s hm => h s (List.mem_cons_of_mem _ hm)
      have hvalue : scan false (before ++ value ++ ss.flatMap (·.compiled)) =
          scan false (before ++ value) ++ scan false (ss.flatMap (·.compiled)) := hs.apart_value
      have htoken : scan false (before ++ token ++ ss.flatMap (·.written)) =
          scan false (before ++ token) ++ scan false (ss.flatMap (·.written)) := hs.apart_token
      rw [List.flatMap_cons, List.flatMap_cons, ← List.append_assoc, ← List.append_assoc]
      change (kept ++ scan false (before ++ value ++ _)).eraseDups =
        (found ++ scan false (before ++ token ++ _)).eraseDups
      rw [hvalue, htoken, ← List.append_assoc, ← List.append_assoc]
      exact ih

/-- Steps whose swaps are neutral keep the parameters that are discovered. -/
theorem discover_compiled {ss : List Step} (h : ∀ s ∈ swaps [] [] ss, s.Neutral) :
    discover (ss.flatMap (·.compiled)) = discover (ss.flatMap (·.written)) :=
  eraseDups_scan_compiled rfl h

/-- Values without colons keep the parameters, where no token follows a colon or a name. -/
theorem discover_compiled_of_not_colon {ss : List Step}
    (h : ∀ s ∈ swaps [] [] ss, ':' ∉ s.token ∧ ':' ∉ s.value ∧
      ∀ c, s.before.getLast? = some c → c ≠ ':' ∧ isNamePart c = false) :
    discover (ss.flatMap (·.compiled)) = discover (ss.flatMap (·.written)) := by
  refine discover_compiled fun s hs => ?_
  obtain ⟨htoken, hvalue, hlast⟩ := h s hs
  exact neutral_of_not_colon (BindMarker.closed_of_getLast? hlast) htoken hvalue

end Neutral

section Lines

theorem flatMap_join (f : Step → Text) (sep : Step) (lines : List (List Step)) :
    ([sep].intercalate lines).flatMap f = (f sep).intercalate (lines.map (·.flatMap f)) := by
  induction lines with
  | nil => rfl
  | cons line lines ih =>
    cases lines with
    | nil => simp
    | cons next lines =>
      rw [List.intercalate_cons_cons, List.flatMap_append, List.flatMap_append, ih]
      simp [List.intercalate_cons_cons]

/-- The steps of a payload, whose lines have constants of their own. -/
def payloadSteps (value : Text → Text) (constants : Nat → List (Text × Text))
    (payload : List Text) : List Step :=
  [.copied '\n'].intercalate (payload.mapIdx fun index => lineSteps value (constants index))

variable {value : Text → Text} {constants : Nat → List (Text × Text)}

theorem flatMap_compiled_payloadSteps (payload : List Text) :
    (payloadSteps value constants payload).flatMap (·.compiled) =
      Text.ofLines (payload.mapIdx fun index => compiledLine value (constants index)) := by
  rw [payloadSteps, flatMap_join]
  refine congrArg Text.ofLines (List.ext_getElem (by simp) fun index _ _ => ?_)
  simp [flatMap_compiled_lineSteps]

theorem flatMap_written_payloadSteps (h : ∀ index, Separate (constants index))
    (payload : List Text) :
    (payloadSteps value constants payload).flatMap (·.written) = Text.ofLines payload := by
  rw [payloadSteps, flatMap_join]
  refine congrArg Text.ofLines (List.ext_getElem (by simp) fun index _ _ => ?_)
  simp [flatMap_written_lineSteps (h index)]

end Lines

end Placeholder

/-!
Whose names the parameters of a routine are: they are the bind markers of the payload as it is
written, since the markers are discovered before anything is swapped. The compiled text has the same
markers where each swap is neutral, and can have others where one is not.
-/

namespace Routine

open BindMarker (discover)
open Placeholder (find payloadSteps swaps value?)

/-- The value of a placeholder that resolves. -/
def valueOf (pairs : Placeholder.Pairs) (p : Text) : Text := (value? pairs p).getD []

/-- The steps from the payload of a text to what it is compiled to. -/
def compilation (directory : Place) (pairs : Placeholder.Pairs) (source : Source) (text : Text) :
    List Placeholder.Step :=
  payloadSteps (valueOf pairs)
    (fun index => constantsOn directory source (offsetOf text + index + 1)) (payloadLines text)

section Names

theorem flatMap_written_compilation (directory : Place) (pairs : Placeholder.Pairs)
    (source : Source) (text : Text) :
    (compilation directory pairs source text).flatMap (·.written) =
      Text.ofLines (payloadLines text) :=
  Placeholder.flatMap_written_payloadSteps (fun _ => separate_constantsOn) _

variable {σ : Type} [Host σ] {pairs : Placeholder.Pairs} {source : Source} {text : Text} {s : σ}
  {m : Metadata}

theorem flatMap_compiled_compilation (directory : Place)
    (hv : ∀ p ∈ find text, pairs.get? p.upper = some (some (valueOf pairs p))) :
    (compilation directory pairs source text).flatMap (·.compiled) =
      substitutePayload ((Placeholder.resolve pairs text).replacements.insertMany
        (magicConstants directory source)) (offsetOf text) (payloadLines text) := by
  rw [payloadLines, substitutePayload_eq (offsetOf text) (fun line => List.mem_of_mem_drop) hv]
  exact Placeholder.flatMap_compiled_payloadSteps _

/-- A routine that loads is named by its written payload and has the text that its steps lead to. -/
theorem exists_compilation_of_load (h : (load pairs source s).1 = .ok m) :
    ∃ text, (Host.files (announced source s)).HasText (Host.directory (announced source s))
        source.path text ∧
      (∀ p ∈ find text, pairs.get? p.upper = some (some (valueOf pairs p))) ∧
      m.payloadOffset = offsetOf text ∧
      m.parameters.map (·.name) = discover (.ofLines (payloadLines text)) ∧
      m.source = (compilation (Host.directory (announced source s)) pairs source text).flatMap
        (·.compiled) := by
  obtain ⟨text, replace, d, type, documented, ht, hreplace, -, -, -, hagreed, rfl⟩ :=
    exists_record_of_load h
  obtain ⟨hu, rfl⟩ := replacements_eq_ok_iff.1 hreplace
  have hv : ∀ p ∈ find text, pairs.get? p.upper = some (some (valueOf pairs p)) := by
    intro p hp
    obtain ⟨v, hv⟩ := hu p hp
    rw [valueOf, Placeholder.value?_eq_some_iff.2 hv, Option.getD_some, hv]
  refine ⟨text, ht, hv, rfl, ?_, (flatMap_compiled_compilation _ hv).symm⟩
  rw [← names_of_agreedParameters hagreed, ← map_name_descriptor]
  rfl

/-- The parameters of a routine that loads are named by the markers of its payload as it is written,
in order of first occurrence, and likewise by the markers of its compiled text if every swap on the
way from the one to the other is neutral. -/
theorem load_names_written_markers (h : (load pairs source s).1 = .ok m) :
    ∃ text, (Host.files (announced source s)).HasText (Host.directory (announced source s))
        source.path text ∧
      (∀ p ∈ find text, pairs.get? p.upper = some (some (valueOf pairs p))) ∧
      m.parameters.map (·.name) = discover (.ofLines (text.lines.drop m.payloadOffset)) ∧
      ∃ steps, steps = compilation (Host.directory (announced source s)) pairs source text ∧
        steps.flatMap (·.written) = Text.ofLines (text.lines.drop m.payloadOffset) ∧
        steps.flatMap (·.compiled) = m.source ∧
        ((∀ swap ∈ swaps [] [] steps, swap.Neutral) →
          discover m.source = m.parameters.map (·.name)) := by
  obtain ⟨text, ht, hv, ho, hnames, hsource⟩ := exists_compilation_of_load h
  have hpayload : payloadLines text = text.lines.drop m.payloadOffset := by rw [payloadLines, ho]
  have hwritten := flatMap_written_compilation (Host.directory (announced source s)) pairs source
    text
  rw [hpayload] at hnames hwritten
  refine ⟨text, ht, hv, hnames, _, rfl, hwritten, hsource.symm, fun hn => ?_⟩
  rw [hsource, hnames, Placeholder.discover_compiled hn, hwritten]

end Names

section Sample

/-- A payload with a marker in a value and a constant right before a marker. -/
def repeatedText : Text :=
  "/**\n@type rows\n@param int p\n*/\nselect __LINE__:p from t where a @AND@".toList

def repeatedPairs : Placeholder.Pairs := .ofList [("@AND@".toList, some "= :p::int".toList)]

/-- A marker that a value repeats, and one right after a constant, are kept. -/
theorem load_names_repeated : ∃ m,
    (load repeatedPairs ⟨"a.psql", "a", none⟩ (loneWorkspace repeatedText)).1 = .ok m ∧
      discover m.source = m.parameters.map (·.name) ∧
      m.parameters.map (·.name) = [":p".toList] := by
  have ht : (loneWorkspace repeatedText).files.HasText [] "a.psql" repeatedText :=
    ⟨["a.psql"], by cbv, by decide +kernel⟩
  have hc : (compile [] repeatedPairs ⟨"a.psql", "a", none⟩ repeatedText).isOk = true := by
    decide +kernel
  obtain ⟨m, hm⟩ := exists_load_of_isOk ht (by decide) hc
  obtain ⟨text, ht', -, hnames, steps, rfl, hwritten, -, hkept⟩ := load_names_written_markers hm
  obtain rfl := ht.unique ht'
  refine ⟨m, hm, hkept (by decide +kernel), ?_⟩
  rw [hnames, ← hwritten]
  decide +kernel

/-- A payload in which a value puts a marker before one that came first. -/
def reorderedText : Text :=
  "/**\n@type none\n@param int a\n@param int b\n*/\nselect @A@, :a, :b".toList

def reorderedPairs : Placeholder.Pairs := .ofList [("@A@".toList, some ":b".toList)]

/-- The markers of the compiled text are not in the order of the parameters. -/
theorem load_reorders_markers : ∃ m,
    (load reorderedPairs ⟨"a.psql", "a", none⟩ (loneWorkspace reorderedText)).1 = .ok m ∧
      m.parameters.map (·.name) = [":a".toList, ":b".toList] ∧
      discover m.source = [":b".toList, ":a".toList] := by
  have ht : (loneWorkspace reorderedText).files.HasText [] "a.psql" reorderedText :=
    ⟨["a.psql"], by cbv, by decide +kernel⟩
  have hc : (compile [] reorderedPairs ⟨"a.psql", "a", none⟩ reorderedText).isOk = true := by
    decide +kernel
  obtain ⟨m, hm⟩ := exists_load_of_isOk ht (by decide) hc
  obtain ⟨text, ht', -, -, hnames, hsource⟩ := exists_compilation_of_load hm
  obtain rfl := ht.unique ht'
  refine ⟨m, hm, ?_, ?_⟩
  · rw [hnames]
    decide +kernel
  · rw [hsource]
    decide +kernel

end Sample

end Routine

end StoredRoutine
