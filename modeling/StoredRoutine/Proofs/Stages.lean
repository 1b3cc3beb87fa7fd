import StoredRoutine.Proofs.DocumentedParameters
import StoredRoutine.Proofs.Rules

/-!
Which sources load, and why the others do not: the rules that each stage of a load enforces, and
then those of the whole load.
-/
namespace StoredRoutine

/-!
The rules that each stage of a load enforces. Reading enforces the first rule, and each of the
stages of compiling one or two of the others, in the order of the rules.
-/

theorem Designation.word_injective {d d' : Designation} (h : d.word.toList = d'.word.toList) :
    d = d' := by
  have h := congrArg Designation.ofWord? h
  rw [Designation.ofWord?_word, Designation.ofWord?_word] at h
  exact Option.some.inj h

namespace Routine

open DocBlock (typeTag returnTag paramTag typeArgument)

variable {pairs : Placeholder.Pairs} {text : Text}

theorem kind_of_isLocal {failure : LoadFailure} (h : failure.isLocal = true) :
    Cause.kind failure = .routine failure.kind := by
  cases failure with
  | invalidPath => cases h
  | returnType fault =>
    cases fault with
    | absent => cases h
    | notComposed => rfl
    | withoutNull => rfl
  | _ => rfl

theorem isLocal_of_kind {failure : LoadFailure} {name : String}
    (h : Cause.kind failure = .routine name) : failure.isLocal = true := by
  cases failure with
  | invalidPath => exact absurd h (by simp [Cause.kind])
  | returnType fault =>
    cases fault with
    | absent => exact absurd h (by simp [Cause.kind])
    | notComposed => rfl
    | withoutNull => rfl
  | _ => rfl

theorem Declares.unique {name v w : Text} (hv : Declares text name v)
    (hw : Declares text name w) : v = w := by
  obtain ⟨content₁, hc₁, hh₁⟩ := hv
  obtain ⟨content₂, hc₂, hh₂⟩ := hw
  obtain rfl : content₁ = content₂ := by simpa [hc₁] using hc₂
  simpa [hh₁] using hh₂

/-- A word is declared if it is the argument of the only tag of its name. -/
theorem declares_iff {name word : Text}
    (ha : ∀ tag ∈ (docBlock text).tagsNamed name,
      tag.argument typeArgument = tag.content.words.head?.getD []) :
    Declares text name word ↔
      ∃ tag, (docBlock text).tagsNamed name = [tag] ∧ tag.argument typeArgument = word ∧
        word ≠ [] := by
  constructor
  · rintro ⟨content, hc, hw⟩
    obtain ⟨tag, ht, rfl⟩ := List.map_eq_singleton_iff.1 hc
    have hm : tag ∈ (docBlock text).tagsNamed name := by simp [ht]
    refine ⟨tag, ht, ?_, Text.ne_nil_of_mem_words (List.mem_of_mem_head? hw)⟩
    rw [ha tag hm, hw, Option.getD_some]
  · rintro ⟨tag, ht, rfl, hne⟩
    have hm : tag ∈ (docBlock text).tagsNamed name := by simp [ht]
    rw [ha tag hm] at hne ⊢
    refine ⟨tag.content, by simp [contents, ht], ?_⟩
    cases hh : tag.content.words.head? with
    | none => simp [hh] at hne
    | some w => rw [Option.getD_some]

theorem declares_designation_iff {word : Text} :
    Declares text typeTag word ↔
      ∃ tag, (docBlock text).tagsNamed typeTag = [tag] ∧ tag.argument typeArgument = word ∧
        word ≠ [] := declares_iff fun _ h => DocBlock.designation_argument h

theorem declares_returnType_iff {word : Text} :
    Declares text returnTag word ↔
      ∃ tag, (docBlock text).tagsNamed returnTag = [tag] ∧ tag.argument typeArgument = word ∧
        word ≠ [] := declares_iff fun _ h => DocBlock.returnType_argument h

theorem designation_of_single {tag : DocBlock.Tag}
    (ht : (docBlock text).tagsNamed typeTag = [tag]) (hne : tag.argument typeArgument ≠ []) :
    designation (docBlock text) = match Designation.ofWord? (tag.argument typeArgument) with
      | some d => .ok d
      | none => .error (.unknownDesignation (tag.argument typeArgument)) := by
  unfold designation
  rw [ht]
  exact if_neg fun hword => hne (List.isEmpty_iff.1 hword)

theorem designation_of_not_declares (h : ¬ ∃ word, Declares text typeTag word) :
    ∃ failure, designation (docBlock text) = .error failure ∧
      Cause.kind failure = .routine Rule.designated.kind := by
  simp only [declares_designation_iff] at h
  rw [designation]
  cases ht : (docBlock text).tagsNamed typeTag with
  | nil => exact ⟨_, rfl, rfl⟩
  | cons tag tags =>
    cases tags with
    | cons tag' tags => exact ⟨_, rfl, rfl⟩
    | nil =>
      have he : tag.argument typeArgument = [] :=
        Classical.byContradiction fun hne => h ⟨_, tag, ht, rfl, hne⟩
      refine ⟨.designationTagEmpty, ?_, rfl⟩
      simp only [he, List.isEmpty_nil, if_true]

/-- The designation is the one whose word is declared. -/
theorem designation_eq_ok_iff {d : Designation} :
    designation (docBlock text) = .ok d ↔ Declares text typeTag d.word.toList := by
  constructor
  · intro h
    obtain ⟨word, hw⟩ : ∃ word, Declares text typeTag word := by
      refine Classical.byContradiction fun hn => ?_
      obtain ⟨failure, hf, -⟩ := designation_of_not_declares hn
      simp [h] at hf
    obtain ⟨tag, ht, rfl, hne⟩ := declares_designation_iff.1 hw
    rw [designation_of_single ht hne] at h
    split at h
    · next d' ho =>
      obtain rfl := Except.ok.inj h
      rwa [← Designation.ofWord?_eq_some_iff.1 ho]
    · simp at h
  · intro h
    obtain ⟨tag, ht, hw, hne⟩ := declares_designation_iff.1 h
    rw [← hw] at hne
    rw [designation_of_single ht hne, Designation.ofWord?_eq_some_iff.2 hw]

theorem enforces_designation :
    Enforces (Rule.KeptBy pairs text) [.designated, .known] (designation (docBlock text)) := by
  cases hx : designation (docBlock text) with
  | ok d =>
    have hd := designation_eq_ok_iff.1 hx
    intro r hr
    simp only [List.mem_cons, List.not_mem_nil, or_false] at hr
    rcases hr with rfl | rfl
    · exact ⟨_, hd⟩
    · exact ⟨d, hd⟩
  | error failure =>
    have hk : ¬ Rule.KeptBy pairs text .known := by
      rintro ⟨d, hd⟩
      simp [designation_eq_ok_iff.2 hd] at hx
    by_cases hd : ∃ word, Declares text typeTag word
    · refine ⟨.known, ⟨[.designated], [], rfl, ?_, hk⟩, ?_⟩
      · intro q hq
        obtain rfl := List.mem_singleton.1 hq
        exact hd
      · obtain ⟨word, hw⟩ := hd
        obtain ⟨tag, ht, rfl, hne⟩ := declares_designation_iff.1 hw
        rw [designation_of_single ht hne] at hx
        split at hx
        · simp at hx
        · obtain rfl := Except.error.inj hx
          rfl
    · obtain ⟨failure', hf, hkind⟩ := designation_of_not_declares hd
      obtain rfl : failure = failure' := by simpa [hx] using hf
      exact ⟨.designated, ⟨[], [.known], rfl, by simp, hd⟩, hkind⟩

theorem enforces_resolved :
    Enforces (Rule.KeptBy pairs text) [.resolved] (replacements pairs text) := by
  apply enforces_ok_of_iff
  · simp only [replacements_eq_ok_iff, Rule.KeptBy]
    constructor
    · rintro ⟨replace, h, -⟩
      exact h
    · intro h
      exact ⟨_, h, rfl⟩
  · intro failure h
    simp only [replacements] at h
    split at h
    · simp at h
    · obtain rfl := Except.error.inj h
      rfl

theorem declaredReturnType_eq_ok_iff {d : Designation} {type : Option Text} :
    declaredReturnType (docBlock text) d = .ok type ↔
      if d.returnsValue then ∃ word, type = some word ∧ Declares text returnTag word
      else type = none ∧ contents text returnTag = [] := by
  have hc : contents text returnTag = [] ↔ (docBlock text).tagsNamed returnTag = [] :=
    List.map_eq_nil_iff
  simp only [declares_returnType_iff, hc, declaredReturnType]
  by_cases hv : d.returnsValue = true
  · rw [if_pos hv, if_pos hv]
    split
    · next ht => simp [ht]
    · next ht => simp [ht]
    · next tag ht =>
      by_cases he : tag.argument typeArgument = []
      · simp [ht, he]
      · simp only [List.isEmpty_iff, he, if_false]
        constructor
        · intro h
          exact ⟨_, (Except.ok.inj h).symm, tag, ht, rfl, he⟩
        · rintro ⟨word, rfl, tag', ht', rfl, -⟩
          obtain rfl : tag = tag' := by simpa [ht] using ht'
          rfl
  · rw [if_neg hv, if_neg hv]
    by_cases he : (docBlock text).tagsNamed returnTag = []
    · simp [he, eq_comm]
    · simp [he]

theorem declaredReturnType_eq_error {d : Designation} {failure : LoadFailure}
    (h : declaredReturnType (docBlock text) d = .error failure) :
    Cause.kind failure = .routine Rule.returned.kind := by
  simp only [declaredReturnType] at h
  split at h
  · split at h
    · obtain rfl := Except.error.inj h
      rfl
    · obtain rfl := Except.error.inj h
      rfl
    · split at h
      · obtain rfl := Except.error.inj h
        rfl
      · simp at h
  · split at h
    · simp at h
    · obtain rfl := Except.error.inj h
      rfl

theorem enforces_returned {d : Designation} (hd : Declares text typeTag d.word.toList) :
    Enforces (Rule.KeptBy pairs text) [.returned] (declaredReturnType (docBlock text) d) := by
  apply enforces_ok_of_iff
  · simp only [declaredReturnType_eq_ok_iff, Rule.KeptBy]
    constructor
    · rintro ⟨type, ht⟩ d' hd'
      obtain rfl := Designation.word_injective (hd.unique hd')
      split
      · next hv =>
        rw [if_pos hv] at ht
        obtain ⟨word, -, hw⟩ := ht
        exact ⟨word, hw⟩
      · next hv =>
        rw [if_neg hv] at ht
        exact ht.2
    · intro h
      have h := h d hd
      split at h
      · next hv =>
        obtain ⟨word, hw⟩ := h
        exact ⟨some word, by rw [if_pos hv]; exact ⟨word, rfl, hw⟩⟩
      · next hv => exact ⟨none, by rw [if_neg hv]; exact ⟨rfl, h⟩⟩
  · exact fun failure => declaredReturnType_eq_error

theorem isOpaque_iff {type : Text} :
    ReturnType.isOpaque type = true ↔ type = "mixed".toList ∨ type = "bool".toList := by
  simp [ReturnType.isOpaque, ReturnType.opaqueTypes]

theorem composed_iff {type : Text} :
    ReturnType.composed type = true ↔
      type = "mixed".toList ∨ ∀ part ∈ type.splitOn '|', part ∈ ReturnType.scalarTypes := by
  have hb : ("bool".toList).splitOn '|' = ["bool".toList] := by decide
  have hbool : "bool".toList ∈ ReturnType.scalarTypes := by decide
  rw [ReturnType.composed, Bool.or_eq_true, isOpaque_iff, List.all_eq_true, ReturnType.parts]
  simp only [List.contains_iff_mem]
  constructor
  · rintro ((h | rfl) | h)
    · exact .inl h
    · refine .inr fun part hp => ?_
      rw [hb] at hp
      rw [List.mem_singleton.1 hp]
      exact hbool
    · exact .inr h
  · rintro (h | h)
    · exact .inl (.inl h)
    · exact .inr h

theorem admitsNull_iff {type : Text} :
    ReturnType.admitsNull type = true ↔
      type = "mixed".toList ∨ type = "bool".toList ∨ "null".toList ∈ type.splitOn '|' := by
  rw [ReturnType.admitsNull, Bool.or_eq_true, isOpaque_iff, List.contains_iff_mem,
    ReturnType.parts, or_assoc]

theorem typeFault?_eq_none_iff {d : Designation} {type : Text} :
    ReturnType.typeFault? d type = none ↔ Typed d type := by
  rw [Typed, ← composed_iff, ← admitsNull_iff, ReturnType.typeFault?]
  cases ReturnType.composed type <;> cases ReturnType.admitsNull type <;> simp

theorem typeFault?_ne_absent (d : Designation) (type : Text) :
    ReturnType.typeFault? d type ≠ some .absent := by
  rw [ReturnType.typeFault?]
  split
  · simp
  · split <;> simp

/-- A return type that is given is checked for its kind only. -/
theorem enforces_typeFault {d : Designation} {type : Text} (hv : d.returnsValue = true)
    (hk : Rule.KeptBy pairs text .typed ↔ Typed d type) :
    Enforces (Rule.KeptBy pairs text) [.typed] (checkReturnType d (some type)) := by
  have hf : ReturnType.fault? d (some type) = ReturnType.typeFault? d type := by
    simp [ReturnType.fault?, hv]
  apply enforces_ok_of_iff
  · rw [hk, ← typeFault?_eq_none_iff, checkReturnType, hf]
    cases ReturnType.typeFault? d type <;> simp
  · intro failure h
    rw [checkReturnType, hf] at h
    cases ho : ReturnType.typeFault? d type with
    | none => simp [ho] at h
    | some fault =>
      rw [ho] at h
      obtain rfl := Except.error.inj h
      cases fault with
      | absent => exact absurd ho (typeFault?_ne_absent d type)
      | notComposed => rfl
      | withoutNull => rfl

theorem enforces_typed {d : Designation} {type : Option Text}
    (hd : Declares text typeTag d.word.toList)
    (ht : declaredReturnType (docBlock text) d = .ok type) :
    Enforces (Rule.KeptBy pairs text) [.typed] (checkReturnType d type) := by
  rw [declaredReturnType_eq_ok_iff] at ht
  by_cases hv : d.returnsValue = true
  · rw [if_pos hv] at ht
    obtain ⟨word, rfl, hw⟩ := ht
    refine enforces_typeFault hv ?_
    constructor
    · intro h
      exact h d word hd hv hw
    · intro h d' word' hd' _ hw'
      obtain rfl := Designation.word_injective (hd.unique hd')
      obtain rfl := hw.unique hw'
      exact h
  · rw [if_neg hv] at ht
    obtain ⟨rfl, -⟩ := ht
    have hf : checkReturnType d none = .ok () := by
      simp [checkReturnType, ReturnType.fault?, hv]
    rw [hf]
    intro r hr
    obtain rfl := List.mem_singleton.1 hr
    intro d' type' hd' hv'
    obtain rfl := Designation.word_injective (hd.unique hd')
    exact absurd hv' hv

theorem documents_iff {name : Text} :
    Documents text name ↔
      name ∈ (Parameter.documented ((docBlock text).tagsNamed paramTag)).map (·.name) := by
  rw [Parameter.mem_names_documented]
  constructor
  · rintro ⟨content, hc, word, hw, rfl⟩
    obtain ⟨tag, ht, rfl⟩ := List.mem_map.1 hc
    have hm := List.mem_of_getElem? hw
    refine ⟨Parameter.markerName_ne_nil (Text.ne_nil_of_mem_words hm)
      (Text.not_isBlank_of_mem_words hm), tag, ht, ?_⟩
    rw [DocBlock.parameterName_argument ht, hw, Option.getD_some]
  · rintro ⟨hn, tag, ht, rfl⟩
    rw [DocBlock.parameterName_argument ht] at hn ⊢
    cases hw : tag.content.words[1]? with
    | none => simp [hw, Parameter.markerName_nil] at hn
    | some word => exact ⟨tag.content, List.mem_map_of_mem ht, word, hw, rfl⟩

theorem enforces_agreed :
    Enforces (Rule.KeptBy pairs text) [.agreed] (agreedParameters text) := by
  have hc := Parameter.isEmpty_compare (BindMarker.discover (.ofLines (payloadLines text)))
    (Parameter.documented ((docBlock text).tagsNamed paramTag))
  simp only [← documents_iff] at hc
  apply enforces_ok_of_iff
  · rw [Rule.KeptBy, ← hc, agreedParameters, Parameter.validate]
    simp only [Outcome.mapError_eq_ok_iff]
    split <;> simp_all
  · intro failure h
    obtain ⟨mismatch, -, rfl⟩ := Outcome.mapError_eq_error_iff.1 h
    rfl

/-- Compiling enforces all rules but the first. -/
theorem enforces_compile (directory : Place) (source : Source) :
    Enforces (Rule.KeptBy pairs text) [.resolved, .designated, .known, .returned, .typed, .agreed]
      (compile directory pairs source text) := by
  rw [compile_eq_bind]
  refine enforces_resolved.bind [.designated, .known, .returned, .typed, .agreed] ?_
  intro replace _
  refine enforces_designation.bind [.returned, .typed, .agreed] ?_
  intro d hd
  have hd := designation_eq_ok_iff.1 hd
  refine (enforces_returned hd).bind [.typed, .agreed] ?_
  intro type ht
  refine (enforces_typed hd ht).bind [.agreed] ?_
  intro _ _
  refine enforces_agreed.bind [] ?_
  intro documented _ r hr
  exact absurd hr List.not_mem_nil

variable {files : FileTree} {directory : Place} {source : Source}

/-- A source keeps a rule if its file holds a text that does. -/
def Rule.Holds (files : FileTree) (directory : Place) (pairs : Placeholder.Pairs) (path : String)
    (r : Rule) : Prop :=
  ∃ text, files.HasText directory path text ∧ r.KeptBy pairs text

/-- A load enforces all rules in their order. -/
theorem enforces_outcomeIn (hp : source.path.contains '\x00' = false) :
    Enforces (Rule.Holds files directory pairs source.path) Rule.all
      (outcomeIn files directory pairs source) := by
  have hread : Enforces (Rule.Holds files directory pairs source.path) [.readable]
      (readSource files directory source.path) := by
    apply enforces_ok_of_iff
    · simp only [readSource_eq_ok_iff hp, Rule.Holds, Rule.KeptBy]
    · intro failure h
      obtain ⟨hk, hl⟩ := readSource_eq_error hp h
      rw [kind_of_isLocal hl, hk]
      rfl
  refine hread.bind _ fun text h => ?_
  have ht := ((readSource_eq_ok_iff hp).1 h).1
  refine (enforces_compile directory source).congr fun r _ => ?_
  constructor
  · intro hr
    exact ⟨text, ht, hr⟩
  · rintro ⟨text', ht', hr⟩
    rwa [ht.unique ht']

/-- Every failure to load concerns its routine only. -/
theorem isLocal_of_outcomeIn (hp : source.path.contains '\x00' = false) {failure : LoadFailure}
    (h : outcomeIn files directory pairs source = .error failure) : failure.isLocal = true := by
  have he : Enforces (Rule.Holds files directory pairs source.path) Rule.all
      (outcomeIn files directory pairs source) := enforces_outcomeIn hp
  rw [h] at he
  obtain ⟨r, -, hc⟩ := he
  exact isLocal_of_kind hc

end Routine

/-!
Which sources load, and why the others do not: a source loads exactly if it keeps every rule, and
otherwise fails with the kind of the first rule that it breaks.
-/

namespace Routine

/-- A source loads exactly if it keeps all rules, as its file stands once the load is announced, and
fails with the kind of a rule exactly if that is the first one it breaks. -/
theorem load_enforces_rules {σ : Type} [Host σ] (pairs : Placeholder.Pairs) (source : Source)
    (s : σ) (hp : source.path.contains '\x00' = false) :
    let holds := Rule.Holds (Host.files (announced source s))
      (Host.directory (announced source s)) pairs source.path
    ((∃ m, (load pairs source s).1 = .ok m) ↔ ∀ r, holds r) ∧
      ∀ r, (∃ failure, (load pairs source s).1 = .error failure ∧
        Cause.kind failure = .routine r.kind) ↔ FirstBroken holds Rule.all r := by
  intro holds
  have he : Enforces holds Rule.all (load pairs source s).1 := by
    rw [load_fst]
    exact enforces_outcomeIn hp
  refine ⟨?_, fun r => he.error_iff⟩
  rw [he.ok_iff]
  constructor
  · intro h r
    exact h r r.mem_all
  · intro h r _
    exact h r

/-- A source without value for its placeholder and without DocBlock fails for the placeholder. -/
theorem load_names_placeholder_before_designation :
    ("a.psql" : String).contains '\x00' = false ∧
      ∃ failure, (load ∅ ⟨"a.psql", "a", none⟩
        (⟨(∅ : FileTree).put ["a.psql"] (.file (Utf8.encode "select @A@".toList)), [], []⟩ :
          Workspace)).1 = .error failure ∧ Cause.kind failure = .routine Rule.resolved.kind := by
  have hp : ("a.psql" : String).contains '\x00' = false := by cbv
  refine ⟨hp, ((load_enforces_rules ∅ ⟨"a.psql", "a", none⟩ _ hp).2 .resolved).2 ?_⟩
  have ht : FileTree.HasText ((∅ : FileTree).put ["a.psql"]
      (.file (Utf8.encode "select @A@".toList))) [] "a.psql" "select @A@".toList :=
    ⟨["a.psql"], by cbv, by decide +kernel⟩
  refine ⟨[.readable], [.designated, .known, .returned, .typed, .agreed], rfl, ?_, ?_⟩
  · intro q hq
    obtain rfl := List.mem_singleton.1 hq
    exact ⟨_, ht, by show Text.allBlank _ = false; decide⟩
  · rintro ⟨text, ht', hr⟩
    obtain rfl := ht.unique ht'
    obtain ⟨v, hv⟩ := hr "@A@".toList (by decide +kernel)
    simp at hv

end Routine

end StoredRoutine
