import StoredRoutine.Proofs.Loading

/-!
The rules for a source, each said of its text alone, and what it means to enforce rules in order.
Stages that follow one another enforce the rules of all of them, so a load is settled stage by stage.
-/
namespace StoredRoutine.Routine

open DocBlock (typeTag returnTag paramTag typeArgument)

/-- The rules for a source in the order in which they are enforced. -/
inductive Rule where
  /-- The source can be read and is not blank. -/
  | readable
  /-- Every placeholder has a value. -/
  | resolved
  /-- One tag, with at least one word, declares the designation. -/
  | designated
  /-- The word that it declares is a designation. -/
  | known
  /-- One tag, with at least one word, declares a return type, or none does if the designation
  carries no return type. -/
  | returned
  /-- The return type is one that the designation may have. -/
  | typed
  /-- Bind markers and documented parameters are the same. -/
  | agreed
  deriving DecidableEq, Repr

namespace Rule

def all : List Rule := [readable, resolved, designated, known, returned, typed, agreed]

/-- The kind of failure of a source that breaks a rule. -/
def kind : Rule → String
  | readable => "UnreadableSourceError"
  | resolved => "UnresolvedPlaceholderError"
  | designated => "DesignationTagError"
  | known => "InvalidDesignationError"
  | returned => "ReturnTagError"
  | typed => "InvalidReturnTypeError"
  | agreed => "ParameterMismatchError"

theorem mem_all (r : Rule) : r ∈ all := by cases r <;> decide

theorem kind_injective : Function.Injective kind := by
  intro q r h
  cases q <;> cases r <;> first | rfl | exact absurd h (by decide)

end Rule

/-- The text after the name in each tag of that name, in order. -/
def contents (text : Text) (name : Text) : List Text :=
  ((docBlock text).tagsNamed name).map (·.content)

/-- There is one tag of a name, and a word comes first in it. -/
def Declares (text : Text) (name word : Text) : Prop :=
  ∃ content, contents text name = [content] ∧ content.words.head? = some word

/-- The names of the documented parameters: the second words of their tags, with a colon. -/
def Documents (text : Text) (name : Text) : Prop :=
  ∃ content ∈ contents text paramTag, ∃ word, content.words[1]? = some word ∧
    name = Parameter.markerName word

/-- The return types that a designation may have. -/
def Typed (d : Designation) (type : Text) : Prop :=
  (type = "mixed".toList ∨ ∀ part ∈ type.splitOn '|', part ∈ ReturnType.scalarTypes) ∧
    (d = .singleton0 →
      type = "mixed".toList ∨ type = "bool".toList ∨ "null".toList ∈ type.splitOn '|')

/-- What a rule asks of the text of a source. Rules about the designation ask nothing of a text that
declares none. -/
def Rule.KeptBy (pairs : Placeholder.Pairs) (text : Text) : Rule → Prop
  | readable => text.allBlank = false
  | resolved => ∀ p ∈ Placeholder.find text, ∃ v, pairs.get? p.upper = some (some v)
  | designated => ∃ word, Declares text typeTag word
  | known => ∃ d : Designation, Declares text typeTag d.word.toList
  | returned => ∀ d : Designation, Declares text typeTag d.word.toList →
      if d.returnsValue then ∃ type, Declares text returnTag type else contents text returnTag = []
  | typed => ∀ (d : Designation) (type : Text), Declares text typeTag d.word.toList →
      d.returnsValue = true → Declares text returnTag type → Typed d type
  | agreed => ∀ name, name ∈ BindMarker.discover (.ofLines (payloadLines text)) ↔
      Documents text name

section Enforcement

variable {α β : Type} {holds : Rule → Prop} {rs : List Rule}

/-- A rule is the first of some rules that does not hold. -/
def FirstBroken (holds : Rule → Prop) (rs : List Rule) (r : Rule) : Prop :=
  ∃ kept rest, rs = kept ++ r :: rest ∧ (∀ q ∈ kept, holds q) ∧ ¬ holds r

theorem FirstBroken.unique {q r : Rule} (hq : FirstBroken holds rs q)
    (hr : FirstBroken holds rs r) : q = r := by
  obtain ⟨kept₁, rest₁, he₁, hk₁, hb₁⟩ := hq
  obtain ⟨kept₂, rest₂, he₂, hk₂, hb₂⟩ := hr
  rw [he₁, List.append_eq_append_iff] at he₂
  -- the shorter of the two beginnings is followed by a broken rule
  rcases he₂ with ⟨gap, hg, he⟩ | ⟨gap, hg, he⟩
  · cases gap with
    | nil => exact (List.cons.inj he).1
    | cons a gap =>
      obtain rfl := (List.cons.inj he).1
      exact absurd (hk₂ q (by simp [hg])) hb₁
  · cases gap with
    | nil => exact (List.cons.inj he).1.symm
    | cons a gap =>
      obtain rfl := (List.cons.inj he).1
      exact absurd (hk₁ r (by simp [hg])) hb₂

/-- An outcome enforces rules: with a result all of them hold, and a failure is of the kind of the
first one that does not. -/
def Enforces (holds : Rule → Prop) (rs : List Rule) : Except LoadFailure α → Prop
  | .ok _ => ∀ r ∈ rs, holds r
  | .error failure => ∃ r, FirstBroken holds rs r ∧ Cause.kind failure = .routine r.kind

theorem enforces_ok_of_iff {r : Rule} {x : Except LoadFailure α}
    (hok : (∃ a, x = .ok a) ↔ holds r)
    (herr : ∀ failure, x = .error failure → Cause.kind failure = .routine r.kind) :
    Enforces holds [r] x := by
  cases x with
  | ok a =>
    intro q hq
    obtain rfl := List.mem_singleton.1 hq
    exact hok.1 ⟨a, rfl⟩
  | error failure =>
    have hb : ¬ holds r := fun h => by
      obtain ⟨a, ha⟩ := hok.2 h
      simp at ha
    exact ⟨r, ⟨[], [], rfl, by simp, hb⟩, herr failure rfl⟩

/-- A stage that follows another one enforces its rules after those of the first. -/
theorem Enforces.bind {x : Except LoadFailure α} {f : α → Except LoadFailure β}
    (hx : Enforces holds rs x) (rs' : List Rule)
    (hf : ∀ a, x = .ok a → Enforces holds rs' (f a)) : Enforces holds (rs ++ rs') (x >>= f) := by
  cases x with
  | error failure =>
    obtain ⟨r, ⟨kept, rest, he, hk, hb⟩, hc⟩ := hx
    exact ⟨r, ⟨kept, rest ++ rs', by simp [he], hk, hb⟩, hc⟩
  | ok a =>
    have hf := hf a rfl
    change Enforces holds (rs ++ rs') (f a)
    cases hfa : f a with
    | ok b =>
      rw [hfa] at hf
      intro r hr
      rcases List.mem_append.1 hr with hr | hr
      · exact hx r hr
      · exact hf r hr
    | error failure =>
      rw [hfa] at hf
      obtain ⟨r, ⟨kept, rest, he, hk, hb⟩, hc⟩ := hf
      refine ⟨r, ⟨rs ++ kept, rest, by simp [he], ?_, hb⟩, hc⟩
      intro q hq
      rcases List.mem_append.1 hq with hq | hq
      · exact hx q hq
      · exact hk q hq

theorem Enforces.congr {holds' : Rule → Prop} {x : Except LoadFailure α}
    (h : ∀ r ∈ rs, holds r ↔ holds' r) (hx : Enforces holds rs x) : Enforces holds' rs x := by
  cases x with
  | ok a => exact fun r hr => (h r hr).1 (hx r hr)
  | error failure =>
    obtain ⟨r, ⟨kept, rest, he, hk, hb⟩, hc⟩ := hx
    have hm : ∀ q, q ∈ kept ∨ q = r → q ∈ rs := fun q hq => by
      rw [he]
      rcases hq with hq | rfl <;> simp [*]
    exact ⟨r, ⟨kept, rest, he, fun q hq => (h q (hm q (.inl hq))).1 (hk q hq),
      fun hr => hb ((h r (hm r (.inr rfl))).2 hr)⟩, hc⟩

theorem Enforces.ok_iff {x : Except LoadFailure α} (hx : Enforces holds rs x) :
    (∃ a, x = .ok a) ↔ ∀ r ∈ rs, holds r := by
  cases x with
  | ok a => exact ⟨fun _ => hx, fun _ => ⟨a, rfl⟩⟩
  | error failure =>
    obtain ⟨r, ⟨kept, rest, he, hk, hb⟩, hc⟩ := hx
    constructor
    · rintro ⟨a, ha⟩
      simp at ha
    · intro h
      exact absurd (h r (by simp [he])) hb

theorem Enforces.error_iff {x : Except LoadFailure α} (hx : Enforces holds rs x) {r : Rule} :
    (∃ failure, x = .error failure ∧ Cause.kind failure = .routine r.kind) ↔
      FirstBroken holds rs r := by
  cases x with
  | ok a =>
    constructor
    · rintro ⟨failure, hf, -⟩
      simp at hf
    · rintro ⟨kept, rest, he, -, hb⟩
      exact absurd (hx r (by simp [he])) hb
  | error failure =>
    obtain ⟨q, hq, hc⟩ := hx
    constructor
    · rintro ⟨failure', hf, hc'⟩
      obtain rfl := Except.error.inj hf
      rw [hc] at hc'
      obtain rfl := Rule.kind_injective (FailureKind.routine.inj hc')
      exact hq
    · intro hr
      obtain rfl := hq.unique hr
      exact ⟨failure, rfl, hc⟩

end Enforcement

end StoredRoutine.Routine
