import StoredRoutine.Proofs.LeftmostLongest
import StoredRoutine.Proofs.PlaceholderScan

/-!
What one pass over a line makes of it when its tokens are placeholders and constants. The line is cut
at its placeholders, as the scanner finds them; each placeholder gives its value, and in the
stretches between them every constant, from left to right and without overlap, gives its own. The
scanner and the pass are at the same place whenever a token starts, for a constant holds no at sign.
-/
namespace StoredRoutine.Placeholder

section Placeholders

variable {m : OrderedMap Text Text} (hm : ∀ k ∈ m.keys, IsPlaceholder k)

include hm

/-- Where all tokens are placeholders, no other one starts where one of them stands. -/
theorem substitute_placeholder {p v : Text} (hv : m.get? p = some v) (t : Text) :
    substitute m (p ++ t) = v ++ substitute m t := by
  have hp : IsPlaceholder p := hm p (OrderedMap.mem_keys_iff.2 ⟨v, hv⟩)
  refine substitute_token hv hp.ne_nil fun k hk hpre => ?_
  rw [(hm k hk).eq_of_prefixes hp hpre (List.prefix_append p t)]

theorem substitute_of_not_opened {c : Char} {t : Text} (h : c = '@' → opened? t = none) :
    substitute m (c :: t) = c :: substitute m t := by
  refine substitute_plain fun k hk _ ⟨u, hu⟩ => ?_
  obtain ⟨inner, rfl, -⟩ := (hm k hk).exists_inner
  obtain ⟨rfl, ht⟩ := List.cons.inj hu
  have ho : opened? t = some ('@' :: (inner ++ ['@']), u) :=
    opened?_eq_some_iff.2 ⟨hm _ hk, by rw [← ht]; rfl⟩
  rw [h rfl] at ho
  cases ho

theorem substitute_of_not_mem {s : Text} (hs : '@' ∉ s) (t : Text) :
    substitute m (s ++ t) = s ++ substitute m t := by
  induction s with
  | nil => rfl
  | cons c s ih =>
    rw [List.mem_cons, not_or] at hs
    rw [List.cons_append, substitute_of_not_opened hm fun h => absurd h.symm hs.1, ih hs.2]
    rfl

end Placeholders

/-- The stretch before the first placeholder, and every placeholder with the stretch after it. -/
def stretches : List Piece → Text × List (Text × Text)
  | [] => ([], [])
  | .plain c :: ps => (c :: (stretches ps).1, (stretches ps).2)
  | .placeholder p :: ps => ([], (p, (stretches ps).1) :: (stretches ps).2)

/-- A stretch with every leftmost occurrence of a constant replaced, without overlap. -/
def expand (constants : List (Text × Text)) : Text → Text
  | [] => []
  | c :: t =>
    match constants.find? fun e => e.1.isPrefixOf (c :: t) with
    | some (name, value) => value ++ expand constants (t.drop (name.length - 1))
    | none => c :: expand constants t
termination_by t => t.length

/-- A line with the value of each placeholder in its place and the constants of each stretch
replaced. -/
def compiledLine (value : Text → Text) (constants : List (Text × Text)) (line : Text) : Text :=
  expand constants (stretches (pieces line)).1 ++
    (stretches (pieces line)).2.flatMap fun e => value e.1 ++ expand constants e.2

/-- Constants of which none is empty, holds an at sign or begins another one. -/
structure Separate (constants : List (Text × Text)) : Prop where
  ne_nil : ∀ e ∈ constants, e.1 ≠ []
  not_mem : ∀ e ∈ constants, '@' ∉ e.1
  eq_of_prefix : ∀ e ∈ constants, ∀ e' ∈ constants, e.1 <+: e'.1 → e = e'

theorem Separate.eq_of_prefixes {constants : List (Text × Text)} (h : Separate constants)
    {e e' : Text × Text} (he : e ∈ constants) (he' : e' ∈ constants) {t : Text}
    (hp : e.1 <+: t) (hp' : e'.1 <+: t) : e = e' := by
  rcases List.prefix_or_prefix_of_prefix hp hp' with h₁ | h₁
  · exact h.eq_of_prefix e he e' he' h₁
  · exact (h.eq_of_prefix e' he' e he h₁).symm

section Expand

variable {constants : List (Text × Text)}

theorem expand_append (h : Separate constants) {e : Text × Text} (he : e ∈ constants) (t : Text) :
    expand constants (e.1 ++ t) = e.2 ++ expand constants t := by
  obtain ⟨name, value⟩ := e
  cases name with
  | nil => exact absurd rfl (h.ne_nil _ he)
  | cons c name =>
    have hf : constants.find? (fun e => e.1.isPrefixOf (c :: (name ++ t))) =
        some (c :: name, value) := by
      cases hs : constants.find? fun e => e.1.isPrefixOf (c :: (name ++ t)) with
      | none =>
        have hn := List.find?_eq_none.1 hs _ he
        simp at hn
      | some e' =>
        have hm := List.mem_of_find?_eq_some hs
        have hp : e'.1 <+: c :: (name ++ t) := by simpa using List.find?_some hs
        rw [h.eq_of_prefixes hm he hp (List.prefix_append (c :: name) t)]
    simp only [List.cons_append]
    rw [expand, hf]
    simp

theorem expand_cons {c : Char} {t : Text} (h : ∀ e ∈ constants, ¬ e.1 <+: c :: t) :
    expand constants (c :: t) = c :: expand constants t := by
  have hf : constants.find? (fun e => e.1.isPrefixOf (c :: t)) = none := by
    rw [List.find?_eq_none]
    intro e he
    simpa using h e he
  rw [expand, hf]

end Expand

section CompiledLine

variable {value : Text → Text} {constants : List (Text × Text)}

theorem stretches_prefix (t : Text) : (stretches (pieces t)).1 <+: t := by
  have h : ∀ ps : List Piece, (stretches ps).1 <+: ps.flatMap (·.text) := by
    intro ps
    induction ps with
    | nil => exact List.prefix_refl _
    | cons p ps ih =>
      cases p with
      | plain c => simpa [stretches, Piece.text] using ih
      | placeholder p => exact List.nil_prefix
  simpa [flatMap_text_pieces] using h (pieces t)

theorem compiledLine_placeholder {t p rest : Text} (h : opened? t = some (p, rest)) :
    compiledLine value constants ('@' :: t) = value p ++ compiledLine value constants rest := by
  rw [compiledLine, pieces_of_opened? h]
  simp [stretches, expand, compiledLine]

theorem stretches_plain (s : Text) (ps : List Piece) :
    stretches (s.map .plain ++ ps) = (s ++ (stretches ps).1, (stretches ps).2) := by
  induction s with
  | nil => rfl
  | cons c s ih => simp [stretches, ih]

theorem compiledLine_constant (h : Separate constants) {e : Text × Text} (he : e ∈ constants)
    (t : Text) :
    compiledLine value constants (e.1 ++ t) = e.2 ++ compiledLine value constants t := by
  rw [compiledLine, pieces_of_not_mem (h.not_mem e he), stretches_plain]
  simp only [expand_append h he, List.append_assoc, compiledLine]

theorem compiledLine_plain {c : Char} {t : Text} (ho : c = '@' → opened? t = none)
    (h : ∀ e ∈ constants, ¬ e.1 <+: c :: t) :
    compiledLine value constants (c :: t) = c :: compiledLine value constants t := by
  have hp : ∀ e ∈ constants, ¬ e.1 <+: c :: (stretches (pieces t)).1 := by
    intro e he hpre
    exact h e he (hpre.trans (List.cons_prefix_cons.2 ⟨rfl, stretches_prefix t⟩))
  rw [compiledLine, pieces_of_not_opened ho]
  simp only [stretches, expand_cons hp, List.cons_append, compiledLine]

end CompiledLine

section Pass

variable {tokens : List (Text × Text)} {value : Text → Text} {constants : List (Text × Text)}
  {known : Text → Prop}

/-- One pass with the values of known placeholders and with constants compiles every line whose
placeholders are known. -/
theorem replaceIn_eq_compiledLine (hs : Separate constants) (hk : ∀ p, known p → IsPlaceholder p)
    (ht : ∀ e, e ∈ tokens ↔ e ∈ constants ∨ known e.1 ∧ e.2 = value e.1) (line : Text)
    (hf : ∀ p ∈ find line, known p) :
    replaceIn tokens line = compiledLine value constants line := by
  fun_induction replaceIn tokens line with
  | case1 => simp [compiledLine, pieces, stretches, expand]
  | case2 c t v rest h ih =>
    obtain ⟨e, he, hne, rfl, hct⟩ := exists_token_of_replaced? h
    rw [hct] at hf ⊢
    rcases (ht e).1 he with hc | ⟨hp, hv⟩
    · -- a constant stands in a stretch, where no placeholder begins before its end
      rw [find_of_not_mem (hs.not_mem e hc)] at hf
      rw [compiledLine_constant hs hc, ih hf]
    · -- a known placeholder is the one that the scanner opens here
      obtain ⟨u, hu⟩ : ∃ u, e.1 ++ rest = '@' :: u := by
        obtain ⟨name, suffix, -, -, -, hname⟩ := hk _ hp
        exact ⟨_, by rw [hname, List.cons_append]⟩
      have ho : opened? u = some (e.1, rest) := opened?_eq_some_iff.2 ⟨hk _ hp, hu.symm⟩
      rw [hu, find_of_opened? ho] at hf
      rw [hu, compiledLine_placeholder ho, ih fun p hm => hf p (List.mem_cons_of_mem _ hm), hv]
  | case3 c t h ih =>
    have hc : ∀ e ∈ constants, ¬ e.1 <+: c :: t := fun e he =>
      not_prefix_of_not_replaced h ((ht e).2 (.inl he)) (hs.ne_nil e he)
    have ho : c = '@' → opened? t = none := by
      rintro rfl
      rw [Option.eq_none_iff_forall_ne_some]
      rintro ⟨p, rest⟩ ho
      have hm : p ∈ find ('@' :: t) := by
        rw [find_of_opened? ho]
        exact List.mem_cons_self
      obtain ⟨hp, hpt⟩ := opened?_eq_some_iff.1 ho
      exact not_prefix_of_not_replaced h ((ht (p, value p)).2 (.inr ⟨hf p hm, rfl⟩)) hp.ne_nil
        ⟨rest, hpt.symm⟩
    rw [find_of_not_opened ho] at hf
    rw [compiledLine_plain ho hc, ih hf]

end Pass

end StoredRoutine.Placeholder
