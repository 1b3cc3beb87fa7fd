import StoredRoutine.Proofs.PhysicalLines
import StoredRoutine.Script

/-!
Splitting a script line by line. A statement ends on a line at its first semicolon after which the
line holds only horizontal blanks, or these and a comment; a fragment runs from the line after one
such line to the semicolon on the next. The fragments that the scan for terminators gives are these,
each starts with a line, and with the terminators between them they make up the script.
-/
namespace StoredRoutine.Script

open Text (Line EndsLine isBreak physicalLines ofPhysicalLines)

/-- Whether a semicolon ends its statement, by what is left of the line. -/
def closesLine (rest : Text) : Bool :=
  let rest := rest.dropWhile isHorizontalBlank
  rest.isEmpty || "--".toList.isPrefixOf rest

/-- Where a line ends a statement: at the first semicolon that does. -/
def ending? (body : Text) : Option Nat :=
  (List.range body.length).find? fun i => body[i]? == some ';' && closesLine (body.drop (i + 1))

/-- A fragment of a script and the terminator after it, which only the last one lacks. -/
structure Piece where
  offset : Nat
  text : Text
  terminator : Text
  deriving DecidableEq, Repr

/-- The pieces of lines, the first of which starts at an offset with a text from lines before. -/
def splitByLine (offset : Nat) (pending : Text) : List Line → List Piece
  | [] => if pending.isEmpty then [] else [⟨offset, pending, []⟩]
  | l :: ls =>
    match ending? l.body with
    | some i =>
      ⟨offset, pending ++ l.body.take i, l.body.drop i ++ l.brk⟩ ::
        splitByLine (offset + (pending ++ l.text).length) [] ls
    | none => splitByLine offset (pending ++ l.text) ls

section Ending

theorem ending?_cons (c : Char) (body : Text) :
    ending? (c :: body) =
      if c = ';' ∧ closesLine body = true then some 0 else (ending? body).map (· + 1) := by
  rw [ending?, List.length_cons, List.range_succ_eq_map, List.find?_cons]
  by_cases h : c = ';' ∧ closesLine body = true
  · simp [h]
  · have hc : (some c == some ';' && closesLine body) = false := by simpa using h
    simp only [List.getElem?_cons_zero, Nat.zero_add, List.drop_succ_cons, List.drop_zero]
    rw [hc, if_neg h, List.find?_map]
    rfl

theorem drop_ne_nil_of_ending? {body : Text} {i : Nat} (h : ending? body = some i) :
    body.drop i ≠ [] := by
  have hi : i < body.length := List.mem_range.1 (List.mem_of_find?_eq_some h)
  intro hn
  have := List.drop_eq_nil_iff.1 hn
  omega

end Ending

section Cut

/-- A cut of what follows some text. -/
def Cut.after (s : Text) (cut : Cut) : Cut := { cut with body := s ++ cut.body }

/-- Without a semicolon nothing ends. -/
theorem cut?_append_of_not_mem {s : Text} (h : ';' ∉ s) (t : Text) :
    cut? (s ++ t) = (cut? t).map (·.after s) := by
  induction s with
  | nil =>
    rw [List.nil_append]
    cases cut? t <;> rfl
  | cons c s ih =>
    rw [List.mem_cons, not_or] at h
    rw [List.cons_append, cut?, if_neg (Ne.symm h.1), ih h.2, Option.map_map]
    rfl

variable {body brk rest : Text}

theorem lineEnd?_of_endsLine (he : EndsLine brk rest) : lineEnd? (brk ++ rest) = some (brk, rest) := by
  cases he with
  | both => rfl
  | feed => rfl
  | carriage h =>
    cases rest with
    | nil => rfl
    | cons c r =>
      have hc : c ≠ '\n' := fun hc => h (by rw [hc]; rfl)
      simp [lineEnd?, hc, isBreak]
  | last => rfl

/-- What follows the body of a line begins with a break, if with anything. -/
theorem isBreak_head (he : EndsLine brk rest) {c : Char} (h : (brk ++ rest).head? = some c) :
    isBreak c = true := by
  cases he with
  | last => simp at h
  | _ =>
    obtain rfl := Option.some.inj h
    decide

/-- A comment runs to the end of its line. -/
theorem comment_line (hb : ∀ c ∈ body, isBreak c = false) (he : EndsLine brk rest) :
    comment ('-' :: '-' :: body ++ (brk ++ rest)) = ('-' :: '-' :: body, brk ++ rest) := by
  have hend : ∀ c, (brk ++ rest).head? = some c → (! isBreak c) = false := fun c h => by
    rw [isBreak_head he h, Bool.not_true]
  have hall : ∀ c ∈ body, (! isBreak c) = true := fun c h => by rw [hb c h, Bool.not_false]
  obtain ⟨ht, hd⟩ := Text.takeWhile_append_of_head hend body
  rw [List.takeWhile_eq_self_iff.2 hall] at ht
  rw [List.dropWhile_eq_nil_iff.2 hall, List.nil_append] at hd
  simp only [List.cons_append, comment]
  rw [ht, hd]

/-- What is left of a line, blanks in front set aside, ends the statement only if it is nothing or
a comment. -/
theorem lineEnd?_comment_line (hb : ∀ c ∈ body, isBreak c = false) (he : EndsLine brk rest) :
    (lineEnd? (comment (body ++ (brk ++ rest))).2).map
        (fun e => ((comment (body ++ (brk ++ rest))).1 ++ e.1, e.2)) =
      if body.isEmpty || "--".toList.isPrefixOf body then some (body ++ brk, rest) else none := by
  by_cases hc : ∃ remark, body = '-' :: '-' :: remark
  · obtain ⟨remark, rfl⟩ := hc
    have hb : ∀ c ∈ remark, isBreak c = false := fun c h =>
      hb c (List.mem_cons_of_mem _ (List.mem_cons_of_mem _ h))
    rw [comment_line hb he, lineEnd?_of_endsLine he]
    rfl
  · have hcomment : comment (body ++ (brk ++ rest)) = ([], body ++ (brk ++ rest)) := by
      rw [comment]
      intro u hu
      have hdash : (brk ++ rest).head? ≠ some '-' := fun h =>
        absurd (isBreak_head he h) (by decide)
      rcases body with _ | ⟨c, _ | ⟨d, remark⟩⟩
      · exact hdash (congrArg List.head? hu)
      · exact hdash (congrArg (fun t : Text => t.tail.head?) hu)
      · simp only [List.cons_append, List.cons.injEq] at hu
        exact hc ⟨remark, by rw [hu.1, hu.2.1]⟩
    rw [hcomment]
    cases body with
    | nil =>
      rw [List.nil_append, lineEnd?_of_endsLine he]
      rfl
    | cons c body =>
      have hn : "--".toList.isPrefixOf (c :: body) = false := by
        refine Bool.eq_false_iff.2 fun hp => hc ?_
        obtain ⟨u, hu⟩ := List.isPrefixOf_iff_prefix.1 hp
        exact ⟨u, hu.symm⟩
      have hbreak := hb c List.mem_cons_self
      have hend : lineEnd? (c :: body ++ (brk ++ rest)) = none := by
        rw [List.cons_append, lineEnd?, if_neg (by rw [hbreak]; exact Bool.false_ne_true)]
        rintro u rfl
        exact absurd hbreak (by decide)
      rw [hend, hn]
      rfl

theorem closing?_line (hb : ∀ c ∈ body, isBreak c = false) (he : EndsLine brk rest) :
    closing? (body ++ (brk ++ rest)) =
      if closesLine body then some (body ++ brk, rest) else none := by
  have hend : ∀ c, (brk ++ rest).head? = some c → isHorizontalBlank c = false := by
    intro c h
    rcases Text.isBreak_iff.1 (isBreak_head he h) with rfl | rfl <;> decide
  obtain ⟨ht, hd⟩ := Text.takeWhile_append_of_head hend body
  have hb' : ∀ c ∈ body.dropWhile isHorizontalBlank, isBreak c = false := fun c h =>
    hb c (List.dropWhile_subset _ h)
  have hl := congrArg (Option.map fun e => (body.takeWhile isHorizontalBlank ++ e.1, e.2))
    (lineEnd?_comment_line hb' he)
  simp only [closing?, ht, hd, closesLine]
  simp only [Option.map_map, Function.comp_def, ← List.append_assoc] at hl ⊢
  rw [hl, apply_ite (Option.map _), Option.map_none, Option.map_some, ← List.append_assoc,
    List.takeWhile_append_dropWhile]
  rfl

/-- A line cuts its script where it ends a statement, and otherwise is passed over. -/
theorem cut?_line (hb : ∀ c ∈ body, isBreak c = false) (he : EndsLine brk rest) :
    cut? (body ++ (brk ++ rest)) = match ending? body with
      | some i => some ⟨body.take i, body.drop i ++ brk, rest⟩
      | none => (cut? rest).map (·.after (body ++ brk)) := by
  induction body with
  | nil =>
    have hsemi : ';' ∉ brk := by cases he <;> decide
    exact cut?_append_of_not_mem hsemi rest
  | cons c body ih =>
    have hb' : ∀ d ∈ body, isBreak d = false := fun d h => hb d (List.mem_cons_of_mem _ h)
    rw [List.cons_append, cut?, closing?_line hb' he, ending?_cons, ih hb']
    by_cases hc : c = ';' ∧ closesLine body = true
    · obtain ⟨rfl, hcl⟩ := hc
      simp [hcl]
    · have hn : (if c = ';' then if closesLine body then some (body ++ brk, rest) else none
          else none) = none := by
        rw [not_and_or] at hc
        rcases hc with hc | hc <;> simp [hc]
      rw [hn, if_neg hc]
      cases ending? body with
      | some i => rfl
      | none =>
        simp only [Option.map_none, Option.map_map]
        rfl

theorem Cut.after_nil (cut : Option Cut) : cut.map (·.after []) = cut := by
  cases cut <;> rfl

end Cut

section Fragments

variable {offset line : Nat} {script : Text}

theorem fragmentsFrom_of_cut {cut : Cut} (h : cut? script = some cut) :
    fragmentsFrom offset line script =
      ⟨cut.body, offset, line + cut.body.indentation.breaks, true⟩ ::
        fragmentsFrom (offset + (cut.body ++ cut.terminator).length)
          (line + (cut.body ++ cut.terminator).breaks) cut.rest := by
  rw [fragmentsFrom]
  split
  · next cut' h' =>
    obtain rfl := Option.some.inj (h.symm.trans h')
    rfl
  · next h' => simp [h] at h'

theorem fragmentsFrom_of_uncut (h : cut? script = none) :
    fragmentsFrom offset line script =
      if script.isEmpty then []
      else [⟨script, offset, line + script.indentation.breaks, false⟩] := by
  rw [fragmentsFrom]
  split
  · next cut h' => simp [h] at h'
  · rfl

/-- What a fragment is, its line apart. -/
def Fragment.place (f : Fragment) : Text × Nat × Bool := (f.text, f.offset, f.terminated)

def Piece.place (p : Piece) : Text × Nat × Bool := (p.text, p.offset, !p.terminator.isEmpty)

/-- The fragments after some lines that end no statement are the pieces after these lines. -/
theorem map_place_fragmentsFrom (t : Text) : ∀ (offset line : Nat) (pending : Text),
    cut? (pending ++ t) = (cut? t).map (·.after pending) →
    (fragmentsFrom offset line (pending ++ t)).map (·.place) =
      (splitByLine offset pending (physicalLines t)).map (·.place) := by
  induction t using Text.physicalLines_induction with
  | nil =>
    intro offset line pending hp
    rw [fragmentsFrom_of_uncut hp, List.append_nil, splitByLine]
    split <;> rfl
  | line body brk rest hb he ih =>
    intro offset line pending hp
    rw [cut?_line hb he] at hp
    rw [splitByLine]
    cases hi : ending? body with
    | some i =>
      rw [hi] at hp
      have hlen : (pending ++ body.take i ++ (body.drop i ++ brk)).length =
          (pending ++ (body ++ brk)).length := by
        rw [List.append_assoc, ← List.append_assoc (body.take i), List.take_append_drop]
      have hterm : (!(body.drop i ++ brk).isEmpty) = true := by
        simp [drop_ne_nil_of_ending? hi]
      have ih := ih (offset + (pending ++ (body ++ brk)).length)
        (line + (pending ++ body.take i ++ (body.drop i ++ brk)).breaks) []
        (Cut.after_nil (cut? rest)).symm
      rw [List.nil_append] at ih
      rw [fragmentsFrom_of_cut hp]
      simp only [List.map_cons, Cut.after, Fragment.place, Piece.place, hterm, Line.text]
      rw [hlen]
      exact congrArg _ ih
    | none =>
      rw [hi, Option.map_map] at hp
      have hp' : cut? (pending ++ (body ++ brk) ++ rest) =
          (cut? rest).map (·.after (pending ++ (body ++ brk))) := by
        rw [List.append_assoc, List.append_assoc, hp]
        refine congrArg (fun f => Option.map f (cut? rest)) (funext fun cut => ?_)
        simp [Cut.after]
      have ih := ih offset line (pending ++ (body ++ brk)) hp'
      rw [List.append_assoc, List.append_assoc] at ih
      exact ih

end Fragments

section Pieces

/-- The pieces with their terminators are the lines that they are made of. -/
theorem flatMap_splitByLine (offset : Nat) (pending : Text) (ls : List Line) :
    (splitByLine offset pending ls).flatMap (fun p => p.text ++ p.terminator) =
      pending ++ ofPhysicalLines ls := by
  induction ls generalizing offset pending with
  | nil =>
    rw [splitByLine]
    split
    · next h => simp [List.isEmpty_iff.1 h, ofPhysicalLines]
    · simp [ofPhysicalLines]
  | cons l ls ih =>
    rw [splitByLine, ofPhysicalLines, List.flatMap_cons, ← ofPhysicalLines]
    split
    · next i hi =>
      have hl : l.body.take i ++ (l.body.drop i ++ l.brk) = l.text := by
        rw [← List.append_assoc, List.take_append_drop]
        rfl
      simp only [List.flatMap_cons, ih, List.append_assoc, List.nil_append]
      rw [← hl]
      simp only [List.append_assoc]
    · rw [ih, List.append_assoc]

/-- A piece starts with a line, and its text is what the lines from there on begin with. -/
theorem exists_lines_of_mem_splitByLine (before pending : List Line) {ls : List Line} {p : Piece}
    (h : p ∈ splitByLine (ofPhysicalLines before).length (ofPhysicalLines pending) ls) :
    ∃ before' after, before ++ (pending ++ ls) = before' ++ after ∧
      p.offset = (ofPhysicalLines before').length ∧ p.text <+: ofPhysicalLines after := by
  induction ls generalizing before pending with
  | nil =>
    rw [splitByLine] at h
    split at h
    · simp at h
    · obtain rfl := List.mem_singleton.1 h
      exact ⟨before, pending, by rw [List.append_nil], rfl, List.prefix_refl _⟩
  | cons l ls ih =>
    have hpending : ofPhysicalLines (pending ++ [l]) = ofPhysicalLines pending ++ l.text := by
      simp [ofPhysicalLines]
    rw [splitByLine] at h
    split at h
    · next i hi =>
      rcases List.mem_cons.1 h with rfl | h
      · refine ⟨before, pending ++ l :: ls, rfl, rfl, ?_⟩
        rw [Text.ofPhysicalLines_append, List.prefix_append_right_inj]
        have hbody : l.body.take i <+: l.text :=
          (List.take_prefix i l.body).trans (List.prefix_append l.body l.brk)
        exact hbody.trans (List.prefix_append l.text (ofPhysicalLines ls))
      · have hoffset : (ofPhysicalLines before).length +
            (ofPhysicalLines pending ++ l.text).length =
            (ofPhysicalLines (before ++ (pending ++ [l]))).length := by
          rw [Text.ofPhysicalLines_append, hpending, ← List.length_append]
        rw [hoffset] at h
        obtain ⟨before', after, hls, ho, ht⟩ := ih (before ++ (pending ++ [l])) [] h
        exact ⟨before', after, by simpa using hls, ho, ht⟩
    · rw [← hpending] at h
      obtain ⟨before', after, hls, ho, ht⟩ := ih before (pending ++ [l]) h
      exact ⟨before', after, by simpa using hls, ho, ht⟩

theorem map_place_fragments (script : Text) :
    (fragments script).map (·.place) = (splitByLine 0 [] (physicalLines script)).map (·.place) :=
  map_place_fragmentsFrom script 0 1 [] (Cut.after_nil (cut? script)).symm

/-- A fragment stands at its offset, where a line begins. -/
theorem exists_lines_of_mem_fragments {script : Text} {f : Fragment} (hf : f ∈ fragments script) :
    f.text <+: script.drop f.offset ∧ ∃ before after, physicalLines script = before ++ after ∧
      ofPhysicalLines before = script.take f.offset := by
  have hf' : f.place ∈ (splitByLine 0 [] (physicalLines script)).map (·.place) := by
    rw [← map_place_fragments]
    exact List.mem_map_of_mem hf
  obtain ⟨p, hp, he⟩ := List.mem_map.1 hf'
  obtain ⟨htext, hoffset, -⟩ : p.text = f.text ∧ p.offset = f.offset ∧ _ := by
    simpa [Fragment.place, Piece.place] using he
  obtain ⟨before, after, hls, ho, ht⟩ := exists_lines_of_mem_splitByLine [] [] hp
  have hscript : script = ofPhysicalLines before ++ ofPhysicalLines after := by
    rw [← Text.ofPhysicalLines_append, ← hls]
    exact (Text.ofPhysicalLines_physicalLines script).symm
  refine ⟨?_, before, after, hls, ?_⟩
  · rw [← htext, ← hoffset, ho, hscript, List.drop_left]
    exact ht
  · rw [← hoffset, ho, hscript, List.take_left]

end Pieces

/-- Scanning for terminators splits a script as going through it line by line does: the fragments
are the pieces of its physical lines. Each fragment stands in the script at its offset, where a
line begins, and with the terminators between them the fragments give the script back. -/
theorem fragments_eq_splitByLine (script : Text) :
    (fragments script).map (·.place) =
        (splitByLine 0 [] (physicalLines script)).map (·.place) ∧
      (∀ f ∈ fragments script, (script.drop f.offset).take f.text.length = f.text ∧
        ∃ before after, physicalLines script = before ++ after ∧
          ofPhysicalLines before = script.take f.offset) ∧
      (splitByLine 0 [] (physicalLines script)).flatMap (fun p => p.text ++ p.terminator) =
        script := by
  refine ⟨map_place_fragments script, ?_, ?_⟩
  · intro f hf
    obtain ⟨htext, hlines⟩ := exists_lines_of_mem_fragments hf
    exact ⟨(List.prefix_iff_eq_take.1 htext).symm, hlines⟩
  · rw [flatMap_splitByLine, Text.ofPhysicalLines_physicalLines, List.nil_append]

end StoredRoutine.Script
