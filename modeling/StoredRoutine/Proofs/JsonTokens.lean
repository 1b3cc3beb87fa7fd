import Mathlib
import StoredRoutine.Json.Basic
import StoredRoutine.Json.Reading
import StoredRoutine.Proofs.OrderedMap
import StoredRoutine.Proofs.Trimming

/-!
Written scalars, brackets and separators are read as the tokens they stand for, whatever comes after
them. Only a number or a word could run on into the text that follows, so that text must begin with a
character of neither.
-/
namespace StoredRoutine.Json

namespace Token

section Quoted

theorem quoted?_close (u : Text) : quoted? ('"' :: u) = some ([], u) := by
  rw [quoted?, if_pos rfl]

theorem quoted?_plain {c : Char} (h₁ : c ≠ '"') (h₂ : c ≠ '\\') (h₃ : ¬ c.toNat < 0x20) (u : Text) :
    quoted? (c :: u) = (quoted? u).map fun (inner, rest) => (c :: inner, rest) := by
  rw [quoted?, if_neg h₁, if_neg h₂, if_neg h₃]

theorem quoted?_escape {u rest : Text} {c : Char} (h : escape? u = some (c, rest)) :
    quoted? ('\\' :: u) = (quoted? rest).map fun (inner, rest) => (c :: inner, rest) := by
  rw [quoted?, if_neg (by decide), if_pos rfl]
  split
  · next he =>
    rw [h] at he
    obtain ⟨rfl, rfl⟩ := Prod.mk.inj (Option.some.inj he)
    rfl
  · next he =>
    rw [h] at he
    cases he

/-- A control character is written by its number. -/
theorem escape?_hex {n : Nat} (h : n < 0x20) (u : Text) :
    escape? ('u' :: Text.hex 4 n ++ u) = some (Char.ofNat n, u) := by
  interval_cases n <;> rfl

/-- A character that is read after a backslash and a letter. -/
theorem quoted?_letter {c x : Char} (hc : c ≠ 'u') (h : escaped? c = some x) (u : Text) :
    quoted? ('\\' :: c :: u) = (quoted? u).map fun (inner, rest) => (x :: inner, rest) := by
  apply quoted?_escape
  rw [escape?, if_neg hc, h, Option.map_some]

theorem quoted?_escapedChar (c : Char) (u : Text) :
    quoted? (escapedChar c ++ u) = (quoted? u).map fun (inner, rest) => (c :: inner, rest) := by
  by_cases h₁ : c = '"'
  · subst h₁
    exact quoted?_letter (by decide) rfl u
  by_cases h₂ : c = '\\'
  · subst h₂
    exact quoted?_letter (by decide) rfl u
  by_cases h₃ : c = '\n'
  · subst h₃
    exact quoted?_letter (by decide) rfl u
  by_cases h₄ : c = '\r'
  · subst h₄
    exact quoted?_letter (by decide) rfl u
  by_cases h₅ : c = '\t'
  · subst h₅
    exact quoted?_letter (by decide) rfl u
  by_cases h₆ : c = Char.ofNat 8
  · subst h₆
    exact quoted?_letter (c := 'b') (by decide) rfl u
  by_cases h₇ : c = Char.ofNat 12
  · subst h₇
    exact quoted?_letter (c := 'f') (by decide) rfl u
  simp only [escapedChar, if_neg h₁, if_neg h₂, if_neg h₃, if_neg h₄, if_neg h₅, if_neg h₆,
    if_neg h₇]
  by_cases h₈ : c.toNat < 0x20
  · rw [if_pos h₈]
    apply quoted?_escape
    exact (escape?_hex h₈ u).trans (by rw [Char.ofNat_toNat])
  · rw [if_neg h₈]
    exact quoted?_plain h₁ h₂ h₈ u

theorem quoted?_flatMap_escapedChar (t rest : Text) :
    quoted? (t.flatMap escapedChar ++ '"' :: rest) = some (t, rest) := by
  induction t with
  | nil => exact quoted?_close rest
  | cons c t ih =>
    rw [List.flatMap_cons, List.append_assoc, quoted?_escapedChar, ih]
    rfl

end Quoted

section Number

theorem isAsciiDigit_of_mem_toDigits {n : Nat} {c : Char} (h : c ∈ Nat.toDigits 10 n) :
    isAsciiDigit c = true := by
  have hd := Nat.isDigit_of_mem_toDigits (by decide) (by decide) h
  simpa [isAsciiDigit, Char.isDigit, Char.le_def] using hd

theorem isWordPart_of_isAsciiDigit {c : Char} (h : isAsciiDigit c = true) : isWordPart c = true := by
  have hne : ∀ x, isAsciiDigit x = false → c ≠ x := by
    rintro x hx rfl
    rw [h] at hx
    cases hx
  simp [isWordPart, isSpace, punctuation?, hne ' ' rfl, hne '\n' rfl, hne '\r' rfl, hne '\t' rfl,
    hne '[' rfl, hne ']' rfl, hne '\x7b' rfl, hne '\x7d' rfl, hne ',' rfl, hne ':' rfl, hne '"' rfl]

/-- A zero is the first digit of zero only. -/
theorem head?_toDigits {n : Nat} (h : n ≠ 0) : (Nat.toDigits 10 n).head? ≠ some '0' := by
  induction n using Nat.strong_induction_on with
  | _ n ih =>
    rw [Nat.toDigits_eq_if (by decide)]
    split
    · interval_cases n <;> first | contradiction | decide
    · have hne : Nat.toDigits 10 (n / 10) ≠ [] := Nat.toDigits_ne_nil
      rw [List.head?_append_of_ne_nil _ hne]
      exact ih (n / 10) (by omega) (by omega)

theorem wholeNumber?_toDigits (negative : Bool) (n : Nat) :
    wholeNumber? negative (Nat.toDigits 10 n) = some (if negative then -(n : Int) else n) := by
  have hzero : ¬ ((Nat.toDigits 10 n).head? = some '0' ∧ 1 < (Nat.toDigits 10 n).length) := by
    rintro ⟨hh, hl⟩
    have hn : n = 0 := by_contra fun hn => head?_toDigits hn hh
    subst hn
    exact absurd hl (by decide)
  rw [wholeNumber?, if_neg (by simpa using hzero), Nat.ofDigitChars_ten_toDigits]

theorem toList_toString_ofNat (n : Nat) :
    (toString (Int.ofNat n)).toList = Nat.toDigits 10 n := by
  have h : toString (Int.ofNat n) = Nat.repr n := rfl
  rw [h, Nat.repr_eq_ofList_toDigits, String.toList_ofList]

theorem toList_toString_negSucc (n : Nat) :
    (toString (Int.negSucc n)).toList = '-' :: Nat.toDigits 10 (n + 1) := by
  have h : toString (Int.negSucc n) = "-" ++ Nat.repr (n + 1) := rfl
  rw [h, Nat.repr_eq_ofList_toDigits]
  simp

/-- No word has a digit. -/
theorem lookup_words_of_digit {t : Text} {c : Char} (hc : c ∈ t) (hd : isAsciiDigit c = true) :
    words.lookup (String.ofList t) = none := by
  have hw : ∀ w ∈ words, ∀ c ∈ w.1.toList, isAsciiDigit c = false := by simp [words, isAsciiDigit]
  rw [List.lookup_eq_none_iff]
  intro w hm
  refine bne_iff_ne.2 fun ht => ?_
  have h := hw w hm c (by rwa [← ht, String.toList_ofList])
  rw [hd] at h
  cases h

/-- A run of digits, perhaps after a minus sign, is read as a whole number. -/
theorem word?_of_digits (negative : Bool) {n : Nat} {t : Text}
    (ht : t = if negative then '-' :: Nat.toDigits 10 n else Nat.toDigits 10 n) :
    word? t = some (.integer (if negative then -(n : Int) else n)) := by
  obtain ⟨c, cs, hcs⟩ := List.exists_cons_of_ne_nil (Nat.toDigits_ne_nil (n := n) (b := 10))
  have hall : (Nat.toDigits 10 n).all isAsciiDigit = true :=
    List.all_eq_true.2 fun _ => isAsciiDigit_of_mem_toDigits
  have hmem : c ∈ Nat.toDigits 10 n := by rw [hcs]; exact List.mem_cons_self
  have hd : isAsciiDigit c = true := isAsciiDigit_of_mem_toDigits hmem
  have hany : (Nat.toDigits 10 n).head?.any isAsciiDigit = true := by rw [hcs]; exact hd
  have hminus : (Nat.toDigits 10 n).head? ≠ some '-' := by
    rw [hcs]
    rintro ⟨⟩
    cases hd
  have hct : c ∈ t := by
    rw [ht]
    split
    · exact List.mem_cons_of_mem _ hmem
    · exact hmem
  rw [word?, lookup_words_of_digit hct hd]
  cases negative with
  | true => simp [ht, number?, hany, hall, wholeNumber?_toDigits]
  | false => simp [ht, number?, hminus, hany, hall, wholeNumber?_toDigits]

/-- The digits of a whole number stand together, also with the minus sign in front of them. -/
theorem isWordPart_integer (n : Int) :
    (toString n).toList ≠ [] ∧ ∀ c ∈ (toString n).toList, isWordPart c = true := by
  have hd : ∀ n : Nat, ∀ c ∈ Nat.toDigits 10 n, isWordPart c = true := fun n c hc =>
    isWordPart_of_isAsciiDigit (isAsciiDigit_of_mem_toDigits hc)
  cases n with
  | ofNat n =>
    rw [toList_toString_ofNat]
    exact ⟨Nat.toDigits_ne_nil, hd n⟩
  | negSucc n =>
    rw [toList_toString_negSucc]
    exact ⟨List.cons_ne_nil _ _, List.forall_mem_cons.2 ⟨rfl, hd (n + 1)⟩⟩

theorem word?_integer (n : Int) : word? (toString n).toList = some (.integer n) := by
  cases n with
  | ofNat n => exact word?_of_digits false (toList_toString_ofNat n)
  | negSucc n => exact word?_of_digits true (toList_toString_negSucc n)

/-- Null and the truth values are read as they are written. -/
theorem word?_of_mem_words {w : String} {v : Value} (h : (w, v) ∈ words) :
    word? w.toList = some v := by
  have hd : (words.map Prod.fst).Nodup := by decide
  rw [word?, String.ofList_toList, (OrderedMap.lookup_eq_some_iff hd).2 h]
  rfl

theorem isWordPart_of_mem_words {w : String} {v : Value} (h : (w, v) ∈ words) :
    w.toList ≠ [] ∧ ∀ c ∈ w.toList, isWordPart c = true := by
  have hall : ∀ w ∈ words, w.1.toList ≠ [] ∧ ∀ c ∈ w.1.toList, isWordPart c = true := by
    simp [words, isWordPart, isSpace, punctuation?]
  exact hall _ h

end Number

section Read

theorem read_nil : read [] = some [] := by rw [read]

theorem read_space {c : Char} (h : isSpace c = true) (u : Text) : read (c :: u) = read u := by
  rw [read, if_pos h]

theorem read_spaces {t : Text} (h : ∀ c ∈ t, isSpace c = true) (u : Text) :
    read (t ++ u) = read u := by
  induction t with
  | nil => rfl
  | cons c t ih =>
    rw [List.cons_append, read_space (h c List.mem_cons_self),
      ih fun c hc => h c (List.mem_cons_of_mem _ hc)]

theorem read_quoted {u inner rest : Text} (h : quoted? u = some (inner, rest)) :
    read ('"' :: u) = (read rest).map (.scalar (.text inner) :: ·) := by
  rw [read, if_neg (by decide), if_pos rfl]
  split
  · next hq =>
    rw [h] at hq
    obtain ⟨rfl, rfl⟩ := Prod.mk.inj (Option.some.inj hq)
    rfl
  · next hq =>
    rw [h] at hq
    cases hq

theorem read_punctuation {c : Char} {token : Token} (h : punctuation? c = some token) (u : Text) :
    read (c :: u) = (read u).map (token :: ·) := by
  have hs : ¬ isSpace c = true := by
    intro hs
    simp only [isSpace, Bool.or_eq_true, beq_iff_eq] at hs
    rcases hs with ((rfl | rfl) | rfl) | rfl <;> cases h
  have hq : c ≠ '"' := by
    rintro rfl
    cases h
  rw [read, if_neg hs, if_neg hq, h]

theorem read_word {t : Text} {v : Value} (hne : t ≠ []) (hp : ∀ c ∈ t, isWordPart c = true)
    (hw : word? t = some v) {u : Text} (hu : ∀ c, u.head? = some c → isWordPart c = false) :
    read (t ++ u) = (read u).map (.scalar v :: ·) := by
  obtain ⟨c, t, rfl⟩ := List.exists_cons_of_ne_nil hne
  have hc := hp c List.mem_cons_self
  simp only [isWordPart, Bool.and_eq_true, Bool.not_eq_true', Option.isNone_iff_eq_none,
    bne_iff_ne] at hc
  obtain ⟨⟨hs, hn⟩, hq⟩ := hc
  have ht : ∀ c ∈ t, isWordPart c = true := fun c hc => hp c (List.mem_cons_of_mem _ hc)
  obtain ⟨htake, hdrop⟩ := Text.takeWhile_append_of_head hu t
  rw [List.takeWhile_eq_self_iff.2 ht] at htake
  rw [List.dropWhile_eq_nil_iff.2 ht, List.nil_append] at hdrop
  rw [List.cons_append, read, if_neg (by rw [hs]; decide), if_neg hq, hn]
  simp only [htake, hdrop, hw]
  cases read u <;> rfl

end Read

end Token

/-- A text that does not lengthen a number or a word in front of it. -/
def Stops (t : Text) : Prop := ∀ c, t.head? = some c → Token.isWordPart c = false

/-- A text is read as some tokens, whatever stops it. -/
def Writes (t : Text) (tokens : List Token) : Prop :=
  ∀ rest, Stops rest → Token.read (t ++ rest) = (Token.read rest).map (tokens ++ ·)

theorem stops_cons {c : Char} (h : Token.isWordPart c = false) (t : Text) : Stops (c :: t) := by
  intro c' hc
  obtain rfl := Option.some.inj hc
  exact h

namespace Writes

variable {t u : Text} {ts us : List Token}

theorem nil : Writes [] [] := fun rest _ => by simp

/-- Two texts in a row, the second of which does not lengthen the first. -/
theorem append {c : Char} (ht : Writes t ts) (hu : Writes (c :: u) us)
    (hc : Token.isWordPart c = false) : Writes (t ++ c :: u) (ts ++ us) := by
  intro rest hr
  have hs : Stops (c :: u ++ rest) := stops_cons hc (u ++ rest)
  rw [List.append_assoc, ht _ hs, hu rest hr, Option.map_map]
  congr 1
  funext tokens
  exact (List.append_assoc ts us tokens).symm

theorem punctuation {c : Char} {token : Token} (hc : Token.punctuation? c = some token)
    (hu : Writes u us) : Writes (c :: u) (token :: us) := by
  intro rest hr
  rw [List.cons_append, Token.read_punctuation hc, hu rest hr, Option.map_map]
  rfl

theorem spaces (ht : ∀ c ∈ t, Token.isSpace c = true) (hu : Writes u us) : Writes (t ++ u) us := by
  intro rest hr
  rw [List.append_assoc, Token.read_spaces ht, hu rest hr]

theorem string (t : Text) : Writes (stringText t) [.scalar (.text t)] := by
  intro rest _
  have h : stringText t ++ rest = '"' :: (t.flatMap escapedChar ++ '"' :: rest) := by
    simp [stringText]
  rw [h, Token.read_quoted (Token.quoted?_flatMap_escapedChar t rest)]
  rfl

theorem word {v : Value} (ht : t ≠ [] ∧ ∀ c ∈ t, Token.isWordPart c = true)
    (hw : Token.word? t = some v) : Writes t [.scalar v] := fun _ hr =>
  Token.read_word ht.1 ht.2 hw hr

theorem integer (n : Int) : Writes (toString n).toList [.scalar (.integer n)] :=
  .word (Token.isWordPart_integer n) (Token.word?_integer n)

theorem ofWord {w : String} {v : Value} (h : (w, v) ∈ Token.words) :
    Writes w.toList [.scalar v] :=
  .word (Token.isWordPart_of_mem_words h) (Token.word?_of_mem_words h)

end Writes

end StoredRoutine.Json
