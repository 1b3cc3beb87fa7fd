import StoredRoutine.Literal
import StoredRoutine.Proofs.JsonTokens
import StoredRoutine.Scratch.Sql.Token

/-!
Reading literals back. A string literal reads as the text up to the first quote that is not doubled, a
binary literal as the bytes that its pairs of digits write, and a whole number digit by digit. Each
literal reads as the value that it was made from, whatever comes after it, so no value can end its
literal early and no two values share one.
-/
namespace StoredRoutine

namespace Text

section Hex

theorem hexDigit?_digitChar {n : Nat} (h : n < 16) : hexDigit? (Nat.digitChar n) = some n := by
  interval_cases n <;> rfl

/-- A byte is written as its two digits. -/
theorem hex_two {n : Nat} (h : n < 256) :
    hex 2 n = [Nat.digitChar (n / 16), Nat.digitChar (n % 16)] := by
  rw [hex, Nat.toDigits_eq_if (by decide)]
  split
  · next hlt =>
    rw [Nat.div_eq_of_lt hlt, Nat.mod_eq_of_lt hlt]
    rfl
  · rw [Nat.toDigits_of_lt_base (by omega)]
    rfl

theorem bytesOfHex?_hexBytes (bs : Bytes) : bytesOfHex? (hexBytes bs) = some bs := by
  induction bs with
  | nil => rfl
  | cons b bs ih =>
    have hb := b.toNat_lt
    have hvalue : b.toNat / 16 * 16 + b.toNat % 16 = b.toNat := by omega
    rw [hexBytes, List.flatMap_cons, ← hexBytes, hex_two hb]
    simp only [List.cons_append, List.nil_append, bytesOfHex?,
      hexDigit?_digitChar (show b.toNat / 16 < 16 by omega),
      hexDigit?_digitChar (show b.toNat % 16 < 16 by omega), ih]
    exact congrArg (fun b => some (b :: bs)) (by rw [hvalue, UInt8.ofNat_toNat])

theorem length_hexBytes (bs : Bytes) : (hexBytes bs).length = 2 * bs.length := by
  induction bs with
  | nil => rfl
  | cons b bs ih =>
    rw [hexBytes, List.flatMap_cons, ← hexBytes, List.length_append, ih, hex_two b.toNat_lt,
      List.length_cons]
    simp only [List.length_cons, List.length_nil]
    omega

theorem isSome_hexDigit?_of_mem_hexBytes {bs : Bytes} {c : Char} (h : c ∈ hexBytes bs) :
    (hexDigit? c).isSome = true := by
  obtain ⟨b, -, hc⟩ := List.mem_flatMap.1 h
  have hb := b.toNat_lt
  rw [hex_two hb, List.mem_cons, List.mem_singleton] at hc
  rcases hc with rfl | rfl
  · rw [hexDigit?_digitChar (by omega), Option.isSome_some]
  · rw [hexDigit?_digitChar (by omega), Option.isSome_some]

/-- No quote is among the digits of bytes. -/
theorem ne_quote_of_mem_hexBytes {bs : Bytes} {c : Char} (h : c ∈ hexBytes bs) : c ≠ '\'' := by
  rintro rfl
  cases isSome_hexDigit?_of_mem_hexBytes h

end Hex

end Text

namespace Literal

/-- The text up to the first quote that is not doubled, with one quote for every doubled one, and what
follows that quote. -/
def untilQuote? : Text → Option (Text × Text)
  | [] => none
  | '\'' :: '\'' :: t => (untilQuote? t).map fun (v, rest) => ('\'' :: v, rest)
  | c :: t =>
    if c = '\'' then some ([], t) else (untilQuote? t).map fun (v, rest) => (c :: v, rest)

/-- The text that a string literal stands for, and what follows the literal. -/
def readString? : Text → Option (Text × Text)
  | '\'' :: t => untilQuote? t
  | _ => none

/-- The bytes that a binary literal stands for, and what follows the literal. -/
def readBinary? : Text → Option (Bytes × Text)
  | 'X' :: '\'' :: t =>
    match t.dropWhile (· ≠ '\'') with
    | [] => none
    | _ :: rest => (Text.bytesOfHex? (t.takeWhile (· ≠ '\''))).map (·, rest)
  | _ => none

/-- The number that digits stand for, and what follows them. -/
def readDigits? (t : Text) : Option (Nat × Text) :=
  let digits := t.takeWhile isAsciiDigit
  if digits.isEmpty then none else some (Nat.ofDigitChars 10 digits 0, t.dropWhile isAsciiDigit)

/-- The whole number that is written with or without a minus sign, and what follows it. -/
def readInteger? : Text → Option (Int × Text)
  | '-' :: t => (readDigits? t).map fun (n, rest) => (-(n : Int), rest)
  | t => (readDigits? t).map fun (n, rest) => ((n : Int), rest)

section Readings

theorem untilQuote?_double {rest : Text} (h : rest.head? ≠ some '\'') (v : Text) :
    untilQuote? (v.double '\'' ++ '\'' :: rest) = some (v, rest) := by
  induction v with
  | nil =>
    cases rest with
    | nil => rfl
    | cons c rest =>
      have hc : c ≠ '\'' := fun hc => h (congrArg some hc)
      simp [Text.double, untilQuote?, hc]
  | cons c v ih =>
    rw [Text.double, List.flatMap_cons, ← Text.double]
    by_cases hc : c = '\''
    · subst hc
      simp only [if_true, List.cons_append, List.nil_append, untilQuote?, ih, Option.map_some]
    · simp only [if_neg hc, List.cons_append, List.nil_append]
      rw [untilQuote?, if_neg hc, ih, Option.map_some]
      rintro t rfl
      exact absurd rfl hc

theorem readBinary?_hexBytes (bs : Bytes) (rest : Text) :
    readBinary? ('X' :: '\'' :: Text.hexBytes bs ++ '\'' :: rest) = some (bs, rest) := by
  have hend : ∀ c, ('\'' :: rest).head? = some c → (decide (c ≠ '\'')) = false := fun c hc => by
    rw [← Option.some.inj hc]
    rfl
  have hall : ∀ c ∈ Text.hexBytes bs, decide (c ≠ '\'') = true := fun c hc =>
    decide_eq_true (Text.ne_quote_of_mem_hexBytes hc)
  obtain ⟨ht, hd⟩ := Text.takeWhile_append_of_head hend (Text.hexBytes bs)
  rw [List.takeWhile_eq_self_iff.2 hall] at ht
  rw [List.dropWhile_eq_nil_iff.2 hall, List.nil_append] at hd
  simp only [List.cons_append, readBinary?, ht, hd, Text.bytesOfHex?_hexBytes, Option.map_some]

theorem readDigits?_toDigits (n : Nat) {rest : Text}
    (h : ∀ c, rest.head? = some c → isAsciiDigit c = false) :
    readDigits? (Nat.toDigits 10 n ++ rest) = some (n, rest) := by
  have hall : ∀ c ∈ Nat.toDigits 10 n, isAsciiDigit c = true := fun c hc =>
    Json.Token.isAsciiDigit_of_mem_toDigits hc
  obtain ⟨ht, hd⟩ := Text.takeWhile_append_of_head h (Nat.toDigits 10 n)
  rw [List.takeWhile_eq_self_iff.2 hall] at ht
  rw [List.dropWhile_eq_nil_iff.2 hall, List.nil_append] at hd
  have hne : ¬ (Nat.toDigits 10 n).isEmpty = true := by simp [Nat.toDigits_ne_nil]
  rw [readDigits?, ht, hd, if_neg hne, Nat.ofDigitChars_ten_toDigits]

theorem readInteger?_integer (n : Int) {rest : Text}
    (h : ∀ c, rest.head? = some c → isAsciiDigit c = false) :
    readInteger? (integer n ++ rest) = some (n, rest) := by
  cases n with
  | ofNat n =>
    have hminus : ∀ t, Nat.toDigits 10 n ++ rest ≠ '-' :: t := by
      obtain ⟨c, cs, hcs⟩ := List.exists_cons_of_ne_nil (Nat.toDigits_ne_nil (n := n) (b := 10))
      rintro t ht
      have hdigit : isAsciiDigit c = true :=
        Json.Token.isAsciiDigit_of_mem_toDigits (by rw [hcs]; exact List.mem_cons_self)
      rw [hcs] at ht
      rw [(List.cons.inj ht).1] at hdigit
      cases hdigit
    rw [integer, Json.Token.toList_toString_ofNat, readInteger?, readDigits?_toDigits n h]
    · rfl
    · exact hminus
  | negSucc n =>
    rw [integer, Json.Token.toList_toString_negSucc, List.cons_append, readInteger?,
      readDigits?_toDigits (n + 1) h]
    rfl

end Readings

section Tokens

open Scratch.Sql (binaryShape closing? shape skip)

theorem closing?_double {rest : Text} (h : rest.head? ≠ some '\'') (v : Text) :
    closing? '\'' (v.double '\'' ++ '\'' :: rest) = some ((v.double '\'').length + 1) := by
  induction v with
  | nil =>
    cases rest with
    | nil => rfl
    | cons c rest =>
      have hc : c ≠ '\'' := fun hc => h (congrArg some hc)
      simp [Text.double, closing?, hc]
  | cons c v ih =>
    rw [Text.double, List.flatMap_cons, ← Text.double]
    by_cases hc : c = '\''
    · subst hc
      simp [closing?, ih]
    · obtain ⟨d, u, hu⟩ := List.exists_cons_of_ne_nil
        (List.append_ne_nil_of_right_ne_nil (Text.double '\'' v) (List.cons_ne_nil '\'' rest))
      rw [hu] at ih
      simp [hc, hu, closing?, ih]

/-- A string literal is one token of the SQL text that it stands in. -/
theorem first?_string {v rest : Text} (hv : v.allBlank = false) (h : rest.head? ≠ some '\'') :
    Scratch.Sql.Token.first? (string v ++ rest) = some ⟨.string, string v, rest⟩ := by
  have hstring : string v = '\'' :: (v.double '\'' ++ ['\'']) := by
    rw [string, hv]
    rfl
  have hskip : ∀ t : Text, skip true .open ('\'' :: t) = '\'' :: t := fun t => by
    simp [skip, Scratch.Sql.isSpace]
  have hshape : shape ('\'' :: (v.double '\'' ++ '\'' :: rest)) =
      (.string, (v.double '\'').length + 1 + 1) := by
    rw [shape, if_pos rfl, Scratch.Sql.quoted, closing?_double h]
  rw [hstring, Scratch.Sql.Token.first?, List.cons_append, hskip]
  simp [hshape, List.take_append]

theorem binaryShape_hexBytes (bs : Bytes) (rest : Text) :
    binaryShape ('\'' :: (Text.hexBytes bs ++ '\'' :: rest)) =
      (.binary, (Text.hexBytes bs).length + 3) := by
  have hdigits : ('\'' :: rest).takeWhile (fun c => (Text.hexDigit? c).isSome) = [] := rfl
  have hwhole : ('\'' :: rest).takeWhile (· ≠ '\'') = [] := rfl
  have heven : (Text.hexBytes bs).length % 2 = 0 := by
    rw [Text.length_hexBytes, Nat.mul_mod_right]
  have hlt : (Text.hexBytes bs).length + 1 <
      ('\'' :: (Text.hexBytes bs ++ '\'' :: rest)).length := by
    simp
  simp only [binaryShape, List.drop_succ_cons, List.drop_zero]
  rw [List.takeWhile_append_of_pos fun c hc => Text.isSome_hexDigit?_of_mem_hexBytes hc, hdigits,
    List.takeWhile_append_of_pos fun c hc => decide_eq_true (Text.ne_quote_of_mem_hexBytes hc),
    hwhole, List.append_nil, decide_eq_true hlt, heven]
  simp

/-- A binary literal is one token of the SQL text that it stands in. -/
theorem first?_binary {bs : Bytes} (hb : bs ≠ []) (rest : Text) :
    Scratch.Sql.Token.first? (binary bs ++ rest) = some ⟨.binary, binary bs, rest⟩ := by
  have hbinary : binary bs = 'X' :: '\'' :: (Text.hexBytes bs ++ ['\'']) := by
    rw [binary, if_neg (by simpa using hb)]
    rfl
  have hskip : ∀ t : Text, skip true .open ('X' :: t) = 'X' :: t := fun t => by
    simp [skip, Scratch.Sql.isSpace]
  have hshape : shape ('X' :: '\'' :: (Text.hexBytes bs ++ '\'' :: rest)) =
      (.binary, (Text.hexBytes bs).length + 3) := by
    rw [shape, ← binaryShape_hexBytes bs rest]
    rfl
  rw [hbinary, Scratch.Sql.Token.first?, List.cons_append, hskip]
  simp [hshape, List.take_append]

end Tokens

section Quote

theorem quote_string (v : Text) : quote "string" (.string v) = .ok (string v) := rfl

theorem quote_binary (bs : Bytes) : quote "binary" (.scalar (.binary bs)) = .ok (binary bs) := rfl

theorem quote_integer (n : Int) : quote "int" (.number n) = ofInteger n := by
  have hkind : Kind.ofWord? "int" = some .integer := rfl
  simp only [quote, hkind, Json.number, ofJson, ofValue, toInteger, Except.bind]

theorem quote_of_isWritable {n : Int} (h : isWritable n = true) :
    quote "int" (.number n) = .ok (integer n) := by
  rw [quote_integer, ofInteger, if_pos h]

theorem isWritable_of_quote {n : Int} {l : Text} (h : quote "int" (.number n) = .ok l) :
    isWritable n = true ∧ integer n = l := by
  rw [quote_integer, ofInteger] at h
  split at h
  · next hn => exact ⟨hn, Except.ok.inj h⟩
  · cases h

theorem isWritable_iff {n : Int} : isWritable n = true ↔ n.natAbs < 10 ^ Decimal.maxDigits := by
  have hpow : ∀ k, Binary64.tenPow k = 10 ^ k := fun _ => rfl
  rw [isWritable, decide_eq_true_iff, hpow]

theorem string_eq_nullText_iff {v : Text} : string v = nullText ↔ v.allBlank = true := by
  rw [string]
  split
  · next h => exact iff_of_true rfl h
  · next h => exact iff_of_false (fun he => by cases he) h

theorem readString?_string {v rest : Text} (hv : v.allBlank = false) (h : rest.head? ≠ some '\'') :
    readString? (string v ++ rest) = some (v, rest) := by
  have hstring : string v ++ rest = '\'' :: (v.double '\'' ++ '\'' :: rest) := by
    rw [string, hv]
    simp
  rw [hstring]
  exact untilQuote?_double h v

theorem readBinary?_binary {bs : Bytes} (hb : bs ≠ []) (rest : Text) :
    readBinary? (binary bs ++ rest) = some (bs, rest) := by
  have hbinary : binary bs ++ rest = 'X' :: '\'' :: Text.hexBytes bs ++ '\'' :: rest := by
    rw [binary, if_neg (by simpa using hb)]
    simp
  rw [hbinary]
  exact readBinary?_hexBytes bs rest

/-- Literals that read as different values are different. -/
theorem eq_of_read {α : Type} {read? : Text → Option (α × Text)} {l l' : Text} {a b : α}
    (ha : read? (l ++ []) = some (a, [])) (hb : read? (l' ++ []) = some (b, [])) (h : l = l') :
    a = b := by
  rw [h, hb] at ha
  exact (Prod.mk.inj (Option.some.inj ha)).1.symm

/-- Literals read back as the values that they were made from, whatever follows them. Blank text alone
gives null; any other text gives one string literal, binary data with a byte in it one binary literal,
and a whole number its digits. So none of these values shares its literal with another one. A whole
number has a literal if it has no more digits than are written. -/
theorem quote_reads_back :
    (∀ v : Text, ∃ l, quote "string" (.string v) = .ok l ∧
      (l = nullText ↔ v.allBlank = true) ∧
      (v.allBlank = false → ∀ rest : Text, rest.head? ≠ some '\'' →
        readString? (l ++ rest) = some (v, rest) ∧
          Scratch.Sql.Token.first? (l ++ rest) = some ⟨.string, l, rest⟩)) ∧
    (∀ bs : Bytes, bs ≠ [] → ∃ l, quote "binary" (.scalar (.binary bs)) = .ok l ∧
      ∀ rest : Text, readBinary? (l ++ rest) = some (bs, rest) ∧
        Scratch.Sql.Token.first? (l ++ rest) = some ⟨.binary, l, rest⟩) ∧
    (∀ n : Int, n.natAbs < 10 ^ Decimal.maxDigits → ∃ l, quote "int" (.number n) = .ok l ∧
      ∀ rest : Text, (∀ c, rest.head? = some c → isAsciiDigit c = false) →
        readInteger? (l ++ rest) = some (n, rest)) ∧
    (∀ n : Int, 10 ^ Decimal.maxDigits ≤ n.natAbs → quote "int" (.number n) = .error .tooLong) ∧
    (∀ v w : Text, v.allBlank = false → w.allBlank = false →
      quote "string" (.string v) = quote "string" (.string w) → v = w) ∧
    (∀ bs cs : Bytes, bs ≠ [] → cs ≠ [] →
      quote "binary" (.scalar (.binary bs)) = quote "binary" (.scalar (.binary cs)) → bs = cs) ∧
    ∀ (m n : Int) (l : Text), quote "int" (.number m) = .ok l → quote "int" (.number n) = .ok l →
      m = n := by
  have hnil : ([] : Text).head? ≠ some '\'' := (Option.some_ne_none _).symm
  have hend : ∀ c, ([] : Text).head? = some c → isAsciiDigit c = false := fun c hc => by cases hc
  refine ⟨fun v => ?_, fun bs hb => ?_, fun n hn => ?_, fun n hn => ?_, fun v w hv hw h => ?_,
    fun bs cs hb hc h => ?_, fun m n l hm hn => ?_⟩
  · exact ⟨string v, quote_string v, string_eq_nullText_iff, fun hv rest hrest =>
      ⟨readString?_string hv hrest, first?_string hv hrest⟩⟩
  · exact ⟨binary bs, quote_binary bs, fun rest => ⟨readBinary?_binary hb rest, first?_binary hb rest⟩⟩
  · exact ⟨integer n, quote_of_isWritable (isWritable_iff.2 hn), fun rest hrest =>
      readInteger?_integer n hrest⟩
  · rw [quote_integer, ofInteger, if_neg fun h => Nat.not_lt.2 hn (isWritable_iff.1 h)]
  · exact eq_of_read (readString?_string hv hnil) (readString?_string hw hnil) (Except.ok.inj h)
  · exact eq_of_read (readBinary?_binary hb []) (readBinary?_binary hc []) (Except.ok.inj h)
  · obtain ⟨-, rfl⟩ := isWritable_of_quote hm
    obtain ⟨-, hl⟩ := isWritable_of_quote hn
    exact eq_of_read (readInteger?_integer m hend) (readInteger?_integer n hend) hl.symm

/-- The smallest whole number with too many digits has no literal. -/
theorem quote_refuses_long :
    ¬ ∀ n : Int, ∃ l, quote "int" (.number n) = .ok l ∧ readInteger? l = some (n, []) := by
  intro h
  obtain ⟨l, hl, -⟩ := h (10 ^ Decimal.maxDigits : Nat)
  have hsmall := isWritable_iff.1 (isWritable_of_quote hl).1
  rw [Int.natAbs_natCast] at hsmall
  exact Nat.lt_irrefl _ hsmall

/-- Quotes at either end of a value, and a percent sign and a backslash, which mean nothing. -/
example :
    readString? "'''a%b\\''' || c".toList = some ("'a%b\\'".toList, " || c".toList) ∧
      string "'a%b\\'".toList = "'''a%b\\'''".toList := by
  decide

end Quote

end Literal

end StoredRoutine
