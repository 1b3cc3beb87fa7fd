import StoredRoutine.Encoding
import StoredRoutine.Proofs.Outcome

/-!
The encodings as codes: a text and its bytes determine each other, in whichever encoding of those
that files are written in.
-/
namespace StoredRoutine

/-!
UTF-8 has one written form for each text: bytes are read as a text exactly if that text is written
as them. The four lengths of a sequence are settled first, each on its bytes as numbers, once for
reading and once for writing.
-/

namespace Utf8

theorem toNat_ofNat_char {n : Nat} (h : n.isValidChar) : (Char.ofNat n).toNat = n := by
  simp only [Char.ofNat, dif_pos h]
  rfl

theorem ofNat_eq_of_toNat {n : Nat} {b : UInt8} (h : n = b.toNat) : UInt8.ofNat n = b := by
  rw [h, UInt8.ofNat_toNat]

theorem isContinuation_iff {b : UInt8} :
    isContinuation b = true ↔ 0x80 ≤ b.toNat ∧ b.toNat ≤ 0xBF := by
  simp only [isContinuation, Bool.and_eq_true, decide_eq_true_eq, UInt8.le_iff_toNat_le,
    UInt8.reduceToNat]

/-- A second byte is a continuation byte that four first bytes narrow further. -/
theorem isSecond_iff {a b : UInt8} :
    isSecond a b = true ↔
      (0x80 ≤ b.toNat ∧ b.toNat ≤ 0xBF) ∧ (a.toNat = 0xE0 → 0xA0 ≤ b.toNat) ∧
        (a.toNat = 0xED → b.toNat ≤ 0x9F) ∧ (a.toNat = 0xF0 → 0x90 ≤ b.toNat) ∧
        (a.toNat = 0xF4 → b.toNat ≤ 0x8F) := by
  simp only [isSecond, Bool.and_eq_true, decide_eq_true_eq, UInt8.le_iff_toNat_le,
    apply_ite UInt8.toNat, ← UInt8.toNat_inj, UInt8.reduceToNat]
  grind

section Writing

theorem encodeChar_one {a : UInt8} (ha : a.toNat < 0x80) :
    encodeChar (Char.ofNat a.toNat) = [a] := by
  have hv : (Char.ofNat a.toNat).toNat = a.toNat := toNat_ofNat_char (.inl (by omega))
  simp only [encodeChar, hv, if_pos ha, UInt8.ofNat_toNat]

theorem encodeChar_two {a b : UInt8} {n : Nat} (hn : n = (a.toNat - 0xC0) * 0x40 + tail b)
    (ha : 0xC2 ≤ a.toNat) (ha' : a.toNat < 0xE0) (hb : isSecond a b = true) :
    encodeChar (Char.ofNat n) = [a, b] := by
  have hb := (isSecond_iff.1 hb).1
  unfold tail at hn
  have hv : (Char.ofNat n).toNat = n := toNat_ofNat_char (.inl (by omega))
  simp only [encodeChar, hv]
  rw [if_neg (by omega), if_pos (by omega), ofNat_eq_of_toNat (b := a) (by omega),
    ofNat_eq_of_toNat (b := b) (by omega)]

theorem encodeChar_three {a b c : UInt8} {n : Nat}
    (hn : n = (a.toNat - 0xE0) * 0x1000 + tail b * 0x40 + tail c)
    (ha : 0xE0 ≤ a.toNat) (ha' : a.toNat < 0xF0)
    (hb : isSecond a b = true) (hc : isContinuation c = true) :
    encodeChar (Char.ofNat n) = [a, b, c] := by
  obtain ⟨hb, h₁, h₂, -, -⟩ := isSecond_iff.1 hb
  have hc := isContinuation_iff.1 hc
  unfold tail at hn
  have hlow : 0x800 ≤ n := by omega
  have hgap : n < 0xD800 ∨ 0xDFFF < n := by omega
  clear h₁ h₂
  have hv : (Char.ofNat n).toNat = n := toNat_ofNat_char (by simp only [Nat.isValidChar]; omega)
  simp only [encodeChar, hv]
  rw [if_neg (by omega), if_neg (by omega), if_pos (by omega),
    ofNat_eq_of_toNat (b := a) (by omega), ofNat_eq_of_toNat (b := b) (by omega),
    ofNat_eq_of_toNat (b := c) (by omega)]

theorem encodeChar_four {a b c d : UInt8} {n : Nat}
    (hn : n = (a.toNat - 0xF0) * 0x40000 + tail b * 0x1000 + tail c * 0x40 + tail d)
    (ha : 0xF0 ≤ a.toNat) (ha' : a.toNat ≤ 0xF4)
    (hb : isSecond a b = true) (hc : isContinuation c = true) (hd : isContinuation d = true) :
    encodeChar (Char.ofNat n) = [a, b, c, d] := by
  obtain ⟨hb, -, -, h₁, h₂⟩ := isSecond_iff.1 hb
  have hc := isContinuation_iff.1 hc
  have hd := isContinuation_iff.1 hd
  unfold tail at hn
  have hlow : 0x10000 ≤ n := by omega
  have hhigh : n < 0x110000 := by omega
  clear h₁ h₂
  have hv : (Char.ofNat n).toNat = n := toNat_ofNat_char (.inr ⟨by omega, hhigh⟩)
  simp only [encodeChar, hv]
  rw [if_neg (by omega), if_neg (by omega), if_neg (by omega),
    ofNat_eq_of_toNat (b := a) (by omega), ofNat_eq_of_toNat (b := b) (by omega),
    ofNat_eq_of_toNat (b := c) (by omega), ofNat_eq_of_toNat (b := d) (by omega)]

/-- Whatever is read is written as the bytes it was read from. -/
theorem encode_of_decodeFrom {position : Nat} {bs : Bytes} {t : Text}
    (h : decodeFrom position bs = .ok t) : encode t = bs := by
  -- The failing branches are no successes; each of the others adds one character to the rest.
  fun_induction decodeFrom position bs generalizing t <;> try contradiction
  case case1 =>
    cases h
    rfl
  case case2 a rest ha ih =>
    obtain ⟨u, hu, rfl⟩ := Outcome.map_eq_ok_iff.1 h
    rw [UInt8.lt_iff_toNat_lt] at ha
    rw [encode, List.flatMap_cons, encodeChar_one ha, ← ih hu]
    rfl
  case case6 a h₁ h₂ b rest hb h₃ ih =>
    obtain ⟨u, hu, rfl⟩ := Outcome.map_eq_ok_iff.1 h
    simp only [Bool.or_eq_true, decide_eq_true_eq, not_or, UInt8.lt_iff_toNat_lt,
      UInt8.reduceToNat] at h₂ h₃
    rw [encode, List.flatMap_cons, encodeChar_two rfl (by omega) h₃ (by simpa using hb), ← ih hu]
    rfl
  case case9 a h₁ h₂ b hb h₃ c rest hc h₄ ih =>
    obtain ⟨u, hu, rfl⟩ := Outcome.map_eq_ok_iff.1 h
    simp only [UInt8.lt_iff_toNat_lt, UInt8.reduceToNat] at h₃ h₄
    rw [encode, List.flatMap_cons, encodeChar_three rfl (by omega) h₄ (by simpa using hb)
      (by simpa using hc), ← ih hu]
    rfl
  case case12 a h₁ h₂ b hb h₃ c hc h₄ d rest hd ih =>
    obtain ⟨u, hu, rfl⟩ := Outcome.map_eq_ok_iff.1 h
    simp only [Bool.or_eq_true, decide_eq_true_eq, not_or, UInt8.lt_iff_toNat_lt,
      UInt8.reduceToNat] at h₂ h₄
    rw [encode, List.flatMap_cons, encodeChar_four rfl (by omega) (by omega) (by simpa using hb)
      (by simpa using hc) (by simpa using hd), ← ih hu]
    rfl

end Writing

section Reading

variable {a b c d : UInt8} (position : Nat) (rest : Bytes)

theorem decodeFrom_one (ha : a.toNat < 0x80) :
    decodeFrom position (a :: rest) =
      (decodeFrom (position + 1) rest).map (Char.ofNat a.toNat :: ·) := by
  rw [decodeFrom.eq_def]
  simp only [UInt8.lt_iff_toNat_lt, UInt8.reduceToNat, if_pos ha]

theorem decodeFrom_two (ha : 0xC2 ≤ a.toNat) (ha' : a.toNat < 0xE0) (hb : isSecond a b = true) :
    decodeFrom position (a :: b :: rest) =
      (decodeFrom (position + 2) rest).map
        (Char.ofNat ((a.toNat - 0xC0) * 0x40 + tail b) :: ·) := by
  rw [decodeFrom.eq_def]
  simp only [UInt8.lt_iff_toNat_lt, UInt8.reduceToNat, hb]
  rw [if_neg (by omega), if_neg (by simp; omega), if_neg (by simp), if_pos ha']

theorem decodeFrom_three (ha : 0xE0 ≤ a.toNat) (ha' : a.toNat < 0xF0) (hb : isSecond a b = true)
    (hc : isContinuation c = true) :
    decodeFrom position (a :: b :: c :: rest) =
      (decodeFrom (position + 3) rest).map
        (Char.ofNat ((a.toNat - 0xE0) * 0x1000 + tail b * 0x40 + tail c) :: ·) := by
  rw [decodeFrom.eq_def]
  simp only [UInt8.lt_iff_toNat_lt, UInt8.reduceToNat, hb, hc]
  rw [if_neg (by omega), if_neg (by simp; omega), if_neg (by simp), if_neg (by omega),
    if_neg (by simp), if_pos ha']

theorem decodeFrom_four (ha : 0xF0 ≤ a.toNat) (ha' : a.toNat ≤ 0xF4) (hb : isSecond a b = true)
    (hc : isContinuation c = true) (hd : isContinuation d = true) :
    decodeFrom position (a :: b :: c :: d :: rest) =
      (decodeFrom (position + 4) rest).map (Char.ofNat
        ((a.toNat - 0xF0) * 0x40000 + tail b * 0x1000 + tail c * 0x40 + tail d) :: ·) := by
  rw [decodeFrom.eq_def]
  simp only [UInt8.lt_iff_toNat_lt, UInt8.reduceToNat, hb, hc, hd]
  rw [if_neg (by omega), if_neg (by simp; omega), if_neg (by simp), if_neg (by omega),
    if_neg (by simp), if_neg (by omega), if_neg (by simp)]

end Reading

/-- A byte made from a small number is that number. -/
theorem toNat_ofNat_byte {n : Nat} (h : n < 0x100) : (UInt8.ofNat n).toNat = n :=
  UInt8.toNat_ofNat_of_lt' h

/-- What is written for a character is read as that character, whatever follows. -/
theorem decodeFrom_encodeChar (position : Nat) (c : Char) (rest : Bytes) :
    decodeFrom position (encodeChar c ++ rest) =
      (decodeFrom (position + (encodeChar c).length) rest).map (c :: ·) := by
  have hv : c.toNat.isValidChar := c.valid
  have hc := Char.ofNat_toNat c
  unfold encodeChar
  generalize c.toNat = n at hv hc
  subst hc
  simp only [Nat.isValidChar] at hv
  by_cases h₁ : n < 0x80
  · have ha := toNat_ofNat_byte (n := n) (by omega)
    rw [if_pos h₁]
    have h := decodeFrom_one position rest (by omega : (UInt8.ofNat n).toNat < 0x80)
    rwa [ha] at h
  rw [if_neg h₁]
  by_cases h₂ : n < 0x800
  · have ha := toNat_ofNat_byte (n := 0xC0 + n / 0x40) (by omega)
    have hb := toNat_ofNat_byte (n := 0x80 + n % 0x40) (by omega)
    rw [if_pos h₂]
    generalize UInt8.ofNat (0xC0 + n / 0x40) = a at ha
    generalize UInt8.ofNat (0x80 + n % 0x40) = b at hb
    have hn : (a.toNat - 0xC0) * 0x40 + tail b = n := by unfold tail; omega
    have h := decodeFrom_two position rest (a := a) (b := b) (by omega) (by omega)
      (isSecond_iff.2 (by omega))
    rwa [hn] at h
  rw [if_neg h₂]
  by_cases h₃ : n < 0x10000
  · have ha := toNat_ofNat_byte (n := 0xE0 + n / 0x1000) (by omega)
    have hb := toNat_ofNat_byte (n := 0x80 + n / 0x40 % 0x40) (by omega)
    have hc := toNat_ofNat_byte (n := 0x80 + n % 0x40) (by omega)
    rw [if_pos h₃]
    generalize UInt8.ofNat (0xE0 + n / 0x1000) = a at ha
    generalize UInt8.ofNat (0x80 + n / 0x40 % 0x40) = b at hb
    generalize UInt8.ofNat (0x80 + n % 0x40) = c at hc
    have hn : (a.toNat - 0xE0) * 0x1000 + tail b * 0x40 + tail c = n := by unfold tail; omega
    have h := decodeFrom_three position rest (a := a) (b := b) (c := c) (by omega) (by omega)
      (isSecond_iff.2 (by omega)) (isContinuation_iff.2 (by omega))
    rwa [hn] at h
  · have ha := toNat_ofNat_byte (n := 0xF0 + n / 0x40000) (by omega)
    have hb := toNat_ofNat_byte (n := 0x80 + n / 0x1000 % 0x40) (by omega)
    have hc := toNat_ofNat_byte (n := 0x80 + n / 0x40 % 0x40) (by omega)
    have hd := toNat_ofNat_byte (n := 0x80 + n % 0x40) (by omega)
    rw [if_neg h₃]
    generalize UInt8.ofNat (0xF0 + n / 0x40000) = a at ha
    generalize UInt8.ofNat (0x80 + n / 0x1000 % 0x40) = b at hb
    generalize UInt8.ofNat (0x80 + n / 0x40 % 0x40) = c at hc
    generalize UInt8.ofNat (0x80 + n % 0x40) = d at hd
    have hn : (a.toNat - 0xF0) * 0x40000 + tail b * 0x1000 + tail c * 0x40 + tail d = n := by
      unfold tail
      omega
    have h := decodeFrom_four position rest (a := a) (b := b) (c := c) (d := d) (by omega)
      (by omega) (isSecond_iff.2 (by omega)) (isContinuation_iff.2 (by omega))
      (isContinuation_iff.2 (by omega))
    rwa [hn] at h

theorem decodeFrom_encode (position : Nat) (t : Text) :
    decodeFrom position (encode t) = .ok t := by
  induction t generalizing position with
  | nil => rw [encode, List.flatMap_nil, decodeFrom]
  | cons c t ih =>
    rw [encode, List.flatMap_cons, decodeFrom_encodeChar]
    exact congrArg (Except.map (c :: ·)) (ih _)

theorem decode_eq_ok_iff {bs : Bytes} {t : Text} : decode bs = .ok t ↔ bs = encode t := by
  constructor
  · intro h
    exact (encode_of_decodeFrom h).symm
  · rintro rfl
    exact decodeFrom_encode 0 t

theorem encode_injective : Function.Injective encode := by
  intro t u h
  have ht : decode (encode t) = .ok t := decode_eq_ok_iff.2 rfl
  rw [decode_eq_ok_iff.2 h] at ht
  exact (Except.ok.inj ht).symm

end Utf8

namespace Encoding

theorem named_name (e : Encoding) : named e.name = .ok e := by
  cases e <;> cbv

theorem name_contains_nul (e : Encoding) : e.name.contains '\x00' = false := by
  cases e <;> cbv

section SingleByte

variable {n : Nat} {t : Text} {bs : Bytes}

theorem toNat_ofNat_char_byte (b : UInt8) : (Char.ofNat b.toNat).toNat = b.toNat :=
  Utf8.toNat_ofNat_char (Or.inl (by have := b.toNat_lt; omega))

/-- Within the range of a byte, characters and bytes with the same number stand for each other. -/
theorem bytes_of_chars_iff (hn : n ≤ 256) :
    (∀ c ∈ t, c.toNat < n) ∧ t.map (fun c => .ofNat c.toNat) = bs ↔
      (∀ b ∈ bs, b.toNat < n) ∧ bs.map (fun b => Char.ofNat b.toNat) = t := by
  constructor
  · rintro ⟨ht, rfl⟩
    have hback : ∀ c ∈ t, (UInt8.ofNat c.toNat).toNat = c.toNat := fun c hc =>
      Utf8.toNat_ofNat_byte ((ht c hc).trans_le hn)
    constructor
    · intro b hb
      obtain ⟨c, hc, rfl⟩ := List.mem_map.1 hb
      rw [hback c hc]
      exact ht c hc
    · rw [List.map_map]
      refine (List.map_congr_left fun c hc => ?_).trans (List.map_id t)
      rw [Function.comp_apply, hback c hc, Char.ofNat_toNat, id]
  · rintro ⟨hb, rfl⟩
    constructor
    · intro c hc
      obtain ⟨b, hb', rfl⟩ := List.mem_map.1 hc
      rw [toNat_ofNat_char_byte]
      exact hb b hb'
    · rw [List.map_map]
      refine (List.map_congr_left fun b _ => ?_).trans (List.map_id bs)
      rw [Function.comp_apply, toNat_ofNat_char_byte, id, UInt8.ofNat_toNat]

theorem encode_eq_ok_iff_of_range {e : Encoding} (he : e ≠ utf8) :
    e.encode t = .ok bs ↔
      (∀ c ∈ t, c.toNat < e.range) ∧ t.map (fun c => .ofNat c.toNat) = bs := by
  have hencode : e.encode t =
      if t.all (·.toNat < e.range) then .ok (t.map fun c => .ofNat c.toNat)
      else .error ⟨e, (t.takeWhile (·.toNat < e.range)).length,
        (t.dropWhile (·.toNat < e.range)).takeWhile fun c => ! decide (c.toNat < e.range)⟩ := by
    cases e
    · exact absurd rfl he
    · rfl
    · rfl
  rw [hencode]
  by_cases h : t.all (·.toNat < e.range)
  · have hall : ∀ c ∈ t, c.toNat < e.range := by simpa using h
    rw [if_pos h, Except.ok.injEq, and_iff_right hall]
  · have hall : ¬ ∀ c ∈ t, c.toNat < e.range := by simpa using h
    simp [h, hall]

theorem decode_eq_ok_iff_of_range {e : Encoding} (he : e ≠ utf8) :
    e.decode bs = .ok t ↔
      (∀ b ∈ bs, b.toNat < e.range) ∧ bs.map (fun b => Char.ofNat b.toNat) = t := by
  have hall : bs.dropWhile (·.toNat < e.range) = [] ↔ ∀ b ∈ bs, b.toNat < e.range := by
    simp [List.dropWhile_eq_nil_iff]
  rw [← hall]
  cases e with
  | utf8 => exact absurd rfl he
  | latin1 =>
    simp only [decode]
    cases bs.dropWhile (·.toNat < latin1.range) <;> simp
  | ascii =>
    simp only [decode]
    cases bs.dropWhile (·.toNat < ascii.range) <;> simp

end SingleByte

/-- A text is written as some bytes exactly if these are read as that text. -/
theorem encode_eq_ok_iff {e : Encoding} {t : Text} {bs : Bytes} :
    e.encode t = .ok bs ↔ e.decode bs = .ok t := by
  have hsingle : ∀ e : Encoding, e ≠ utf8 → e.range ≤ 256 →
      (e.encode t = .ok bs ↔ e.decode bs = .ok t) := fun e he hr => by
    rw [encode_eq_ok_iff_of_range he, decode_eq_ok_iff_of_range he, bytes_of_chars_iff hr]
  cases e with
  | utf8 =>
    rw [encode, decode, Outcome.mapError_eq_ok_iff, Utf8.decode_eq_ok_iff, Except.ok.injEq, eq_comm]
  | latin1 => exact hsingle latin1 (by decide) (by decide)
  | ascii => exact hsingle ascii (by decide) (by decide)

end Encoding

end StoredRoutine
