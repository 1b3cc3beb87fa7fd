import StoredRoutine.NamePolicy
import StoredRoutine.Proofs.BatchAccounting

/-!
Names of words joined by underscores, put in camel case. Each word after the first begins with a
capital then, and no other character is one, so the name can be read back from its capitals: two such
names never give one method name, and sources with such names clash only where a routine name is
repeated.
-/
namespace StoredRoutine

namespace CamelCase

section Letters

variable {c : Char}

/-- What holds of every small letter of ASCII, by their codes. -/
theorem of_isAsciiLower {P : Char → Prop}
    (h : ∀ n ∈ List.range' 'a'.toNat 26, P (Char.ofNat n)) (hc : isAsciiLower c = true) : P c := by
  have hcode : 'a'.toNat ≤ c.toNat ∧ c.toNat < 'a'.toNat + 26 := by
    simp [isAsciiLower, Char.le_def, UInt32.le_iff_toNat_le] at hc ⊢
    omega
  have hletter := h c.toNat (List.mem_range'_1.2 hcode)
  rwa [Char.ofNat_toNat] at hletter

theorem upperChar_of_isAsciiLower (h : isAsciiLower c = true) : Text.upperChar c = [c.toUpper] :=
  of_isAsciiLower (P := fun c => Text.upperChar c = [c.toUpper]) (by decide +kernel) h

theorem lowerChar_of_isAsciiLower (h : isAsciiLower c = true) : Text.lowerChar c = [c] :=
  of_isAsciiLower (P := fun c => Text.lowerChar c = [c]) (by decide +kernel) h

theorem lowerChar_toUpper (h : isAsciiLower c = true) : Text.lowerChar c.toUpper = [c] :=
  of_isAsciiLower (P := fun c => Text.lowerChar c.toUpper = [c]) (by decide +kernel) h

theorem isAsciiUpper_toUpper (h : isAsciiLower c = true) : isAsciiUpper c.toUpper = true :=
  of_isAsciiLower (P := fun c => isAsciiUpper c.toUpper = true) (by decide +kernel) h

end Letters

/-- A small letter or a digit. -/
def isWordPart (c : Char) : Bool := isAsciiLower c || isAsciiDigit c

/-- A small letter, and then small letters and digits. -/
def IsWord (word : Text) : Prop :=
  ∃ c t, word = c :: t ∧ isAsciiLower c = true ∧ ∀ d ∈ t, isWordPart d = true

/-- Words joined by single underscores. -/
def IsSnakeCase (name : Text) : Prop :=
  ∃ words : List Text, words ≠ [] ∧ (∀ word ∈ words, IsWord word) ∧ name = ['_'].intercalate words

theorem isWord_cons_iff {c : Char} {t : Text} :
    IsWord (c :: t) ↔ isAsciiLower c = true ∧ t.all isWordPart = true := by
  rw [List.all_eq_true]
  constructor
  · rintro ⟨_, _, ⟨⟩, h⟩
    exact h
  · exact fun h => ⟨c, t, rfl, h⟩

instance : DecidablePred IsWord
  | [] => .isFalse fun ⟨_, _, h, _⟩ => List.cons_ne_nil _ _ h.symm
  | _ :: _ => decidable_of_iff' _ isWord_cons_iff

/-- A small letter, and then letters and digits. -/
def IsCamelCase (name : Text) : Prop :=
  ∃ c t, name = c :: t ∧ isAsciiLower c = true ∧
    ∀ d ∈ t, (isAsciiLetter d || isAsciiDigit d) = true

/-- A name with an underscore before each capital, which is put in lower case. -/
def separated (name : Text) : Text :=
  name.flatMap fun c => if isAsciiUpper c then '_' :: Text.lowerChar c else [c]

/-- A word with its first letter as a capital. -/
def capitalized : Text → Text
  | [] => []
  | c :: t => c.toUpper :: t

section Words

variable {c : Char} {word : Text} {words : List Text}

theorem ne_underscore_of_isWordPart (h : isWordPart c = true) : c ≠ '_' := by
  rintro rfl
  exact absurd h (by decide)

theorem isWordPart_of_isAsciiLower (h : isAsciiLower c = true) : isWordPart c = true := by
  rw [isWordPart, h, Bool.true_or]

theorem not_isAsciiUpper_of_isWordPart (h : isWordPart c = true) : isAsciiUpper c = false := by
  simp [isWordPart, isAsciiLower, isAsciiDigit, isAsciiUpper, Char.le_def,
    UInt32.le_iff_toNat_le] at h ⊢
  omega

theorem IsWord.isWordPart (h : IsWord word) : ∀ c ∈ word, isWordPart c = true := by
  obtain ⟨c, t, rfl, hc, ht⟩ := h
  exact List.forall_mem_cons.2 ⟨isWordPart_of_isAsciiLower hc, ht⟩

theorem joined_append (h : ∀ c ∈ word, isWordPart c = true) (t : Text) :
    joined (word ++ t) = word ++ joined t := by
  induction word with
  | nil => rfl
  | cons c word ih =>
    obtain ⟨hc, hword⟩ := List.forall_mem_cons.1 h
    rw [List.cons_append, joined, if_neg (ne_underscore_of_isWordPart hc), ih hword,
      List.cons_append]

theorem joined_underscore (h : IsWord word) (t : Text) :
    joined ('_' :: (word ++ t)) = capitalized word ++ joined t := by
  obtain ⟨c, rest, rfl, hc, hrest⟩ := h
  have hne : (c == '_') = false :=
    beq_false_of_ne (ne_underscore_of_isWordPart (isWordPart_of_isAsciiLower hc))
  have hdrop : List.dropWhile (· == '_') (c :: (rest ++ t)) = c :: (rest ++ t) :=
    List.dropWhile_cons_of_neg (by simp [hne])
  rw [List.cons_append, joined, if_pos rfl]
  split
  · next d more hmore =>
    obtain ⟨rfl, rfl⟩ := List.cons.inj (hmore.symm.trans hdrop)
    rw [if_pos (by simp [isAsciiLetter, hc]), upperChar_of_isAsciiLower hc, joined_append hrest]
    rfl
  · next hnil => exact absurd (hnil.symm.trans hdrop) (by simp)

/-- A name of words is one whose pieces between underscores are words. -/
theorem isSnakeCase_iff {name : Text} :
    IsSnakeCase name ↔ ∀ word ∈ name.splitOn '_', IsWord word := by
  constructor
  · rintro ⟨words, hne, hwords, rfl⟩
    rwa [List.splitOn_intercalate '_' _ hne]
    intro word hw hm
    exact ne_underscore_of_isWordPart ((hwords word hw).isWordPart _ hm) rfl
  · intro h
    exact ⟨name.splitOn '_', List.splitOn_ne_nil _ _, h, (List.intercalate_splitOn _).symm⟩

instance : DecidablePred IsSnakeCase := fun _ => decidable_of_iff' _ isSnakeCase_iff

/-- The words after the first are joined with capitals. -/
theorem joined_words (h : ∀ word ∈ words, IsWord word) :
    joined (words.flatMap ('_' :: ·)) = words.flatMap capitalized := by
  induction words with
  | nil => rw [List.flatMap_nil, joined, List.flatMap_nil]
  | cons word words ih =>
    obtain ⟨hword, hwords⟩ := List.forall_mem_cons.1 h
    rw [List.flatMap_cons, List.cons_append, joined_underscore hword, ih hwords, List.flatMap_cons]

theorem intercalate_cons (word : Text) (words : List Text) :
    ['_'].intercalate (word :: words) = word ++ words.flatMap ('_' :: ·) := by
  induction words generalizing word with
  | nil => simp
  | cons next words ih =>
    rw [List.intercalate_cons_cons, ih, List.flatMap_cons, List.append_assoc]
    rfl

/-- What a name of words gives in camel case. -/
theorem ofName_intercalate (hword : IsWord word) (hwords : ∀ word ∈ words, IsWord word) :
    ofName (['_'].intercalate (word :: words)) = word ++ words.flatMap capitalized := by
  obtain ⟨c, rest, hc, hlower, -⟩ := id hword
  rw [intercalate_cons, ofName, joined_append hword.isWordPart, joined_words hwords, hc]
  change Text.lowerChar c ++ (rest ++ _) = _
  rw [lowerChar_of_isAsciiLower hlower]
  rfl

theorem separated_append (s t : Text) : separated (s ++ t) = separated s ++ separated t :=
  List.flatMap_append

theorem separated_of_isWordPart (h : ∀ c ∈ word, isWordPart c = true) : separated word = word := by
  induction word with
  | nil => rfl
  | cons c word ih =>
    obtain ⟨hc, hword⟩ := List.forall_mem_cons.1 h
    have hupper := not_isAsciiUpper_of_isWordPart hc
    rw [separated, List.flatMap_cons, ← separated, ih hword, hupper]
    rfl

theorem separated_capitalized (h : IsWord word) : separated (capitalized word) = '_' :: word := by
  obtain ⟨c, rest, rfl, hc, hrest⟩ := h
  rw [capitalized, separated, List.flatMap_cons, ← separated, separated_of_isWordPart hrest,
    isAsciiUpper_toUpper hc, lowerChar_toUpper hc]
  rfl

theorem separated_words (h : ∀ word ∈ words, IsWord word) :
    separated (words.flatMap capitalized) = words.flatMap ('_' :: ·) := by
  induction words with
  | nil => rfl
  | cons word words ih =>
    obtain ⟨hword, hwords⟩ := List.forall_mem_cons.1 h
    rw [List.flatMap_cons, separated_append, separated_capitalized hword, ih hwords,
      List.flatMap_cons]

/-- The first letters put in capitals are letters still. -/
theorem isCamelCase_words (hword : IsWord word) (hwords : ∀ word ∈ words, IsWord word) :
    IsCamelCase (word ++ words.flatMap capitalized) := by
  have hpart : ∀ {c}, isWordPart c = true → (isAsciiLetter c || isAsciiDigit c) = true := by
    intro c hc
    rcases Bool.or_eq_true_iff.1 hc with hc | hc
    · rw [isAsciiLetter, hc, Bool.or_true, Bool.true_or]
    · rw [hc, Bool.or_true]
  obtain ⟨c, t, rfl, hc, ht⟩ := hword
  refine ⟨c, t ++ words.flatMap capitalized, rfl, hc, List.forall_mem_append.2 ⟨?_, ?_⟩⟩
  · exact fun d hd => hpart (ht d hd)
  · intro d hd
    obtain ⟨next, hnext, hd⟩ := List.mem_flatMap.1 hd
    obtain ⟨first, rest, rfl, hfirst, hrest⟩ := hwords next hnext
    rcases List.mem_cons.1 hd with rfl | hd
    · rw [isAsciiLetter, isAsciiUpper_toUpper hfirst, Bool.true_or, Bool.true_or]
    · exact hpart (hrest d hd)

end Words

section Names

variable {name : Text} {x y : String}

theorem IsSnakeCase.exists_words (h : IsSnakeCase name) :
    ∃ word words, IsWord word ∧ (∀ next ∈ words, IsWord next) ∧
      name = ['_'].intercalate (word :: words) := by
  obtain ⟨all, hne, hall, rfl⟩ := h
  obtain ⟨word, words, rfl⟩ := List.exists_cons_of_ne_nil hne
  obtain ⟨hword, hwords⟩ := List.forall_mem_cons.1 hall
  exact ⟨word, words, hword, hwords, rfl⟩

theorem IsSnakeCase.isCamelCase_ofName (h : IsSnakeCase name) : IsCamelCase (ofName name) := by
  obtain ⟨word, words, hword, hwords, rfl⟩ := h.exists_words
  rw [ofName_intercalate hword hwords]
  exact isCamelCase_words hword hwords

/-- The name is read back from its capitals. -/
theorem IsSnakeCase.separated_ofName (h : IsSnakeCase name) : separated (ofName name) = name := by
  obtain ⟨word, words, hword, hwords, rfl⟩ := h.exists_words
  rw [ofName_intercalate hword hwords, separated_append,
    separated_of_isWordPart hword.isWordPart, separated_words hwords, intercalate_cons]

theorem toList_ofString (name : String) : (ofString name).toList = ofName name.toList :=
  String.toList_ofList

theorem ofString_inj (hx : IsSnakeCase x.toList) (hy : IsSnakeCase y.toList) :
    ofString x = ofString y ↔ x = y := by
  refine ⟨fun h => String.toList_injective ?_, congrArg ofString⟩
  have hname : ofName x.toList = ofName y.toList := by
    rw [← toList_ofString, h, toList_ofString]
  rw [← hx.separated_ofName, hname, hy.separated_ofName]

end Names

end CamelCase

namespace Batch

open Routine (Source)
open CamelCase (IsSnakeCase IsCamelCase separated)

/-- How many sources have the routine name of a source. -/
def namesakes (sources : List Source) (source : Source) : Nat :=
  sources.countP (·.routineName == source.routineName)

/-- In camel case names of words are shared exactly if a routine name is. -/
theorem shares_of_snakeCase {sources : List Source}
    (hm : ∀ source ∈ sources, source.methodName = some (CamelCase.ofString source.routineName))
    (hn : ∀ source ∈ sources, IsSnakeCase source.routineName.toList) :
    ∀ source ∈ sources, shares sources source = decide (1 < namesakes sources source) := by
  intro source hs
  have hcount : sources.countP (·.methodName == some (CamelCase.ofString source.routineName)) =
      namesakes sources source := by
    refine List.countP_congr fun other ho => ?_
    rw [hm other ho, beq_iff_eq, beq_iff_eq, Option.some_inj,
      CamelCase.ofString_inj (hn other ho) (hn source hs)]
  rw [shares, hm source hs, Option.any_some, hcount]

/-- On names of words camel case gives method names, from which the names can be read back, so distinct
names have distinct method names. Of sources with such names, those whose routine name occurs more than
once are left out, and no others. -/
theorem camelCase_keeps_names_apart :
    (∀ name : String, IsSnakeCase name.toList →
      IsCamelCase (CamelCase.ofString name).toList ∧
        separated (CamelCase.ofString name).toList = name.toList) ∧
      (∀ x y : String, IsSnakeCase x.toList → IsSnakeCase y.toList →
        CamelCase.ofString x = CamelCase.ofString y → x = y) ∧
      ∀ (σ : Type) [Host σ] (batch : Batch) (paths : List String) (s : σ),
        batch.policy = some CamelCase.ofString →
        (∀ source ∈ paths.map batch.describe, IsSnakeCase source.routineName.toList) →
        let sources := paths.map batch.describe
        ((withoutClashes sources : Task σ Routine.LoadFailure _) s).1 =
          .ok (sources.filter (namesakes sources · = 1),
            (sources.filter (1 < namesakes sources ·)).map (·.path)) := by
  refine ⟨fun name hn => ?_, fun x y hx hy => (CamelCase.ofString_inj hx hy).1, ?_⟩
  · rw [CamelCase.toList_ofString]
    exact ⟨hn.isCamelCase_ofName, hn.separated_ofName⟩
  · intro σ _ batch paths s hpolicy hn sources
    have hshares : ∀ source ∈ sources,
        shares sources source = decide (1 < namesakes sources source) :=
      shares_of_snakeCase (methodName_of_described hpolicy paths) hn
    have honce : ∀ source ∈ sources,
        (! shares sources source) = decide (namesakes sources source = 1) := by
      intro source hs
      have hpos : 0 < namesakes sources source :=
        List.countP_pos_iff.2 ⟨source, hs, beq_self_eq_true _⟩
      rw [hshares source hs, ← decide_not]
      exact decide_eq_decide.2 (by omega)
    rw [withoutClashes_apply, separate_eq_filter, List.filter_congr honce,
      List.filter_congr hshares]

section Sample

def camelCaseBatch : Batch := ⟨some CamelCase.ofString, ∅, [], none⟩

/-- Of three paths two have the same stem. -/
def stemSharingPaths : List String := ["a/get_user.psql", "get_users.psql", "b/get_user.psql"]

/-- The sources with that stem are left out. -/
theorem camelCase_leaves_out_repeated :
    ((withoutClashes (stemSharingPaths.map camelCaseBatch.describe) :
        Task Workspace Routine.LoadFailure _) ⟨∅, [], []⟩).1 =
      .ok ([⟨"get_users.psql", "get_users", some "getUsers"⟩],
        ["a/get_user.psql", "b/get_user.psql"]) := by
  have hn : ∀ source ∈ stemSharingPaths.map camelCaseBatch.describe,
      IsSnakeCase source.routineName.toList := by
    decide +kernel
  rw [camelCase_keeps_names_apart.2.2 Workspace camelCaseBatch stemSharingPaths _ rfl hn]
  decide +kernel

/-- Names of other forms may share a method name, as with two underscores or a digit after one. -/
example : ["a_b", "a__b", "a1", "a_1"].map CamelCase.ofString = ["aB", "aB", "a1", "a1"] := by
  decide +kernel

end Sample

end Batch

end StoredRoutine
