import Mathlib
import StoredRoutine.Json.Reading
import StoredRoutine.Proofs.JsonTokens
import StoredRoutine.Proofs.OrderedMap
import StoredRoutine.Proofs.Outcome

/-!
A JSON value is read back from its written form with the members of each object in the order of
their names, and that order is all that two values of one written form can differ in.
-/
namespace StoredRoutine

/-!
A value made of texts, whole numbers and the three words has a written form, and that form is read
back as the value with the members of each object in the order of their names. Writing is followed to
the tokens of the value, and reading from them.
-/

namespace Json

/-- Values are taken apart down to their scalars. -/
@[induction_eliminator]
theorem induction {P : Json → Prop} (scalar : ∀ v, P (.scalar v))
    (array : ∀ items, (∀ j ∈ items, P j) → P (.array items))
    (object : ∀ members, (∀ m ∈ members, P m.2) → P (.object members)) (j : Json) : P j := by
  refine @Json.rec P (fun items => ∀ j ∈ items, P j) (fun members => ∀ m ∈ members, P m.2)
    (fun m => P m.2) scalar array object ?_ ?_ ?_ ?_ ?_ j
  · simp
  · intro j items hj hitems
    exact List.forall_mem_cons.2 ⟨hj, hitems⟩
  · simp
  · intro m members hm hmembers
    exact List.forall_mem_cons.2 ⟨hm, hmembers⟩
  · intro name j hj
    exact hj

/-- Made of texts, whole numbers, truth values and null. -/
inductive Plain : Json → Prop where
  | null : Plain (.scalar .null)
  | boolean (b : Bool) : Plain (.scalar (.boolean b))
  | integer (n : Int) : Plain (.scalar (.integer n))
  | text (t : Text) : Plain (.scalar (.text t))
  | array {items : List Json} (h : ∀ j ∈ items, Plain j) : Plain (.array items)
  | object {members : List (Text × Json)} (h : ∀ m ∈ members, Plain m.2) : Plain (.object members)

/-- No later in the order of names. -/
def nameLe {α : Type} (a b : Text × α) : Bool := Text.le a.1 b.1

mutual

/-- A value with the members of each object in the order of their names. -/
def ordered : Json → Json
  | scalar v => scalar v
  | array items => array (orderedItems items)
  | object members => object ((orderedMembers members).mergeSort nameLe)

def orderedItems : List Json → List Json
  | [] => []
  | j :: js => ordered j :: orderedItems js

def orderedMembers : List (Text × Json) → List (Text × Json)
  | [] => []
  | (name, j) :: ms => (name, ordered j) :: orderedMembers ms

end

mutual

/-- The tokens of a value in the order in which they are written. -/
def tokens : Json → List Token
  | scalar v => [.scalar v]
  | array items => .openArray :: [.comma].intercalate (tokensOfItems items) ++ [.closeArray]
  | object members => .openObject :: [.comma].intercalate (tokensOfMembers members) ++ [.closeObject]

def tokensOfItems : List Json → List (List Token)
  | [] => []
  | j :: js => tokens j :: tokensOfItems js

def tokensOfMembers : List (Text × Json) → List (List Token)
  | [] => []
  | (name, j) :: ms => (.scalar (.text name) :: .colon :: tokens j) :: tokensOfMembers ms

end

section Lists

theorem orderedItems_eq_map (items : List Json) : orderedItems items = items.map ordered := by
  induction items with
  | nil => rfl
  | cons j js ih => rw [orderedItems, ih, List.map_cons]

theorem orderedMembers_eq_map (members : List (Text × Json)) :
    orderedMembers members = members.map fun m => (m.1, ordered m.2) := by
  induction members with
  | nil => rfl
  | cons m ms ih => rw [orderedMembers, ih, List.map_cons]

theorem tokensOfItems_eq_map (items : List Json) : tokensOfItems items = items.map tokens := by
  induction items with
  | nil => rfl
  | cons j js ih => rw [tokensOfItems, ih, List.map_cons]

/-- The tokens of a member of an object. -/
def memberTokens (m : Text × Json) : List Token := .scalar (.text m.1) :: .colon :: tokens m.2

theorem tokensOfMembers_eq_map (members : List (Text × Json)) :
    tokensOfMembers members = members.map memberTokens := by
  induction members with
  | nil => rfl
  | cons m ms ih =>
    rw [tokensOfMembers, ih, List.map_cons]
    rfl

theorem writeItems_eq_map (level : Nat) (items : List Json) :
    writeItems level items = items.map (write level) := by
  induction items with
  | nil => rfl
  | cons j js ih => rw [writeItems, ih, List.map_cons]

theorem writeMembers_eq_map (level : Nat) (members : List (Text × Json)) :
    writeMembers level members = members.map fun m => (m.1, write level m.2) := by
  induction members with
  | nil => rfl
  | cons m ms ih => rw [writeMembers, ih, List.map_cons]

end Lists

section Writing

/-- Steps that all succeed, each with what is known of its result, succeed in a row. -/
theorem exists_mapM {α β γ ε : Type} {f : α → Except ε β} {g : α → γ} {R : β → γ → Prop}
    {l : List α} (h : ∀ a ∈ l, ∃ b, f a = .ok b ∧ R b (g a)) :
    ∃ bs, l.mapM f = .ok bs ∧ List.Forall₂ R bs (l.map g) := by
  induction l with
  | nil => exact ⟨[], rfl, .nil⟩
  | cons a l ih =>
    rw [List.forall_mem_cons] at h
    obtain ⟨⟨b, hb, hr⟩, hl⟩ := h
    obtain ⟨bs, hbs, hrs⟩ := ih hl
    refine ⟨b :: bs, ?_, .cons hr hrs⟩
    rw [List.mapM_cons, hb, hbs]
    rfl

theorem isSpace_freshLine (level : Nat) : ∀ c ∈ freshLine level, Token.isSpace c = true := by
  intro c hc
  rcases List.mem_cons.1 hc with rfl | hc
  · rfl
  · rw [List.eq_of_mem_replicate hc]
    rfl

theorem writes_freshLine (level : Nat) {t : Text} {ts : List Token} (h : Writes t ts) :
    Writes (freshLine level ++ t) ts :=
  .spaces (isSpace_freshLine level) h

/-- Written items with commas between them, up to what closes them. -/
theorem writes_items (level : Nat) {item : Text} {items : List Text} {its : List Token}
    {itemss : List (List Token)} {closing : Char} {close : Token}
    (hc : Token.punctuation? closing = some close) (hi : Writes item its)
    (his : List.Forall₂ Writes items itemss) :
    Writes ((',' :: freshLine (level + 1)).intercalate (item :: items) ++ freshLine level ++
        [closing])
      ([.comma].intercalate (its :: itemss) ++ [close]) := by
  induction his generalizing item its with
  | nil =>
    have hclose : Writes (freshLine level ++ [closing]) [close] :=
      writes_freshLine level (.punctuation hc .nil)
    simpa [List.intercalate, freshLine] using hi.append hclose rfl
  | cons hitem _ ih =>
    have hmore := Writes.punctuation (c := ',') rfl (writes_freshLine (level + 1) (ih hitem))
    simpa [List.intercalate] using hi.append hmore rfl

theorem writes_enclosed {level : Nat} {items : List Text} {itemss : List (List Token)}
    {opening closing : Char} {open' close : Token}
    (ho : Token.punctuation? opening = some open') (hc : Token.punctuation? closing = some close)
    (h : List.Forall₂ Writes items itemss) :
    Writes (enclosed opening closing level items)
      (open' :: [.comma].intercalate itemss ++ [close]) := by
  cases h with
  | nil => exact .punctuation ho (.punctuation hc .nil)
  | cons hi his =>
    simpa [enclosed] using
      Writes.punctuation ho (writes_freshLine (level + 1) (writes_items level hc hi his))

theorem writes_member {name t : Text} {ts : List Token} (h : Writes t ts) :
    Writes (stringText name ++ ": ".toList ++ t) (.scalar (.text name) :: .colon :: ts) := by
  have hcolon : Writes (':' :: ([' '] ++ t)) (.colon :: ts) :=
    .punctuation rfl (.spaces (by simp [Token.isSpace]) h)
  simpa using (Writes.string name).append hcolon rfl

theorem writes_scalar {v : Value} (h : Plain (.scalar v)) :
    ∃ t, scalarText v = .ok t ∧ Writes t [.scalar v] := by
  cases h with
  | null => exact ⟨_, rfl, .ofWord (by simp [Token.words])⟩
  | boolean b =>
    refine ⟨_, rfl, .ofWord ?_⟩
    cases b <;> simp [Token.words]
  | integer n => exact ⟨_, rfl, .integer n⟩
  | text t => exact ⟨_, rfl, .string t⟩

/-- The members of an object with their written forms. -/
def writtenMember (level : Nat) (m : Text × Json) : Except Unwritable Text := do
  return stringText m.1 ++ ": ".toList ++ (← write level m.2)

theorem write_array (level : Nat) (items : List Json) :
    write level (.array items) =
      (items.mapM (write (level + 1))).map (enclosed '[' ']' level) := by
  rw [write, writeItems_eq_map, List.mapM_map]
  rfl

theorem write_object (level : Nat) (members : List (Text × Json)) :
    write level (.object members) =
      ((members.mergeSort nameLe).mapM (writtenMember (level + 1))).map
        (enclosed '\x7b' '\x7d' level) := by
  have hsort : (members.mergeSort nameLe).map (fun m => (m.1, write (level + 1) m.2)) =
      (members.map fun m => (m.1, write (level + 1) m.2)).mergeSort
        fun a b => Text.le a.1 b.1 :=
    List.map_mergeSort fun _ _ _ _ => rfl
  rw [write, writeMembers_eq_map, ← hsort, List.mapM_map]
  rfl

theorem ordered_object (members : List (Text × Json)) :
    ordered (.object members) =
      .object ((members.mergeSort nameLe).map fun m => (m.1, m.2.ordered)) := by
  have hsort : (members.mergeSort nameLe).map (fun m => (m.1, m.2.ordered)) =
      (members.map fun m => (m.1, m.2.ordered)).mergeSort nameLe :=
    List.map_mergeSort fun _ _ _ _ => rfl
  rw [ordered, orderedMembers_eq_map, hsort]

/-- A plain value has a written form, which is read as its tokens in order. -/
theorem exists_write {j : Json} (h : Plain j) (level : Nat) :
    ∃ t, write level j = .ok t ∧ Writes t (tokens j.ordered) := by
  induction j generalizing level with
  | scalar v => exact writes_scalar h
  | array items ih =>
    cases h with
    | array hitems =>
      obtain ⟨ts, hts, hw⟩ := exists_mapM (g := fun j => tokens j.ordered)
        fun j hj => ih j hj (hitems j hj) (level + 1)
      refine ⟨enclosed '[' ']' level ts, by rw [write_array, hts]; rfl, ?_⟩
      rw [ordered, tokens, orderedItems_eq_map, tokensOfItems_eq_map, List.map_map]
      exact writes_enclosed rfl rfl hw
  | object members ih =>
    cases h with
    | object hmembers =>
      have hm : ∀ m ∈ members.mergeSort nameLe, ∃ t, writtenMember (level + 1) m = .ok t ∧
          Writes t (memberTokens (m.1, m.2.ordered)) := by
        intro m hm
        have hmem := List.mem_mergeSort.1 hm
        obtain ⟨t, ht, hw⟩ := ih m hmem (hmembers m hmem) (level + 1)
        exact ⟨_, by rw [writtenMember, ht]; rfl, writes_member hw⟩
      obtain ⟨ts, hts, hw⟩ := exists_mapM hm
      refine ⟨enclosed '\x7b' '\x7d' level ts, by rw [write_object, hts]; rfl, ?_⟩
      rw [ordered_object, tokens, tokensOfMembers_eq_map, List.map_map]
      exact writes_enclosed rfl rfl hw

end Writing

section Reading

/-- The tokens of items that come after a first one. -/
def furtherTokens (tss : List (List Token)) : List Token := tss.flatMap (.comma :: ·)

theorem intercalate_comma (ts : List Token) (tss : List (List Token)) :
    [.comma].intercalate (ts :: tss) = ts ++ furtherTokens tss := by
  induction tss generalizing ts with
  | nil => simp [List.intercalate, furtherTokens]
  | cons us tss ih =>
    have h : [Token.comma].intercalate (ts :: us :: tss) =
        ts ++ .comma :: [Token.comma].intercalate (us :: tss) := by
      simp [List.intercalate]
    rw [h, ih, furtherTokens, furtherTokens, List.flatMap_cons, List.cons_append]

/-- The tokens of a value do not begin with what closes an array. -/
theorem tokens_ne_closeArray (j : Json) (ts rest : List Token) :
    tokens j ++ ts ≠ .closeArray :: rest := by
  cases j <;> simp [tokens]

/-- Further items of an open array are read up to its end. -/
theorem after?_furtherItems {js : List Json} {stack : List Frame} {ts : List Token}
    (ih : ∀ j ∈ js, ∀ stack ts, value? stack (tokens j ++ ts) = after? stack j ts) (j : Json)
    (done : List Json) :
    after? (.array done :: stack) j (furtherTokens (js.map tokens) ++ .closeArray :: ts) =
      after? stack (array (done.reverse ++ j :: js)) ts := by
  induction js generalizing j done with
  | nil =>
    rw [List.map_nil, furtherTokens, List.flatMap_nil, List.nil_append, after?, List.reverse_cons]
  | cons k js ihs =>
    rw [List.forall_mem_cons] at ih
    rw [List.map_cons, furtherTokens, List.flatMap_cons, ← furtherTokens]
    simp only [List.cons_append, List.append_assoc]
    rw [after?, ih.1, ihs ih.2]
    simp

/-- Further members of an open object are read up to its end. -/
theorem after?_furtherMembers {ms : List (Text × Json)} {stack : List Frame} {ts : List Token}
    (ih : ∀ m ∈ ms, ∀ stack ts, value? stack (tokens m.2 ++ ts) = after? stack m.2 ts) (j : Json)
    (name : Text) (done : List (Text × Json)) :
    after? (.object done name :: stack) j
        (furtherTokens (ms.map memberTokens) ++ .closeObject :: ts) =
      after? stack (object (done.reverse ++ (name, j) :: ms)) ts := by
  induction ms generalizing j name done with
  | nil =>
    rw [List.map_nil, furtherTokens, List.flatMap_nil, List.nil_append, after?, List.reverse_cons]
  | cons m ms ihs =>
    rw [List.forall_mem_cons] at ih
    rw [List.map_cons, furtherTokens, List.flatMap_cons, ← furtherTokens, memberTokens]
    simp only [List.cons_append, List.append_assoc]
    rw [after?, ih.1, ihs ih.2]
    simp

/-- The tokens of a value are read as that value, whatever is open around it. -/
theorem value?_tokens (j : Json) (stack : List Frame) (ts : List Token) :
    value? stack (tokens j ++ ts) = after? stack j ts := by
  induction j generalizing stack ts with
  | scalar v => rw [tokens, List.singleton_append, value?]
  | array items ih =>
    rw [tokens, tokensOfItems_eq_map]
    cases items with
    | nil => simp [List.intercalate, value?]
    | cons j js =>
      rw [List.forall_mem_cons] at ih
      rw [List.map_cons, intercalate_comma]
      simp only [List.cons_append, List.append_assoc, List.nil_append]
      rw [value?, ih.1, after?_furtherItems ih.2]
      · rfl
      · exact tokens_ne_closeArray j _
  | object members ih =>
    rw [tokens, tokensOfMembers_eq_map]
    cases members with
    | nil => simp [List.intercalate, value?]
    | cons m ms =>
      rw [List.forall_mem_cons] at ih
      rw [List.map_cons, intercalate_comma, memberTokens]
      simp only [List.cons_append, List.append_assoc, List.nil_append]
      rw [value?, ih.1, after?_furtherMembers ih.2]
      rfl

end Reading

/-- The written form of a plain value, at its own or with a line break after it, is read back as the
value with the members of each object in order. -/
theorem read?_toText {j : Json} (h : Plain j) :
    ∃ t, j.toText = .ok t ∧ ∀ rest, (∀ c ∈ rest, Token.isSpace c = true) →
      read? (t ++ rest) = some j.ordered := by
  obtain ⟨t, ht, hw⟩ := exists_write h 0
  refine ⟨t, ht, fun rest hr => ?_⟩
  have hstops : Stops rest := by
    intro c hc
    have hs := hr c (List.mem_of_mem_head? hc)
    simp [Token.isWordPart, hs]
  have hread : Token.read rest = some [] := by
    rw [← List.append_nil rest, Token.read_spaces hr, Token.read_nil]
  rw [read?, hw rest hstops, hread]
  exact value?_tokens j.ordered [] []

/-!
The order of members. It is that of their names, so members with distinct names have one order, in
whatever order they were put together; and a value is written as that order has it. So two plain
values have one written form exactly if they differ in the order of members at most.
-/

section Names

variable {α : Type}

theorem nameLe_iff {a b : Text × α} : nameLe a b = true ↔ a.1 ≤ b.1 := Text.le_iff

theorem nameLe_trans (a b c : Text × α) (h₁ : nameLe a b = true) (h₂ : nameLe b c = true) :
    nameLe a c = true :=
  nameLe_iff.2 (le_trans (nameLe_iff.1 h₁) (nameLe_iff.1 h₂))

theorem nameLe_total (a b : Text × α) : (nameLe a b || nameLe b a) = true := by
  rw [Bool.or_eq_true, nameLe_iff, nameLe_iff]
  exact le_total _ _

theorem pairwise_mergeSort_nameLe (members : List (Text × α)) :
    (members.mergeSort nameLe).Pairwise (nameLe · ·) :=
  List.pairwise_mergeSort nameLe_trans nameLe_total members

/-- Distinct names come in one order only. -/
theorem eq_of_perm_of_nameLe {l l' : List (Text × α)} (h : l.Perm l')
    (hd : (l.map Prod.fst).Nodup) (hl : l.Pairwise (nameLe · ·)) (hl' : l'.Pairwise (nameLe · ·)) :
    l = l' := by
  refine List.Perm.eq_of_pairwise ?_ hl hl' h
  intro a b ha hb hab hba
  have hname : a.1 = b.1 := le_antisymm (nameLe_iff.1 hab) (nameLe_iff.1 hba)
  exact List.inj_on_of_nodup_map hd ha (h.mem_iff.2 hb) hname

theorem mergeSort_nameLe_of_perm {l l' : List (Text × α)} (h : l.Perm l')
    (hd : (l.map Prod.fst).Nodup) : l.mergeSort nameLe = l'.mergeSort nameLe := by
  have hsorted : (l.mergeSort nameLe).Perm (l'.mergeSort nameLe) :=
    ((List.mergeSort_perm l _).trans h).trans (List.mergeSort_perm l' _).symm
  refine eq_of_perm_of_nameLe hsorted ?_ (pairwise_mergeSort_nameLe l) (pairwise_mergeSort_nameLe l')
  exact (((List.mergeSort_perm l nameLe).map _).nodup_iff).2 hd

end Names

theorem writtenMember_ordered {level : Nat} {m : Text × Json}
    (h : write level m.2.ordered = write level m.2) :
    writtenMember level (m.1, m.2.ordered) = writtenMember level m := by
  rw [writtenMember, writtenMember, h]

theorem mapM_map_congr {α β ε : Type} {f : α → α} {g : α → Except ε β} {l : List α}
    (h : ∀ a ∈ l, g (f a) = g a) : (l.map f).mapM g = l.mapM g := by
  induction l with
  | nil => rfl
  | cons a l ih =>
    rw [List.forall_mem_cons] at h
    rw [List.map_cons, List.mapM_cons, List.mapM_cons, h.1, ih h.2]

/-- The order in which members were put together does not show in the written form. -/
theorem write_ordered (j : Json) (level : Nat) : write level j.ordered = write level j := by
  induction j generalizing level with
  | scalar v => rfl
  | array items ih =>
    rw [ordered, orderedItems_eq_map, write_array, write_array,
      mapM_map_congr fun j hj => ih j hj (level + 1)]
  | object members ih =>
    have hsorted : ((members.mergeSort nameLe).map fun m => (m.1, m.2.ordered)).Pairwise
        (nameLe · ·) :=
      List.pairwise_map.2 (pairwise_mergeSort_nameLe members)
    rw [ordered_object, write_object, write_object, List.mergeSort_of_pairwise hsorted,
      mapM_map_congr fun m hm =>
        writtenMember_ordered (ih m (List.mem_mergeSort.1 hm) (level + 1))]

/-- Two plain values have one written form exactly if they are equal up to the order of members. -/
theorem toText_eq_iff {j k : Json} (hj : Plain j) (hk : Plain k) :
    j.toText = k.toText ↔ j.ordered = k.ordered := by
  constructor
  · intro h
    obtain ⟨t, ht, hread⟩ := read?_toText hj
    obtain ⟨u, hu, hread'⟩ := read?_toText hk
    have htu : t = u := by
      rw [ht, hu] at h
      exact Except.ok.inj h
    have hj' := hread [] (by simp)
    have hk' := hread' [] (by simp)
    rw [htu, hk'] at hj'
    exact (Option.some.inj hj').symm
  · intro h
    rw [toText, toText, ← write_ordered j, h, write_ordered]

section Lookup

/-- The member of an object by its name. -/
def member? (j : Json) (name : Text) : Option Json :=
  match j with
  | object members => members.lookup name
  | _ => none

theorem member?_object (members : List (Text × Json)) (name : Text) :
    (object members).member? name = members.lookup name := rfl

/-- Members are found by their names, in whatever order they stand. -/
theorem member?_ordered {members : List (Text × Json)} (hd : (members.map Prod.fst).Nodup)
    (name : Text) :
    (ordered (.object members)).member? name =
      ((object members).member? name).map ordered := by
  have hperm := List.mergeSort_perm members nameLe
  have hd' : (((members.mergeSort nameLe).map fun m => (m.1, m.2.ordered)).map
      Prod.fst).Nodup := by
    rw [List.map_map]
    exact (hperm.map _).nodup_iff.2 hd
  rw [ordered_object, member?_object, member?_object]
  apply Option.ext
  intro k
  rw [OrderedMap.lookup_eq_some_iff hd', Option.map_eq_some_iff]
  simp only [OrderedMap.lookup_eq_some_iff hd, List.mem_map, List.mem_mergeSort, Prod.mk.injEq]
  constructor
  · rintro ⟨m, hm, rfl, rfl⟩
    exact ⟨m.2, hm, rfl⟩
  · rintro ⟨j, hj, rfl⟩
    exact ⟨(name, j), hj, rfl, rfl⟩

end Lookup

end Json

end StoredRoutine
