import StoredRoutine.Batch.Run
import StoredRoutine.Proofs.CaseVariants

/-!
The replacement values of a batch. The key of a column type is made from the names in the catalog,
the key of a configured value from a name as it was written, and a placeholder is looked up as it
stands in a text. Names that are words and differ in more than case give keys that differ, so the
three meet: a column type is found under every spelling of its column, unless a value is configured
for it.
-/
namespace StoredRoutine

open Placeholder (typeSuffix IsPlaceholder find resolve value? keyOf normalize KeepsSuffix)
open Text (SameLetters)

/-- A word of letters, digits and underscores. -/
def IsWord (name : Text) : Prop := name ≠ [] ∧ ∀ c ∈ name, isNamePart c = true

instance (name : Text) : Decidable (IsWord name) :=
  decidable_of_iff (name ≠ [] ∧ name.all isNamePart = true) (by rw [List.all_eq_true, IsWord])

section Letters

theorem toNat_lt_of_isNamePart {c : Char} (h : isNamePart c = true) : c.toNat < 128 := by
  have hle : ∀ d : Char, d ≤ c ↔ d.toNat ≤ c.toNat := fun d => UInt32.le_iff_toNat_le
  have hge : ∀ d : Char, c ≤ d ↔ c.toNat ≤ d.toNat := fun d => UInt32.le_iff_toNat_le
  have heq : ∀ d : Char, c = d ↔ c.toNat = d.toNat := fun d => ⟨congrArg _, Char.toNat_inj.1⟩
  simp [isNamePart, isAsciiLetter, isAsciiUpper, isAsciiLower, isAsciiDigit, hle, hge, heq] at h
  omega

/-- No character of a word turns into a point. -/
theorem point_not_mem_upperChar {c : Char} (h : isNamePart c = true) : '.' ∉ Text.upperChar c := by
  have hascii : ∀ n ∈ List.range 128,
      isNamePart (Char.ofNat n) = true → '.' ∉ Text.upperChar (Char.ofNat n) := by decide +kernel
  have hc := hascii c.toNat (List.mem_range.2 (toNat_lt_of_isNamePart h))
  rw [Char.ofNat_toNat] at hc
  exact hc h

theorem IsWord.point_not_mem_upper {name : Text} (h : IsWord name) : '.' ∉ name.upper := by
  intro hm
  obtain ⟨c, hc, hm⟩ := List.mem_flatMap.1 hm
  exact point_not_mem_upperChar (h.2 c hc) hm

end Letters

namespace Catalog

variable {α : Type}

/-- The placeholder for the type of a column, as it stands in a text. -/
def columnPlaceholder (table column : Text) : Text :=
  '@' :: table ++ '.' :: column ++ typeSuffix ++ ['@']

theorem upper_columnPlaceholder (table column : Text) :
    (columnPlaceholder table column).upper = typeKey table column := rfl

theorem typeKey_eq (table column : Text) :
    typeKey table column = '@' :: (table.upper ++ '.' :: (column.upper ++ "%TYPE@".toList)) := by
  have hat : Text.upperChar '@' = ['@'] := by decide
  have hpoint : Text.upperChar '.' = ['.'] := by decide
  have hsuffix : typeSuffix.upper ++ ['@'] = "%TYPE@".toList := by decide +kernel
  simp [typeKey, Text.upper, hat, hpoint, ← hsuffix]

/-- The key of a column tells its table and its name, up to case. -/
theorem typeKey_inj {table column table' column' : Text} (ht : IsWord table) (hc : IsWord column)
    (h : typeKey table column = typeKey table' column') :
    table.upper = table'.upper ∧ column.upper = column'.upper := by
  rw [typeKey_eq, typeKey_eq] at h
  have hrest : '.' ∉ column.upper ++ "%TYPE@".toList := by
    rw [List.mem_append]
    exact fun hm => hm.elim hc.point_not_mem_upper (by decide)
  obtain ⟨htable, -, hcolumn⟩ := (List.append_cons_inj_of_notMem ht.point_not_mem_upper hrest).1
    (List.cons.inj h).2
  exact ⟨htable, List.append_cancel_right hcolumn⟩

/-- Tables, and columns within each table, that have words as names, no two of which differ in the
case of letters only. -/
structure WellNamed (catalog : Catalog α) : Prop where
  tables : ∀ table ∈ catalog, IsWord table.1
  columns : ∀ table ∈ catalog, ∀ column ∈ table.2, IsWord column.1
  distinctTables : (catalog.map (·.1.upper)).Nodup
  distinctColumns : ∀ table ∈ catalog, (table.2.map (·.1.upper)).Nodup

variable {catalog : Catalog α}

theorem WellNamed.nodup_typeKeys (h : catalog.WellNamed) :
    ((catalog.flatMap fun (table, columns) =>
      columns.map fun (column, type) => (typeKey table column, type)).map Prod.fst).Nodup := by
  have hkeys : ∀ table ∈ catalog, ∀ column ∈ table.2, ∀ table' column',
      typeKey table.1 column.1 = typeKey table' column' →
        table.1.upper = table'.upper ∧ column.1.upper = column'.upper :=
    fun table ht column hc _ _ => typeKey_inj (h.tables table ht) (h.columns table ht column hc)
  rw [List.map_flatMap, List.nodup_flatMap]
  constructor
  · intro table ht
    rw [List.map_map, List.Nodup, List.pairwise_map]
    refine (List.pairwise_map.1 (h.distinctColumns table ht)).imp_of_mem ?_
    intro column column' hc _ hne he
    exact hne (hkeys table ht column hc _ _ he).2
  · refine (List.pairwise_map.1 h.distinctTables).imp_of_mem ?_
    intro table table' ht _ hne key hm hm'
    simp only [List.map_map, List.mem_map, Function.comp_apply] at hm hm'
    obtain ⟨column, hc, rfl⟩ := hm
    obtain ⟨column', -, he⟩ := hm'
    exact hne (hkeys table ht column hc _ _ he.symm).1

theorem WellNamed.get?_typePairs (h : catalog.WellNamed) {table column : Text} {type : α}
    {columns : List (Text × α)} (ht : (table, columns) ∈ catalog) (hc : (column, type) ∈ columns) :
    catalog.typePairs.get? (typeKey table column) = some type := by
  refine (OrderedMap.get?_ofList_eq_some_iff h.nodup_typeKeys).2 (List.mem_flatMap.2 ?_)
  exact ⟨(table, columns), ht, List.mem_map.2 ⟨(column, type), hc, rfl⟩⟩

section Variants

variable {table column table' column' : Text}

theorem isPlaceholder_columnPlaceholder (ht : IsWord table) (hc : IsWord column) :
    IsPlaceholder (columnPlaceholder table column) := by
  refine ⟨table ++ '.' :: column, typeSuffix, by simp, fun c hm => ?_, .inr rfl,
    by simp [columnPlaceholder]⟩
  rw [List.mem_append, List.mem_cons] at hm
  rcases hm with hm | rfl | hm
  · rw [Placeholder.isNameChar, ht.2 c hm, Bool.true_or]
  · rfl
  · rw [Placeholder.isNameChar, hc.2 c hm, Bool.true_or]

theorem sameLetters_columnPlaceholder (ht : SameLetters table table')
    (hc : SameLetters column column') :
    SameLetters (columnPlaceholder table column) (columnPlaceholder table' column') := by
  rw [SameLetters] at ht hc ⊢
  simp only [columnPlaceholder, List.map_append, List.map_cons, ht, hc]

/-- The placeholder of a column is one in every spelling of its names. -/
theorem isPlaceholder_of_sameLetters (ht : IsWord table) (hc : IsWord column)
    (ht' : SameLetters table table') (hc' : SameLetters column column') :
    IsPlaceholder (columnPlaceholder table' column') := by
  refine (Placeholder.isPlaceholder_variant_iff (isPlaceholder_columnPlaceholder ht hc)
    (sameLetters_columnPlaceholder ht' hc')).2 fun _ => ?_
  exact ⟨'@' :: table' ++ '.' :: column', by simp [columnPlaceholder]⟩

end Variants

end Catalog

namespace Placeholder

/-- The value that is configured last under a name for a key. -/
def lastConfigured? (configured : OrderedMap Text Text) (key : Text) : Option Text :=
  (configured.entries.reverse.find? fun e => key = keyOf e.1).map Prod.snd

theorem get?_normalize (configured : OrderedMap Text Text) (key : Text) :
    (normalize configured).get? key = lastConfigured? configured key := by
  rw [normalize, OrderedMap.ofList, OrderedMap.get?_insertMany_eq_or, OrderedMap.get?_empty,
    Option.or_none, ← List.map_reverse, List.find?_map, Option.map_map]
  rfl

theorem exists_lastConfigured {configured : OrderedMap Text Text} {name : Text}
    (h : name ∈ configured.keys) : ∃ value, lastConfigured? configured (keyOf name) = some value := by
  obtain ⟨e, he, rfl⟩ := List.mem_map.1 h
  rw [← Option.isSome_iff_exists, lastConfigured?, Option.isSome_map, List.find?_isSome]
  exact ⟨e, List.mem_reverse.2 he, decide_eq_true rfl⟩

/-- A text that is one placeholder with a value resolves to that value. -/
theorem resolve_of_isPlaceholder {pairs : Pairs} {p v : Text} (hp : IsPlaceholder p)
    (hv : value? pairs p = some v) : find p = [p] ∧ resolve pairs p = ⟨.ofList [(p, v)], []⟩ := by
  have hfind : find p = [p] := by
    have h := find_of_isPlaceholder hp []
    rwa [List.append_nil, find_nil] at h
  refine ⟨hfind, ?_⟩
  rw [resolve, hfind]
  simp [hv, Text.sortedSet, Text.sort]

end Placeholder

namespace Batch

open Placeholder (lastConfigured?)

theorem get?_replacePairs (batch : Batch) (key : Text) :
    batch.replacePairs.get? key =
      ((lastConfigured? batch.configured key).map some).or (batch.catalog.typePairs.get? key) := by
  have hvalues : ∀ e ∈ (normalize batch.configured).entries.map fun e => (e.1, some e.2),
      ((normalize batch.configured).get? e.1).map some = some e.2 := by
    intro e he
    obtain ⟨⟨key, value⟩, hm, rfl⟩ := List.mem_map.1 he
    rw [OrderedMap.get?_eq_some_iff.2 hm, Option.map_some]
  rw [replacePairs, OrderedMap.get?_insertMany
    (f := fun key => ((normalize batch.configured).get? key).map some) hvalues,
    ← Placeholder.get?_normalize, List.map_map]
  split
  · next hk =>
    obtain ⟨value, hvalue⟩ := OrderedMap.mem_keys_iff.1 hk
    rw [hvalue]
    rfl
  · next hk =>
    rw [OrderedMap.not_mem_keys_iff.1 hk]
    rfl

/-- With well-named tables and columns, the placeholder of a column is found in every spelling and
resolves to the value that is configured last for it, or else to the declared type; and under every
configured name, the value that is configured last for its key is the one that counts. -/
theorem replacePairs_resolve_columns (batch : Batch) (h : batch.catalog.WellNamed) :
    (∀ table columns column type, (table, columns) ∈ batch.catalog →
      (column, some type) ∈ columns → ∀ table' column', SameLetters table table' →
      SameLetters column column' → ∀ p, p = Catalog.columnPlaceholder table' column' →
        find p = [p] ∧ resolve batch.replacePairs p =
          ⟨.ofList [(p, (lastConfigured? batch.configured p.upper).getD type)], []⟩) ∧
      ∀ name ∈ batch.configured.keys, ∃ value,
        lastConfigured? batch.configured (keyOf name) = some value ∧
          batch.replacePairs.get? (keyOf name) = some (some value) ∧
          ∀ t p, p ∈ find t → p.upper = keyOf name →
            (resolve batch.replacePairs t).replacements.get? p = some value := by
  constructor
  · rintro table columns column type ht hc table' column' hletters hletters' p rfl
    have hkey : (Catalog.columnPlaceholder table' column').upper = Catalog.typeKey table column := by
      rw [← (Catalog.sameLetters_columnPlaceholder hletters hletters').upper_eq,
        Catalog.upper_columnPlaceholder]
    have hp := Catalog.isPlaceholder_of_sameLetters (h.tables _ ht) (h.columns _ ht _ hc) hletters
      hletters'
    refine Placeholder.resolve_of_isPlaceholder hp ?_
    rw [value?, get?_replacePairs, hkey, h.get?_typePairs ht hc]
    cases lastConfigured? batch.configured (Catalog.typeKey table column) <;> rfl
  · intro name hn
    obtain ⟨value, hvalue⟩ := Placeholder.exists_lastConfigured hn
    have hget : batch.replacePairs.get? (keyOf name) = some (some value) := by
      rw [get?_replacePairs, hvalue]
      rfl
    refine ⟨value, hvalue, hget, fun t p hp hkey => ?_⟩
    rw [Placeholder.get?_replacements, if_pos hp, Placeholder.value?_eq_some_iff, hkey, hget]

section Sample

/-- Two tables with a column of one name, for one of which a value is configured twice. -/
def columnBatch : Batch where
  policy := none
  configured := .ofList [(" @orders.ID%type@ ".toList, "bigint".toList),
    ("Orders.Id%TYPE".toList, "serial".toList)]
  catalog := [("Customers".toList, [("id".toList, some "INTEGER".toList)]),
    ("Orders".toList, [("id".toList, some "INTEGER".toList), ("note_1".toList, some "TEXT".toList)])]
  metadataPath := none

theorem wellNamed_columnBatch : columnBatch.catalog.WellNamed where
  tables := by decide +kernel
  columns := by decide +kernel
  distinctTables := by decide +kernel
  distinctColumns := by decide +kernel

/-- The later of two configured values counts, and a column of that name in another table keeps its
declared type. -/
theorem replacePairs_resolve_orders : columnBatch.catalog.WellNamed ∧
    resolve columnBatch.replacePairs "@orders.iD%type@".toList =
      ⟨.ofList [("@orders.iD%type@".toList, "serial".toList)], []⟩ ∧
    resolve columnBatch.replacePairs "@CUSTOMERS.ID%type@".toList =
      ⟨.ofList [("@CUSTOMERS.ID%type@".toList, "INTEGER".toList)], []⟩ := by
  obtain ⟨hcolumns, -⟩ := replacePairs_resolve_columns columnBatch wellNamed_columnBatch
  refine ⟨wellNamed_columnBatch, ?_, ?_⟩
  · have horders := hcolumns "Orders".toList _ "id".toList "INTEGER".toList
      (List.mem_cons_of_mem _ List.mem_cons_self) List.mem_cons_self "orders".toList "iD".toList
      (by decide +kernel) (by decide +kernel) "@orders.iD%type@".toList (by decide +kernel)
    rw [horders.2]
    decide +kernel
  · have hcustomers := hcolumns "Customers".toList _ "id".toList "INTEGER".toList
      List.mem_cons_self List.mem_cons_self "CUSTOMERS".toList "ID".toList
      (by decide +kernel) (by decide +kernel) "@CUSTOMERS.ID%type@".toList (by decide +kernel)
    rw [hcustomers.2]
    decide +kernel

end Sample

end Batch

end StoredRoutine
