import StoredRoutine.Proofs.Encodings
import StoredRoutine.Proofs.MetadataDocument
import StoredRoutine.Scratch.Image

/-!
The content of a database file as a code for its tables. A connection to the file finds the tables
that were kept in it.
-/
namespace StoredRoutine.Scratch

open Json (field? list? items? field?_record list?_array Plain plain_record plain_array_map
  plain_optional)

section Fields

theorem itemsOf?_eq_items? (j : Json) : itemsOf? j = items? j := by
  cases j <;> rfl

theorem rowOf?_eq_list? (j : Json) : rowOf? j = list? valueOf? j := by
  cases j <;> rfl

/-- A real number is what stands under its name. -/
theorem valueOf?_object (members : List (Text × Json)) :
    valueOf? (.object members) =
      (field? realOf? (.object members) "real").map .real := by
  simp only [valueOf?, field?, Json.member?_object, Option.bind_eq_bind, Option.bind_assoc,
    Option.map_eq_bind]
  rfl

/-- A table is read off its members. -/
theorem Table.ofJson?_object (members : List (Text × Json)) :
    Table.ofJson? (.object members) = do
      let columns ← field? (list? columnOf?) (.object members) "columns"
      let distinct ← field? (list? (list? numberOf?)) (.object members) "distinct"
      let key ← field? (some ∘ numberOf?) (.object members) "key"
      let rows ← field? (list? rowOf?) (.object members) "rows"
      return ⟨← field? textOf? (.object members) "name", columns, distinct, key, rows⟩ := by
  simp only [Table.ofJson?, field?, Json.member?_object, list?, itemsOf?_eq_items?,
    Option.bind_eq_bind, Option.bind_assoc, Function.comp, Option.bind_some]
  rfl

end Fields

section Tables

theorem list?_numbers (ns : List Nat) :
    list? numberOf? (Json.array (ns.map fun (n : Nat) => .number n)).ordered = some ns :=
  list?_array fun _ _ => rfl

theorem realOf?_realJson (x : Binary64) : realOf? (realJson x).ordered = some x := by
  cases x with
  | finite negative mantissa exponent =>
    simp [realJson, Json.number, Json.ordered, Json.orderedItems, realOf?]
  | _ => rfl

theorem valueOf?_valueJson (v : Value) : valueOf? (valueJson v).ordered = some v := by
  cases v with
  | real x =>
    have hd : ["real"].Nodup := by decide
    have hreal : field? realOf? (valueJson (.real x)).ordered "real" = some x :=
      field?_record hd rfl (realOf?_realJson x)
    rw [valueJson, Json.record, Json.ordered_object] at hreal ⊢
    rw [valueOf?_object, hreal]
    rfl
  | binary bs =>
    rw [valueJson]
    have hbytes : list? byteOf? (Json.array (bs.map fun b => .scalar (.integer b.toNat))).ordered =
        some bs :=
      list?_array fun b _ => by simp [byteOf?, Json.ordered]
    rw [Json.ordered] at hbytes ⊢
    exact congrArg (Option.map Value.binary) hbytes
  | _ => rfl

theorem Collation.ofName?_name (c : Collation) : Collation.ofName? c.name.toList = some c := by
  cases c <;> cbv

theorem columnOf?_toJson (c : Column) : columnOf? c.toJson.ordered = some c := by
  obtain ⟨name, type, required, standard, collation, primary⟩ := c
  have hstandard : textOf? (Json.optional standard).ordered = standard := by
    cases standard <;> rfl
  simp only [Column.toJson, Json.ordered, Json.orderedItems, columnOf?]
  rw [hstandard]
  simp only [Json.string, Json.number, Json.ordered, textOf?, numberOf?, Option.bind_eq_bind,
    Option.bind_some, Collation.ofName?_name]
  rfl

theorem Table.ofJson?_toJson (t : Table) : Table.ofJson? t.toJson.ordered = some t := by
  have hd : ["name", "columns", "distinct", "key", "rows"].Nodup := by decide
  have hname : field? textOf? t.toJson.ordered "name" = some t.name := field?_record hd rfl rfl
  have hcolumns : field? (list? columnOf?) t.toJson.ordered "columns" = some t.columns :=
    field?_record hd rfl (list?_array fun c _ => columnOf?_toJson c)
  have hdistinct : field? (list? (list? numberOf?)) t.toJson.ordered "distinct" = some t.distinct :=
    field?_record hd rfl (list?_array fun is _ => list?_numbers is)
  have hkey : field? (some ∘ numberOf?) t.toJson.ordered "key" = some t.key :=
    field?_record hd rfl (by cases t.key <;> rfl)
  have hrows : field? (list? rowOf?) t.toJson.ordered "rows" = some t.rows :=
    field?_record hd rfl (list?_array fun values _ => by
      rw [rowOf?_eq_list?]
      exact list?_array fun v _ => valueOf?_valueJson v)
  rw [Table.toJson, Json.record, Json.ordered_object] at hname hcolumns hdistinct hkey hrows ⊢
  rw [Table.ofJson?_object, hname, hcolumns, hdistinct, hkey, hrows]
  rfl

theorem plain_realJson (x : Binary64) : Plain (realJson x) := by
  cases x with
  | nan => exact .array (by simp)
  | infinite negative => exact .array (by simpa using .boolean _)
  | finite negative mantissa exponent =>
    exact .array (by simpa using ⟨.boolean _, .integer _, .integer _⟩)

theorem plain_valueJson (v : Value) : Plain (valueJson v) := by
  cases v with
  | real x => exact plain_record (by simpa using plain_realJson x)
  | binary bs => exact plain_array_map bs fun b => .integer b.toNat
  | null => exact .null
  | boolean b => exact .boolean b
  | integer n => exact .integer n
  | text t => exact .text t

theorem Column.plain_toJson (c : Column) : Plain c.toJson := by
  refine .array ?_
  simpa using ⟨.text _, .text _, .boolean _, plain_optional _, .text _, .integer _⟩

theorem Table.plain_toJson (t : Table) : Plain t.toJson := by
  refine plain_record ?_
  have hkey : Plain ((t.key.map fun (i : Nat) => Json.number i).getD .null) := by
    cases t.key with
    | none => exact .null
    | some i => exact .integer i
  simpa using ⟨.text _, plain_array_map _ Column.plain_toJson,
    plain_array_map _ fun is => plain_array_map is fun i => .integer i, hkey,
    plain_array_map _ fun values => plain_array_map values plain_valueJson⟩

end Tables

namespace Store

theorem plain_toJson (s : Store) : Plain s.toJson := plain_array_map s.tables Table.plain_toJson

theorem tables_toJson (s : Store) : list? Table.ofJson? s.toJson.ordered = some s.tables :=
  list?_array fun t _ => t.ofJson?_toJson

/-- The tables that were kept in a file are found in it. -/
theorem ofImage?_image (s : Store) : ofImage? s.image = some s := by
  obtain ⟨tables⟩ := s
  -- without tables the file is empty; any other starts with the header
  cases htables : tables.isEmpty with
  | true =>
    rw [List.isEmpty_iff] at htables
    rw [htables]
    rfl
  | false =>
    obtain ⟨t, ht, hread⟩ := Json.read?_toText (plain_toJson ⟨tables⟩)
    have himage : image ⟨tables⟩ = header ++ Utf8.encode t := by
      rw [image, htables, ht]
      rfl
    have hheader : (header ++ Utf8.encode t).isEmpty = false := rfl
    have hback : Json.read? t = some (toJson ⟨tables⟩).ordered := by
      simpa using hread [] (by simp)
    rw [himage, ofImage?, hheader]
    simp only [Bool.false_eq_true, if_false, List.take_left, List.drop_left, ne_eq,
      not_true_eq_false]
    rw [Utf8.decode_eq_ok_iff.2 rfl]
    have hread' := tables_toJson ⟨tables⟩
    rw [list?] at hread'
    simp only [hback, itemsOf?_eq_items?, Option.bind_eq_bind, Option.bind_some]
    rw [← Option.bind_assoc, hread']
    rfl

end Store

theorem Embedded.ofImage_image (s : Store) : Embedded.ofImage s.image = .ofStore s := by
  rw [Embedded.ofImage, s.ofImage?_image]

end StoredRoutine.Scratch
