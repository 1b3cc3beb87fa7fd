/-!
Maps that remember the order in which their keys were first written. Writing a key again keeps its
place and replaces its value, so a key occurs once.
-/
namespace StoredRoutine

structure OrderedMap (κ ν : Type) where
  entries : List (κ × ν)
  nodup : (entries.map Prod.fst).Nodup
  deriving DecidableEq, Repr

namespace OrderedMap

variable {κ ν : Type} [DecidableEq κ]

/-- The entries with a value written under a key: in its place if it is there, else at the end. -/
def write : List (κ × ν) → κ → ν → List (κ × ν)
  | [], k, v => [(k, v)]
  | e :: es, k, v => if e.1 = k then (k, v) :: es else e :: write es k v

theorem mem_keys_write {es : List (κ × ν)} {k a : κ} {v : ν} :
    a ∈ (write es k v).map Prod.fst ↔ a = k ∨ a ∈ es.map Prod.fst := by
  induction es with
  | nil => simp [write]
  | cons e es ih =>
    by_cases h : e.1 = k
    · simp [write, h]
    · simp only [write, h, if_false, List.map_cons, List.mem_cons, ih]
      grind

theorem nodup_write {es : List (κ × ν)} (k : κ) (v : ν) (h : (es.map Prod.fst).Nodup) :
    ((write es k v).map Prod.fst).Nodup := by
  induction es with
  | nil => simp [write]
  | cons e es ih =>
    rw [List.map_cons, List.nodup_cons] at h
    by_cases he : e.1 = k
    · rw [write, if_pos he, List.map_cons, List.nodup_cons]
      exact he ▸ h
    · rw [write, if_neg he, List.map_cons, List.nodup_cons, mem_keys_write]
      exact ⟨by simp [he, h.1], ih h.2⟩

def empty : OrderedMap κ ν := ⟨[], List.nodup_nil⟩

instance : EmptyCollection (OrderedMap κ ν) := ⟨empty⟩
instance : Inhabited (OrderedMap κ ν) := ⟨empty⟩

def insert (m : OrderedMap κ ν) (k : κ) (v : ν) : OrderedMap κ ν :=
  ⟨write m.entries k v, nodup_write k v m.nodup⟩

/-- The map without a key. -/
def erase (m : OrderedMap κ ν) (k : κ) : OrderedMap κ ν :=
  ⟨m.entries.filter (·.1 ≠ k), (List.filter_sublist.map _).nodup m.nodup⟩

def get? (m : OrderedMap κ ν) (k : κ) : Option ν := m.entries.lookup k

def keys (m : OrderedMap κ ν) : List κ := m.entries.map Prod.fst

def contains (m : OrderedMap κ ν) (k : κ) : Bool := (m.get? k).isSome

def size (m : OrderedMap κ ν) : Nat := m.entries.length

def isEmpty (m : OrderedMap κ ν) : Bool := m.entries.isEmpty

/-- A map with other entries written over it, in their order. -/
def insertMany (m : OrderedMap κ ν) (es : List (κ × ν)) : OrderedMap κ ν :=
  es.foldl (fun m e => m.insert e.1 e.2) m

def ofList (es : List (κ × ν)) : OrderedMap κ ν := insertMany ∅ es

def union (m n : OrderedMap κ ν) : OrderedMap κ ν := m.insertMany n.entries

omit [DecidableEq κ] in
/-- The map with each value put in another form. -/
def mapValues {μ : Type} (f : ν → μ) (m : OrderedMap κ ν) : OrderedMap κ μ :=
  ⟨m.entries.map fun e => (e.1, f e.2), by simpa [Function.comp_def] using m.nodup⟩

@[simp] theorem get?_empty (k : κ) : (∅ : OrderedMap κ ν).get? k = none := rfl

omit [DecidableEq κ] in
@[simp] theorem keys_empty : (∅ : OrderedMap κ ν).keys = [] := rfl

@[simp] theorem get?_mapValues {μ : Type} (f : ν → μ) (m : OrderedMap κ ν) (k : κ) :
    (m.mapValues f).get? k = (m.get? k).map f := by
  obtain ⟨es, hd⟩ := m
  simp only [mapValues, get?]
  clear hd
  induction es with
  | nil => rfl
  | cons e es ih =>
    rw [List.map_cons, List.lookup_cons, List.lookup_cons, ih]
    cases k == e.1 <;> rfl

@[simp] theorem get?_insert (m : OrderedMap κ ν) (k a : κ) (v : ν) :
    (m.insert k v).get? a = if a = k then some v else m.get? a := by
  obtain ⟨es, hd⟩ := m
  simp only [insert, get?]
  clear hd
  induction es with
  | nil => grind [write]
  | cons e es ih => grind [write]

end OrderedMap

end StoredRoutine
