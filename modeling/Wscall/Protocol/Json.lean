import Mathlib.Data.String.Basic
import Wscall.Lib.RustBytes
import Wscall.Lib.SortedAssoc

/-!
# JSON values as serde_json holds them

`Tree` is what a serializer is handed: objects are entry lists in emission order.
A `Value` is a tree every object of which is an ordered map without repeated keys
(serde_json's `Map` is a `BTreeMap` here: the workspace enables no
`preserve_order`). The text layer of serde_json is outside the repository and
stays a parameter, `SerdeJson`.
-/

namespace Wscall.Protocol
open RustStd

/-- `serde_json::Number`. A finite double is held by its bit pattern. -/
inductive Number where
  | posInt (n : UInt64)
  | negInt (n : Int64)
  | float (bits : UInt64)
  deriving DecidableEq

inductive Tree where
  | null
  | bool (b : Bool)
  | number (n : Number)
  | string (s : String)
  | array (items : List Tree)
  | object (entries : List (String × Tree))

/-! ### Canonical trees -/

-- Every object at every depth has strictly increasing keys.
mutual
def Tree.Canonical : Tree → Prop
  | .array items => CanonicalItems items
  | .object entries => SortedAssoc.Sorted entries ∧ CanonicalEntries entries
  | _ => True
def CanonicalItems : List Tree → Prop
  | [] => True
  | t :: ts => t.Canonical ∧ CanonicalItems ts
def CanonicalEntries : List (String × Tree) → Prop
  | [] => True
  | (_, t) :: es => t.Canonical ∧ CanonicalEntries es
end

-- Reading an object inserts its entries one by one; a later entry of a key wins.
mutual
def Tree.canon : Tree → Tree
  | .array items => .array (canonItems items)
  | .object entries => .object (SortedAssoc.ofEntries (canonEntries entries))
  | t => t
def canonItems : List Tree → List Tree
  | [] => []
  | t :: ts => t.canon :: canonItems ts
def canonEntries : List (String × Tree) → List (String × Tree)
  | [] => []
  | (k, t) :: es => (k, t.canon) :: canonEntries es
end

-- Nesting depth: the number of arrays and objects around the innermost value.
mutual
def Tree.depth : Tree → ℕ
  | .array items => depthItems items + 1
  | .object entries => depthEntries entries + 1
  | _ => 0
def depthItems : List Tree → ℕ
  | [] => 0
  | t :: ts => max t.depth (depthItems ts)
def depthEntries : List (String × Tree) → ℕ
  | [] => 0
  | (_, t) :: es => max t.depth (depthEntries es)
end

theorem canonicalEntries_iff (es : List (String × Tree)) :
    CanonicalEntries es ↔ ∀ e ∈ es, e.2.Canonical := by
  induction es with
  | nil => simp [CanonicalEntries]
  | cons e es ih => simp [CanonicalEntries, ih]

mutual
theorem Tree.canon_canonical : (t : Tree) → t.canon.Canonical
  | .null => trivial
  | .bool _ => trivial
  | .number _ => trivial
  | .string _ => trivial
  | .array items => canonItems_canonical items
  | .object entries => by
    refine ⟨SortedAssoc.sorted_ofEntries _, ?_⟩
    rw [canonicalEntries_iff]
    intro e he
    exact (canonicalEntries_iff _).mp (canonEntries_canonical entries) e
      (SortedAssoc.mem_ofEntries he)
theorem canonItems_canonical : (ts : List Tree) → CanonicalItems (canonItems ts)
  | [] => trivial
  | t :: ts => ⟨t.canon_canonical, canonItems_canonical ts⟩
theorem canonEntries_canonical : (es : List (String × Tree)) → CanonicalEntries (canonEntries es)
  | [] => trivial
  | (_, t) :: es => ⟨t.canon_canonical, canonEntries_canonical es⟩
end

mutual
theorem Tree.canon_eq_self : (t : Tree) → t.Canonical → t.canon = t
  | .null, _ => rfl
  | .bool _, _ => rfl
  | .number _, _ => rfl
  | .string _, _ => rfl
  | .array items, h => congrArg Tree.array (canonItems_eq_self items h)
  | .object entries, h => by
    have hes := canonEntries_eq_self entries h.2
    simp only [Tree.canon, hes, SortedAssoc.ofEntries_eq_self h.1]
theorem canonItems_eq_self : (ts : List Tree) → CanonicalItems ts → canonItems ts = ts
  | [], _ => rfl
  | t :: ts, h => by simp only [canonItems, t.canon_eq_self h.1, canonItems_eq_self ts h.2]
theorem canonEntries_eq_self :
    (es : List (String × Tree)) → CanonicalEntries es → canonEntries es = es
  | [], _ => rfl
  | (_, t) :: es, h => by
    simp only [canonEntries, t.canon_eq_self h.1, canonEntries_eq_self es h.2]
end

/-! ### Values and maps -/

/-- `serde_json::Value`. -/
@[ext] structure Value where
  tree : Tree
  canonical : tree.Canonical

/-- `serde_json::Map<String, Value>`. -/
@[ext] structure Map where
  entries : List (String × Tree)
  sorted : SortedAssoc.Sorted entries
  values : CanonicalEntries entries

namespace Value

/-- What reading back the text of a tree yields. -/
def ofTree (t : Tree) : Value := ⟨t.canon, t.canon_canonical⟩

def null : Value := ⟨.null, trivial⟩
def bool (b : Bool) : Value := ⟨.bool b, trivial⟩
def string (s : String) : Value := ⟨.string s, trivial⟩
def object (m : Map) : Value := ⟨.object m.entries, m.sorted, m.values⟩
/-- `json!({})`. -/
def emptyObject : Value := ⟨.object [], List.Pairwise.nil, trivial⟩

theorem ofTree_tree (v : Value) : ofTree v.tree = v := by
  ext1
  exact v.tree.canon_eq_self v.canonical

def asObject (v : Value) : Option Map :=
  match h : v.tree with
  | .object entries =>
    have hc : (Tree.object entries).Canonical := h ▸ v.canonical
    some ⟨entries, hc.1, hc.2⟩
  | _ => none

def asU64 (v : Value) : Option UInt64 :=
  match v.tree with
  | .number (.posInt n) => some n
  | _ => none

def asBool (v : Value) : Option Bool :=
  match v.tree with
  | .bool b => some b
  | _ => none

def asStr (v : Value) : Option String :=
  match v.tree with
  | .string s => some s
  | _ => none

end Value

namespace Map

def empty : Map := ⟨[], List.Pairwise.nil, trivial⟩

def isEmpty (m : Map) : Bool := m.entries.isEmpty

def get (m : Map) (key : String) : Option Value :=
  match h : SortedAssoc.get key m.entries with
  | some t => some ⟨t, (canonicalEntries_iff _).mp m.values _ (SortedAssoc.get_mem h)⟩
  | none => none

theorem canonicalEntries_remove (m : Map) (key : String) :
    CanonicalEntries (SortedAssoc.remove key m.entries) := by
  rw [canonicalEntries_iff]
  intro e he
  exact (canonicalEntries_iff _).mp m.values e (List.mem_of_mem_filter he)

/-- `map.remove(key)`: the value moved out and the map without it. -/
def remove (m : Map) (key : String) : Option Value × Map :=
  (m.get key, ⟨SortedAssoc.remove key m.entries, SortedAssoc.sorted_remove key m.sorted,
    m.canonicalEntries_remove key⟩)

theorem get_eq_some {m : Map} {key : String} {v : Value}
    (h : SortedAssoc.get key m.entries = some v.tree) : m.get key = some v := by
  unfold get
  split
  · next t ht =>
    rw [h] at ht
    exact congrArg some (Value.ext (Option.some.inj ht).symm)
  · next ht =>
    rw [h] at ht
    cases ht

theorem get_eq_none {m : Map} {key : String} (h : SortedAssoc.get key m.entries = none) :
    m.get key = none := by
  unfold get
  split
  · next t ht =>
    rw [h] at ht
    cases ht
  · rfl

theorem get_tree (m : Map) (key : String) :
    (m.get key).map Value.tree = SortedAssoc.get key m.entries := by
  unfold get
  split <;> simp_all

@[simp] theorem remove_fst (m : Map) (key : String) : (m.remove key).1 = m.get key := rfl

theorem get_remove (m : Map) (key key' : String) :
    (m.remove key).2.get key' = if key' = key then none else m.get key' := by
  have h := SortedAssoc.get_remove key key' m.entries
  by_cases hk : key' = key
  · rw [if_pos hk] at h ⊢
    exact get_eq_none h
  · rw [if_neg hk] at h ⊢
    cases hg : m.get key' with
    | none =>
      have ht := m.get_tree key'
      rw [hg, ← h] at ht
      exact get_eq_none ht.symm
    | some v =>
      have ht := m.get_tree key'
      rw [hg, ← h] at ht
      exact get_eq_some ht.symm

end Map

/-! ### The text layer -/

/-- A `serde_json::Error`: raised by the code with its own text, or by the library. -/
inductive JsonError where
  | custom (message : String)
  | serde
  deriving DecidableEq

/-- serde_json's text layer: `to_writer` on what a `Serialize` impl emits, and
`from_slice` into a `Value`. -/
structure SerdeJson where
  nestingLimit : ℕ
  toWriter : Tree → Except JsonError Bytes
  fromSlice : Bytes → Except JsonError Value

/-- serde_json reads back what it printed, for trees within its nesting limit. -/
def SerdeJson.ParsesBack (json : SerdeJson) : Prop :=
  ∀ t text, json.toWriter t = .ok text → t.depth ≤ json.nestingLimit →
    json.fromSlice text = .ok (Value.ofTree t)

/-- The unsigned integer an object holds under a key. -/
def Value.unsignedAt (v : Value) (key : String) : Option UInt64 :=
  v.asObject.bind fun m => (m.get key).bind Value.asU64

/-- Whatever serde_json reads a printed object as, the unsigned integer under the key is the one
that was printed. A double need not come back: `float_roundtrip` is not enabled. -/
def SerdeJson.KeepsUnsigned (json : SerdeJson) (key : String) : Prop :=
  ∀ t text v n, json.toWriter t = .ok text → json.fromSlice text = .ok v →
    (Value.ofTree t).unsignedAt key = some n → v.unsignedAt key = some n

end Wscall.Protocol
