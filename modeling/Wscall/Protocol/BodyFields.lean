import Wscall.Protocol.BodyRoundTrip

/-!
# The values a body is decoded from (`wscall-protocol/src/lib.rs:439-449`, `504-756`)

`deserialize` moves the fields out of the object with a helper for each type: one rejects,
one falls back to a default, one converts. `FieldsOf` says what each variant takes from its
object, and a field of the documented type then comes out of `serialize` as it went in,
except that `take_u16` cuts a status down to 16 bits.
-/

namespace Wscall.Protocol
open RustStd

/-! ### What a body takes from its object -/

/-- `take_error`: the payload that `er` holds, if the key is there. -/
def ErrorOf (map : Map) (er : Option ErrorPayload) : Prop :=
  match map.get "er" with
  | none => er = none
  | some v => ∃ e, errorFromValue v = .ok e ∧ er = some e

def ObjectOf (map : Map) (key : String) (o : Map) : Prop :=
  match map.get key with
  | none => o = .empty
  | some v => v.asObject = some o

def valueOf (map : Map) (key : String) : Value := (map.get key).getD .null

def unsignedOf (map : Map) (key : String) : Option UInt64 := (map.get key).bind Value.asU64

def stringOf (map : Map) (key : String) : Option String := (map.get key).bind Value.asStr

def boolOf (map : Map) (key : String) : Bool := ((map.get key).bind Value.asBool).getD false

def FieldsOf (map : Map) : PacketBody → Prop
  | .apiRequest i r p _ m =>
    unsignedOf map "i" = some i ∧ stringOf map "r" = some r ∧ p = valueOf map "p" ∧
      m = valueOf map "m"
  | .eventEmit i n d _ m e =>
    unsignedOf map "i" = some i ∧ stringOf map "n" = some n ∧ ObjectOf map "d" d ∧
      m = valueOf map "m" ∧ e = boolOf map "e"
  | .apiResponse i ok s d er m =>
    unsignedOf map "i" = some i ∧ ok = boolOf map "o" ∧
      s = ((unsignedOf map "s").getD 0).toUInt16 ∧ d = valueOf map "d" ∧ ErrorOf map er ∧
      m = valueOf map "m"
  | .eventAck i ok rc er =>
    unsignedOf map "i" = some i ∧ ok = boolOf map "o" ∧ rc = valueOf map "rc" ∧ ErrorOf map er
  | .authRequest c => stringOf map "c" = some c
  | .authResponse ok st er => ok = boolOf map "o" ∧ st = unsignedOf map "st" ∧ ErrorOf map er

section Taking

variable {map map' : Map} {key : String}

theorem takeU64_inv {n : UInt64} (h : takeU64 map key = .ok (n, map')) :
    unsignedOf map key = some n ∧ map' = (map.remove key).2 := by
  unfold takeU64 at h
  split at h <;> cases h
  exact ⟨‹_›, rfl⟩

theorem takeString_inv {s : String} (h : takeString map key = .ok (s, map')) :
    stringOf map key = some s ∧ map' = (map.remove key).2 := by
  unfold takeString at h
  split at h <;> cases h
  exact ⟨‹_›, rfl⟩

theorem takeObject_inv {o : Map} (h : takeObject map key = .ok (o, map')) :
    ObjectOf map key o ∧ map' = (map.remove key).2 := by
  unfold takeObject at h
  unfold ObjectOf
  rw [Map.remove_fst] at h
  cases hget : map.get key with
  | none =>
    rw [hget] at h
    cases h
    exact ⟨rfl, rfl⟩
  | some v =>
    simp only [hget] at h
    split at h <;> cases h
    exact ⟨‹_›, rfl⟩

theorem takeAttachments_inv {as : List FileAttachment} (h : takeAttachments map = .ok (as, map')) :
    map' = (map.remove "a").2 := by
  unfold takeAttachments at h
  split at h
  · cases h
    rfl
  · split at h
    · rename_i items _
      cases hm : items.mapM attachmentFromTree with
      | error e => simp [hm, Except.map] at h
      | ok bs =>
        simp only [hm, Except.map, Except.ok.injEq, Prod.mk.injEq] at h
        exact h.2.symm
    · cases h

theorem takeError_inv {er : Option ErrorPayload} (h : takeError map = .ok (er, map')) :
    ErrorOf map er ∧ map' = (map.remove "er").2 := by
  unfold takeError at h
  unfold ErrorOf
  rw [Map.remove_fst] at h
  cases hget : map.get "er" with
  | none =>
    rw [hget] at h
    cases h
    exact ⟨rfl, rfl⟩
  | some v =>
    simp only [hget] at h
    cases he : errorFromValue v with
    | error e => simp [he, Except.map] at h
    | ok e =>
      simp only [he, Except.map, Except.ok.injEq, Prod.mk.injEq] at h
      exact ⟨⟨e, he, h.1.symm⟩, h.2.symm⟩

end Taking

theorem fromFields_inv {k : UInt8} {map : Map} {b : PacketBody}
    (h : PacketBody.fromFields k map = .ok b) : k = b.kind ∧ FieldsOf map b := by
  unfold PacketBody.fromFields at h
  split_ifs at h with h0 h1 h2 h3 h4 h5
  · obtain ⟨⟨i, m1⟩, hi, h⟩ := bind_eq_ok h
    obtain ⟨⟨r, m2⟩, hr, h⟩ := bind_eq_ok h
    obtain ⟨⟨as, m3⟩, ha, h⟩ := bind_eq_ok h
    cases h
    obtain ⟨hi', rfl⟩ := takeU64_inv hi
    obtain ⟨hr', rfl⟩ := takeString_inv hr
    obtain rfl := takeAttachments_inv ha
    refine ⟨h0, hi', ?_, ?_, ?_⟩
    · simpa [stringOf, Map.get_remove] using hr'
    · simp [valueOf, Map.get_remove]
    · simp [valueOf, Map.get_remove]
  · obtain ⟨⟨i, m1⟩, hi, h⟩ := bind_eq_ok h
    obtain ⟨⟨n, m2⟩, hn, h⟩ := bind_eq_ok h
    obtain ⟨⟨d, m3⟩, hd, h⟩ := bind_eq_ok h
    obtain ⟨⟨as, m4⟩, ha, h⟩ := bind_eq_ok h
    cases h
    obtain ⟨hi', rfl⟩ := takeU64_inv hi
    obtain ⟨hn', rfl⟩ := takeString_inv hn
    obtain ⟨hd', rfl⟩ := takeObject_inv hd
    obtain rfl := takeAttachments_inv ha
    refine ⟨h1, hi', ?_, ?_, ?_, ?_⟩
    · simpa [stringOf, Map.get_remove] using hn'
    · simpa [ObjectOf, Map.get_remove] using hd'
    · simp [valueOf, Map.get_remove]
    · simp [boolOf, Map.get_remove]
  · obtain ⟨⟨i, m1⟩, hi, h⟩ := bind_eq_ok h
    obtain ⟨⟨er, m2⟩, her, h⟩ := bind_eq_ok h
    cases h
    obtain ⟨hi', rfl⟩ := takeU64_inv hi
    obtain ⟨her', rfl⟩ := takeError_inv her
    refine ⟨h2, hi', ?_, ?_, ?_, ?_, ?_⟩
    · simp [boolOf, Map.get_remove]
    · simp [unsignedOf, Map.get_remove]
    · simp [valueOf, Map.get_remove]
    · simpa [ErrorOf, Map.get_remove] using her'
    · simp [valueOf, Map.get_remove]
  · obtain ⟨⟨i, m1⟩, hi, h⟩ := bind_eq_ok h
    obtain ⟨⟨er, m2⟩, her, h⟩ := bind_eq_ok h
    cases h
    obtain ⟨hi', rfl⟩ := takeU64_inv hi
    obtain ⟨her', rfl⟩ := takeError_inv her
    refine ⟨h3, hi', ?_, ?_, ?_⟩
    · simp [boolOf, Map.get_remove]
    · simp [valueOf, Map.get_remove]
    · simpa [ErrorOf, Map.get_remove] using her'
  · obtain ⟨⟨c, m1⟩, hc, h⟩ := bind_eq_ok h
    cases h
    exact ⟨h4, (takeString_inv hc).1⟩
  · obtain ⟨⟨er, m1⟩, her, h⟩ := bind_eq_ok h
    cases h
    obtain ⟨her', rfl⟩ := takeError_inv her
    refine ⟨h5, ?_, ?_, ?_⟩
    · simp [boolOf]
    · simp [unsignedOf, Map.get_remove]
    · simpa [ErrorOf, Map.get_remove] using her'

theorem deserialize_inv {map : Map} {b : PacketBody}
    (h : PacketBody.deserialize (.object map) = .ok b) :
    unsignedOf map "k" = some b.kind.toUInt64 ∧ FieldsOf map b := by
  have hobj : (Value.object map).asObject = some map := rfl
  simp only [PacketBody.deserialize, hobj] at h
  split at h
  · cases h
  · rename_i k hk
    split_ifs at h with hlt
    obtain ⟨hkind, hfields⟩ := fromFields_inv h
    refine ⟨?_, hfields⟩
    rw [unsignedOf, hk, ← hkind]
    simp [Nat.mod_eq_of_lt hlt, ← UInt64.toNat_inj]

/-! ### The documented fields -/

inductive Shape where
  | unsigned
  | boolean
  | text
  | object
  | any
  | error

def Shape.Admits : Shape → Value → Prop
  | .unsigned, v => v.asU64.isSome
  | .boolean, v => v.asBool.isSome
  | .text, v => v.asStr.isSome
  | .object, v => v.asObject.isSome
  | .any, _ => True
  | .error, v => v.asObject.isSome

/-- The field table of `PacketBody` without `a` (`lib.rs:442-449`). -/
def PacketBody.fieldTable : PacketBody → List (String × Shape)
  | apiRequest .. =>
    [("k", .unsigned), ("i", .unsigned), ("r", .text), ("p", .any), ("m", .any)]
  | eventEmit .. =>
    [("k", .unsigned), ("i", .unsigned), ("n", .text), ("d", .object), ("m", .any), ("e", .boolean)]
  | apiResponse .. =>
    [("k", .unsigned), ("i", .unsigned), ("o", .boolean), ("s", .unsigned), ("d", .any), ("m", .any),
      ("er", .error)]
  | eventAck .. => [("k", .unsigned), ("i", .unsigned), ("o", .boolean), ("rc", .any), ("er", .error)]
  | authRequest .. => [("k", .unsigned), ("c", .text)]
  | authResponse .. => [("k", .unsigned), ("o", .boolean), ("st", .unsigned), ("er", .error)]

/-- An error object without its unknown keys and without a null `details`. -/
def prunedError (m : Map) : Tree :=
  .object ((["code", "message", "status"].filterMap fun key => (m.get key).map fun v => (key, v.tree)) ++
    (((m.get "details").bind optionFromValue).map fun v => ("details", v.tree)).toList)

/-- What `serialize` writes under a key that held `v`. -/
def Kept (key : String) (v : Value) (written : Option Tree) : Prop :=
  if key = "er" then ∃ m, v.asObject = some m ∧ written = some (prunedError m)
  else written = some v.tree ∨ (key = "m" ∧ metadataIsEmpty v = true ∧ written = none)

/-- Every documented field that holds a value of its type is written back. -/
def KeepsFields (map : Map) (b : PacketBody) : Prop :=
  ∀ field ∈ b.fieldTable, ∀ v, map.get field.1 = some v → field.2.Admits v →
    Kept field.1 v (SortedAssoc.get field.1 b.entries)

/-- The `s` of a response, if it is a number, is one that 16 bits hold. -/
def StatusFits (map : Map) : Prop :=
  unsignedOf map "k" = some 2 → ∀ n, unsignedOf map "s" = some n → n.toNat < 2 ^ 16

section Shapes

variable {v : Value}

theorem tree_of_asU64 {n : UInt64} (h : v.asU64 = some n) : v.tree = .u64 n := by
  unfold Value.asU64 at h
  split at h <;> cases h
  assumption

theorem tree_of_asBool {b : Bool} (h : v.asBool = some b) : v.tree = .bool b := by
  unfold Value.asBool at h
  split at h <;> cases h
  assumption

theorem tree_of_asStr {s : String} (h : v.asStr = some s) : v.tree = .string s := by
  unfold Value.asStr at h
  split at h <;> cases h
  assumption

theorem tree_of_asObject {m : Map} (h : v.asObject = some m) : v.tree = .object m.entries := by
  unfold Value.asObject at h
  split at h <;> cases h
  assumption

/-- A value that is read as a body is an object with the fields of that body. -/
theorem deserialize_fields {b : PacketBody} (h : PacketBody.deserialize v = .ok b) :
    ∃ map, v.asObject = some map ∧ unsignedOf map "k" = some b.kind.toUInt64 ∧ FieldsOf map b := by
  cases hobj : v.asObject with
  | none => simp [PacketBody.deserialize, hobj] at h
  | some map =>
    have hv : v = .object map := Value.ext (tree_of_asObject hobj)
    exact ⟨map, rfl, deserialize_inv (hv ▸ h)⟩

theorem stringFromTree_inv {t : Tree} {s : String} (h : stringFromTree t = .ok s) :
    t = .string s := by
  unfold stringFromTree at h
  split at h <;> cases h
  rfl

theorem toUInt16_toUInt64 {n : UInt64} : n.toUInt16.toUInt64 = n ↔ n.toNat < 2 ^ 16 := by
  rw [← UInt64.toNat_inj]
  simp only [UInt16.toNat_toUInt64, UInt64.toNat_toUInt16]
  omega

theorem u16FromValue_inv {s : UInt16} (h : u16FromValue v = .ok s) : v.tree = .u64 s.toUInt64 := by
  unfold u16FromValue at h
  split at h
  · rename_i n hn
    split_ifs at h with hlt
    cases h
    rw [hn, toUInt16_toUInt64.mpr hlt]
    rfl
  · cases h

/-- A payload that was read from an object is that object, pruned. -/
theorem serialize_errorFromValue {e : ErrorPayload} {m : Map} (hm : v.asObject = some m)
    (h : errorFromValue v = .ok e) : e.serialize = prunedError m := by
  simp only [errorFromValue, hm] at h
  split at h
  · rename_i code message status hcode hmessage hstatus
    obtain ⟨c, hc, h⟩ := bind_eq_ok h
    obtain ⟨t, ht, h⟩ := bind_eq_ok h
    obtain ⟨s, hs, h⟩ := bind_eq_ok h
    cases h
    simp only [ErrorPayload.serialize, prunedError, List.filterMap_cons, List.filterMap_nil, hcode,
      hmessage, hstatus, Option.map_some, stringFromTree_inv hc, stringFromTree_inv ht,
      u16FromValue_inv hs]
    cases (m.get "details").bind optionFromValue <;> rfl
  · cases h

end Shapes

section Fields

variable {map : Map} {key : String} {v : Value}

theorem kept_of_tree {written : Option Tree} (hkey : key ≠ "er") (h : written = some v.tree) :
    Kept key v written := by
  rw [Kept, if_neg hkey]
  exact .inl h

theorem tree_of_unsignedOf (hv : map.get key = some v) {n : UInt64}
    (h : unsignedOf map key = some n) : v.tree = .u64 n := by
  rw [unsignedOf, hv, Option.bind_some] at h
  exact tree_of_asU64 h

theorem tree_of_stringOf (hv : map.get key = some v) {s : String}
    (h : stringOf map key = some s) : v.tree = .string s := by
  rw [stringOf, hv, Option.bind_some] at h
  exact tree_of_asStr h

theorem tree_of_boolOf (hv : map.get key = some v) (hadm : Shape.boolean.Admits v) :
    v.tree = .bool (boolOf map key) := by
  obtain ⟨b, hb⟩ := Option.isSome_iff_exists.mp hadm
  rw [boolOf, hv, Option.bind_some, hb]
  exact tree_of_asBool hb

theorem valueOf_eq (hv : map.get key = some v) : valueOf map key = v := by
  rw [valueOf, hv, Option.getD_some]

theorem tree_of_objectOf (hv : map.get key = some v) {o : Map} (h : ObjectOf map key o) :
    v.tree = .object o.entries := by
  simp only [ObjectOf, hv] at h
  exact tree_of_asObject h

theorem kept_error (hv : map.get "er" = some v) (hadm : Shape.error.Admits v)
    {er : Option ErrorPayload} (h : ErrorOf map er) :
    Kept "er" v (SortedAssoc.get "er" (errorEntry er)) := by
  simp only [ErrorOf, hv] at h
  obtain ⟨e, he, rfl⟩ := h
  obtain ⟨m, hm⟩ := Option.isSome_iff_exists.mp hadm
  rw [Kept, if_pos rfl]
  exact ⟨m, hm, by simp [errorEntry, SortedAssoc.get, serialize_errorFromValue hm he]⟩

theorem kept_metadata (hv : map.get "m" = some v) :
    Kept "m" v (SortedAssoc.get "m" (metadataEntry (valueOf map "m"))) := by
  rw [Kept, if_neg (by decide), valueOf_eq hv, metadataEntry]
  split_ifs with hempty
  · exact .inr ⟨rfl, hempty, rfl⟩
  · exact .inl (by simp [SortedAssoc.get])

end Fields

section Variants

variable {map : Map} {b : PacketBody}

theorem keepsFields_of_fits (hk : unsignedOf map "k" = some b.kind.toUInt64)
    (hf : FieldsOf map b) (hfits : StatusFits map) : KeepsFields map b := by
  intro field hmem v hv hadm
  have htag : field.1 = "k" → v.tree = .kind b.kind := fun heq =>
    tree_of_unsignedOf (heq ▸ hv) hk
  cases b with
  | apiRequest i r p as m =>
    obtain ⟨hi, hr, rfl, rfl⟩ := hf
    simp only [PacketBody.fieldTable, List.mem_cons, List.not_mem_nil, or_false] at hmem
    rcases hmem with rfl | rfl | rfl | rfl | rfl
    · exact kept_of_tree (by decide) (by rw [htag rfl]; rfl)
    · exact kept_of_tree (by decide) (by rw [tree_of_unsignedOf hv hi]; rfl)
    · exact kept_of_tree (by decide) (by rw [tree_of_stringOf hv hr]; rfl)
    · exact kept_of_tree (by decide) (by rw [← valueOf_eq hv]; rfl)
    · exact kept_metadata hv
  | eventEmit i n d as m e =>
    obtain ⟨hi, hn, hd, rfl, rfl⟩ := hf
    simp only [PacketBody.fieldTable, List.mem_cons, List.not_mem_nil, or_false] at hmem
    rcases hmem with rfl | rfl | rfl | rfl | rfl | rfl
    · exact kept_of_tree (by decide) (by rw [htag rfl]; rfl)
    · exact kept_of_tree (by decide) (by rw [tree_of_unsignedOf hv hi]; rfl)
    · exact kept_of_tree (by decide) (by rw [tree_of_stringOf hv hn]; rfl)
    · exact kept_of_tree (by decide) (by rw [tree_of_objectOf hv hd]; rfl)
    · have hkept := kept_metadata hv
      simpa [PacketBody.entries, SortedAssoc.get, SortedAssoc.get_append] using hkept
    · refine kept_of_tree (by decide) ?_
      rw [tree_of_boolOf hv hadm]
      simp [PacketBody.entries, SortedAssoc.get, SortedAssoc.get_append, get_metadataEntry]
  | apiResponse i ok s d er m =>
    obtain ⟨hi, rfl, rfl, rfl, her, rfl⟩ := hf
    simp only [PacketBody.fieldTable, List.mem_cons, List.not_mem_nil, or_false] at hmem
    rcases hmem with rfl | rfl | rfl | rfl | rfl | rfl | rfl
    · exact kept_of_tree (by decide) (by rw [htag rfl]; rfl)
    · exact kept_of_tree (by decide) (by rw [tree_of_unsignedOf hv hi]; rfl)
    · exact kept_of_tree (by decide) (by rw [tree_of_boolOf hv hadm]; rfl)
    · obtain ⟨n, hn⟩ := Option.isSome_iff_exists.mp hadm
      have hs : unsignedOf map "s" = some n := by rw [unsignedOf, hv, Option.bind_some, hn]
      refine kept_of_tree (by decide) ?_
      rw [tree_of_asU64 hn, hs]
      exact congrArg (fun n => some (Tree.u64 n)) (toUInt16_toUInt64.mpr (hfits hk n hs))
    · exact kept_of_tree (by decide) (by rw [← valueOf_eq hv]; rfl)
    · have hkept := kept_metadata hv
      simpa [PacketBody.entries, SortedAssoc.get, SortedAssoc.get_append, get_errorEntry] using hkept
    · have hkept := kept_error hv hadm her
      simpa [PacketBody.entries, SortedAssoc.get, SortedAssoc.get_append, get_metadataEntry] using hkept
  | eventAck i ok rc er =>
    obtain ⟨hi, rfl, rfl, her⟩ := hf
    simp only [PacketBody.fieldTable, List.mem_cons, List.not_mem_nil, or_false] at hmem
    rcases hmem with rfl | rfl | rfl | rfl | rfl
    · exact kept_of_tree (by decide) (by rw [htag rfl]; rfl)
    · exact kept_of_tree (by decide) (by rw [tree_of_unsignedOf hv hi]; rfl)
    · exact kept_of_tree (by decide) (by rw [tree_of_boolOf hv hadm]; rfl)
    · exact kept_of_tree (by decide) (by rw [← valueOf_eq hv]; rfl)
    · exact kept_error hv hadm her
  | authRequest c =>
    simp only [PacketBody.fieldTable, List.mem_cons, List.not_mem_nil, or_false] at hmem
    rcases hmem with rfl | rfl
    · exact kept_of_tree (by decide) (by rw [htag rfl]; rfl)
    · exact kept_of_tree (by decide) (by rw [tree_of_stringOf hv hf]; rfl)
  | authResponse ok st er =>
    obtain ⟨rfl, rfl, her⟩ := hf
    simp only [PacketBody.fieldTable, List.mem_cons, List.not_mem_nil, or_false] at hmem
    rcases hmem with rfl | rfl | rfl | rfl
    · exact kept_of_tree (by decide) (by rw [htag rfl]; rfl)
    · exact kept_of_tree (by decide) (by rw [tree_of_boolOf hv hadm]; rfl)
    · obtain ⟨n, hn⟩ := Option.isSome_iff_exists.mp hadm
      have hst : unsignedOf map "st" = some n := by rw [unsignedOf, hv, Option.bind_some, hn]
      refine kept_of_tree (by decide) ?_
      rw [tree_of_asU64 hn, hst]
      rfl
    · have hkept := kept_error hv hadm her
      cases unsignedOf map "st" <;>
        simpa [PacketBody.entries, SortedAssoc.get] using hkept

theorem fits_of_keepsFields (hk : unsignedOf map "k" = some b.kind.toUInt64)
    (hf : FieldsOf map b) (hkeeps : KeepsFields map b) : StatusFits map := by
  intro htwo n hn
  have hkind : b.kind.toUInt64 = 2 := Option.some.inj (hk.symm.trans htwo)
  cases b with
  | apiResponse i ok s d er m =>
    obtain ⟨v, hv, hasU64⟩ := Option.bind_eq_some_iff.mp hn
    have hkept := hkeeps ("s", .unsigned) (by simp [PacketBody.fieldTable]) v hv
      (by simp [Shape.Admits, hasU64])
    have hwritten : SortedAssoc.get "s" (PacketBody.apiResponse i ok s d er m).entries =
        some (.u64 s.toUInt64) := rfl
    rw [Kept, if_neg (by decide), hwritten, tree_of_asU64 hasU64, hf.2.2.1, hn] at hkept
    rcases hkept with hkept | ⟨hkept, -⟩
    · refine toUInt16_toUInt64.mp ?_
      simpa [Tree.u64] using hkept
    · simp at hkept
  | _ => exact absurd hkind (by simp only [PacketBody.kind]; decide)

end Variants

/-- The two values are told apart by no body: equal, both an empty `m`, or the same error
object after pruning. -/
def Confused (key : String) (v v' : Value) : Prop :=
  v = v' ∨ (key = "m" ∧ metadataIsEmpty v = true ∧ metadataIsEmpty v' = true) ∨
    (key = "er" ∧ ∃ m m', v.asObject = some m ∧ v'.asObject = some m' ∧ prunedError m = prunedError m')

theorem confused_of_kept {key : String} {v v' : Value} {written : Option Tree}
    (h : Kept key v written) (h' : Kept key v' written) : Confused key v v' := by
  unfold Kept at h h'
  split_ifs at h h' with hkey
  · obtain ⟨m, hm, rfl⟩ := h
    obtain ⟨m', hm', heq⟩ := h'
    exact .inr (.inr ⟨hkey, m, m', hm, hm', Option.some.inj heq⟩)
  · rcases h with rfl | ⟨hm, hempty, rfl⟩
    · rcases h' with h' | ⟨-, -, h'⟩
      · exact .inl (Value.ext (Option.some.inj h'))
      · cases h'
    · rcases h' with h' | ⟨-, hempty', -⟩
      · cases h'
      · exact .inr (.inl ⟨hm, hempty, hempty'⟩)

/-- An accepted object's documented fields are written back exactly when the status of a
response fits 16 bits; two such objects with one body agree on them. -/
theorem keepsFields_iff {map : Map} {b : PacketBody}
    (h : PacketBody.deserialize (.object map) = .ok b) :
    (KeepsFields map b ↔ StatusFits map) ∧
    ∀ map', PacketBody.deserialize (.object map') = .ok b → StatusFits map → StatusFits map' →
      ∀ field ∈ b.fieldTable, ∀ v v', map.get field.1 = some v → map'.get field.1 = some v' →
        field.2.Admits v → field.2.Admits v' → Confused field.1 v v' := by
  obtain ⟨hk, hf⟩ := deserialize_inv h
  refine ⟨⟨fits_of_keepsFields hk hf, keepsFields_of_fits hk hf⟩, ?_⟩
  intro map' h' hfits hfits' field hmem v v' hv hv' hadm hadm'
  obtain ⟨hk', hf'⟩ := deserialize_inv h'
  exact confused_of_kept (keepsFields_of_fits hk hf hfits field hmem v hv hadm)
    (keepsFields_of_fits hk' hf' hfits' field hmem v' hv' hadm')

def responseWith (status : UInt64) : Map :=
  .ofEntries [("k", .u64 2), ("i", .u64 7), ("o", .bool true), ("s", .u64 status), ("d", .null)]

theorem keepsFields_iff_ok : ∃ b, PacketBody.deserialize (.object (responseWith 200)) = .ok b ∧
    KeepsFields (responseWith 200) b := by
  have h : PacketBody.deserialize (.object (responseWith 200)) =
      .ok (.apiResponse 7 true 200 .null none .null) := rfl
  refine ⟨_, h, (keepsFields_iff h).1.mpr fun _ n hn => ?_⟩
  cases hn
  decide

/-- Status 65736 is read as 200, and the object is taken for the one with status 200. -/
theorem wideStatus_lost : ∃ b, PacketBody.deserialize (.object (responseWith 65736)) = .ok b ∧
    PacketBody.deserialize (.object (responseWith 200)) = .ok b ∧
    ¬ KeepsFields (responseWith 65736) b := by
  have h : PacketBody.deserialize (.object (responseWith 65736)) =
      .ok (.apiResponse 7 true 200 .null none .null) := rfl
  refine ⟨_, h, rfl, fun hkeeps => ?_⟩
  obtain ⟨hk, hf⟩ := deserialize_inv h
  exact absurd (fits_of_keepsFields hk hf hkeeps hk 65736 rfl) (by decide)

end Wscall.Protocol
