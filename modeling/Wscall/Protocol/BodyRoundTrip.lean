import Wscall.Protocol.Packet

/-!
# Reading a printed body back

`deserialize` undoes `serialize` up to two normalisations and the attachments, which
the JSON does not carry.
-/

namespace Wscall.Protocol
open RustStd

/-- A metadata of `{}` reads back as null. -/
def normalizeMetadata (v : Value) : Value := if metadataIsEmpty v then Value.null else v

/-- A `details` of `Some(null)` reads back as `None`. -/
def ErrorPayload.normalize (e : ErrorPayload) : ErrorPayload :=
  { e with details := e.details.bind optionFromValue }

def PacketBody.normalize : PacketBody → PacketBody
  | apiRequest i r p as m => apiRequest i r p as (normalizeMetadata m)
  | apiResponse i ok s d er m =>
    apiResponse i ok s d (er.map ErrorPayload.normalize) (normalizeMetadata m)
  | eventEmit i n d as m e => eventEmit i n d as (normalizeMetadata m) e
  | eventAck i ok rc er => eventAck i ok rc (er.map ErrorPayload.normalize)
  | authRequest c => authRequest c
  | authResponse ok st er => authResponse ok st (er.map ErrorPayload.normalize)

/-! ### Maps read from text -/

def Map.ofEntries (es : List (String × Tree)) : Map where
  entries := SortedAssoc.ofEntries (canonEntries es)
  sorted := SortedAssoc.sorted_ofEntries _
  values := ((Tree.object es).canon_canonical).2

theorem Value.ofTree_object (es : List (String × Tree)) :
    (Value.ofTree (.object es)).asObject = some (Map.ofEntries es) := rfl

theorem canonEntries_keys (es : List (String × Tree)) :
    (canonEntries es).map Prod.fst = es.map Prod.fst := by
  induction es with
  | nil => rfl
  | cons e es ih => simp [canonEntries, ih]

theorem get_canonEntries (es : List (String × Tree)) (key : String) :
    SortedAssoc.get key (canonEntries es) = (SortedAssoc.get key es).map Tree.canon := by
  induction es with
  | nil => rfl
  | cons e es ih =>
    simp only [canonEntries, SortedAssoc.get, ih]
    split_ifs <;> rfl

theorem Map.get_ofEntries (es : List (String × Tree)) (h : (es.map Prod.fst).Nodup)
    (key : String) :
    (Map.ofEntries es).get key = (SortedAssoc.get key es).map Value.ofTree := by
  have hget : SortedAssoc.get key (Map.ofEntries es).entries =
      (SortedAssoc.get key es).map Tree.canon := by
    rw [← get_canonEntries]
    exact SortedAssoc.get_ofEntries _ (by rwa [canonEntries_keys]) key
  cases hk : SortedAssoc.get key es with
  | none => exact Map.get_eq_none (by rw [hget, hk]; rfl)
  | some t => exact Map.get_eq_some (v := Value.ofTree t) (by rw [hget, hk]; rfl)

@[simp] theorem asU64_ofTree (n : UInt64) : (Value.ofTree (.u64 n)).asU64 = some n := rfl
@[simp] theorem asU64_kind (k : UInt8) : (Value.ofTree (.kind k)).asU64 = some k.toUInt64 := rfl
@[simp] theorem asBool_ofTree (b : Bool) : (Value.ofTree (.bool b)).asBool = some b := rfl
@[simp] theorem asStr_ofTree (s : String) : (Value.ofTree (.string s)).asStr = some s := rfl

@[simp] theorem asObject_ofTree (m : Map) : (Value.ofTree (.object m.entries)).asObject = some m := by
  rw [show Value.ofTree (.object m.entries) = Value.object m from Value.ofTree_tree (Value.object m)]
  rfl

attribute [simp] Value.ofTree_tree

/-! ### Error payloads -/

theorem u16FromValue_toUInt64 (s : UInt16) :
    u16FromValue (Value.ofTree (.u64 s.toUInt64)) = .ok s := by
  have hlt : s.toUInt64.toNat < 65536 := by
    have := s.toNat_lt
    simpa using this
  have hback : s.toUInt64.toUInt16 = s := by simp
  simp only [u16FromValue, Value.ofTree, Tree.u64, Tree.canon, hlt, if_true, hback]

theorem errorFromFields_ok (code message : String) (status : UInt16) (details : Option Value) :
    errorFromFields (Value.ofTree (.string code)) (Value.ofTree (.string message))
      (Value.ofTree (.u64 status.toUInt64)) details =
      .ok ⟨code, message, status, details.bind optionFromValue⟩ := by
  have hstr : ∀ s, stringFromTree (Value.ofTree (.string s)).tree = .ok s := fun _ => rfl
  simp only [errorFromFields, hstr, u16FromValue_toUInt64]
  rfl

theorem errorFromValue_serialize (e : ErrorPayload) :
    errorFromValue (Value.ofTree e.serialize) = .ok e.normalize := by
  obtain ⟨code, message, status, details⟩ := e
  cases details with
  | none =>
    have hget := Map.get_ofEntries [("code", Tree.string code), ("message", .string message),
      ("status", .u64 status.toUInt64)] (by simp)
    simp only [errorFromValue, ErrorPayload.serialize, List.append_nil, Value.ofTree_object, hget]
    simp [SortedAssoc.get, errorFromFields_ok, ErrorPayload.normalize]
  | some d =>
    have hget := Map.get_ofEntries [("code", Tree.string code), ("message", .string message),
      ("status", .u64 status.toUInt64), ("details", d.tree)] (by simp)
    simp only [errorFromValue, ErrorPayload.serialize, List.cons_append, List.nil_append,
      Value.ofTree_object, hget]
    simp [SortedAssoc.get, errorFromFields_ok, ErrorPayload.normalize]

/-! ### The six variants -/

theorem entries_nodup (b : PacketBody) : (b.entries.map Prod.fst).Nodup := by
  have hm : ∀ m, metadataEntry m = [] ∨ metadataEntry m = [("m", m.tree)] := fun m => by
    unfold metadataEntry
    split_ifs <;> simp
  cases b with
  | apiRequest i r p as m => rcases hm m with h | h <;> simp [PacketBody.entries, h]
  | apiResponse i ok s d er m =>
    cases er <;> rcases hm m with h | h <;> simp [PacketBody.entries, errorEntry, h]
  | eventEmit i n d as m e => rcases hm m with h | h <;> simp [PacketBody.entries, h]
  | eventAck i ok rc er => cases er <;> simp [PacketBody.entries, errorEntry]
  | authRequest c => simp [PacketBody.entries]
  | authResponse ok st er => cases st <;> cases er <;> simp [PacketBody.entries, errorEntry]

theorem get_entries (b : PacketBody) (key : String) :
    (Map.ofEntries b.entries).get key = (SortedAssoc.get key b.entries).map Value.ofTree :=
  Map.get_ofEntries _ (entries_nodup b) key

theorem takeMetadata (m : Value) (map : Map)
    (h : map.get "m" = (SortedAssoc.get "m" (metadataEntry m)).map Value.ofTree) :
    (takeValue map "m").1 = normalizeMetadata m := by
  simp only [takeValue, Map.remove_fst, h, metadataEntry, normalizeMetadata]
  split_ifs <;> simp [SortedAssoc.get]

theorem takeError_entry (er : Option ErrorPayload) (map : Map)
    (h : map.get "er" = (SortedAssoc.get "er" (errorEntry er)).map Value.ofTree) :
    takeError map = .ok (er.map ErrorPayload.normalize, (map.remove "er").2) := by
  cases er with
  | none => simp [takeError, h, errorEntry, SortedAssoc.get]
  | some e =>
    simp [takeError, h, errorEntry, SortedAssoc.get, errorFromValue_serialize, Except.map]

theorem get_metadataEntry {key : String} (h : key ≠ "m") (m : Value) :
    SortedAssoc.get key (metadataEntry m) = none := by
  unfold metadataEntry
  split_ifs <;> simp [SortedAssoc.get, h]

theorem get_errorEntry {key : String} (h : key ≠ "er") (er : Option ErrorPayload) :
    SortedAssoc.get key (errorEntry er) = none := by
  cases er <;> simp [errorEntry, SortedAssoc.get, h]

theorem takeU64_some {map : Map} {key : String} {n : UInt64}
    (h : map.get key = some (Value.ofTree (.u64 n))) :
    takeU64 map key = .ok (n, (map.remove key).2) := by
  simp [takeU64, h]

theorem takeString_some {map : Map} {key : String} {s : String}
    (h : map.get key = some (Value.ofTree (.string s))) :
    takeString map key = .ok (s, (map.remove key).2) := by
  simp [takeString, h]

theorem takeObject_some {map : Map} {key : String} {o : Map}
    (h : map.get key = some (Value.ofTree (.object o.entries))) :
    takeObject map key = .ok (o, (map.remove key).2) := by
  simp [takeObject, h]

theorem takeAttachments_absent {map : Map} (h : map.get "a" = none) :
    takeAttachments map = .ok ([], (map.remove "a").2) := by
  simp [takeAttachments, h]

section Variants

variable {map : Map} {i : UInt64} {m : Value} {er : Option ErrorPayload}

theorem fromFields_apiRequest {r : String} {p : Value}
    (hi : map.get "i" = some (Value.ofTree (.u64 i)))
    (hr : map.get "r" = some (Value.ofTree (.string r))) (hp : map.get "p" = some p)
    (ha : map.get "a" = none)
    (hm : map.get "m" = (SortedAssoc.get "m" (metadataEntry m)).map Value.ofTree) :
    PacketBody.fromFields kApiRequest map = .ok (.apiRequest i r p [] (normalizeMetadata m)) := by
  have h2 : takeString (map.remove "i").2 "r" = .ok (r, _) :=
    takeString_some (by simpa [Map.get_remove] using hr)
  have h4 : takeAttachments (takeValue ((map.remove "i").2.remove "r").2 "p").2 = .ok ([], _) :=
    takeAttachments_absent (by simpa [takeValue, Map.get_remove] using ha)
  have h5 := takeMetadata m ((takeValue ((map.remove "i").2.remove "r").2 "p").2.remove "a").2
    (by simpa [takeValue, Map.get_remove] using hm)
  simp only [PacketBody.fromFields, if_true, takeU64_some hi, bind, Except.bind, h2, h4, h5]
  simp [takeValue, Map.get_remove, hp]

theorem fromFields_eventEmit {n : String} {d : Map} {e : Bool}
    (hi : map.get "i" = some (Value.ofTree (.u64 i)))
    (hn : map.get "n" = some (Value.ofTree (.string n)))
    (hd : map.get "d" = some (Value.ofTree (.object d.entries))) (ha : map.get "a" = none)
    (hm : map.get "m" = (SortedAssoc.get "m" (metadataEntry m)).map Value.ofTree)
    (he : map.get "e" = some (Value.ofTree (.bool e))) :
    PacketBody.fromFields kEventEmit map = .ok (.eventEmit i n d [] (normalizeMetadata m) e) := by
  have h2 : takeString (map.remove "i").2 "n" = .ok (n, _) :=
    takeString_some (by simpa [Map.get_remove] using hn)
  have h3 : takeObject ((map.remove "i").2.remove "n").2 "d" = .ok (d, _) :=
    takeObject_some (by simpa [Map.get_remove] using hd)
  have h4 : takeAttachments (((map.remove "i").2.remove "n").2.remove "d").2 = .ok ([], _) :=
    takeAttachments_absent (by simpa [Map.get_remove] using ha)
  have h5 := takeMetadata m ((((map.remove "i").2.remove "n").2.remove "d").2.remove "a").2
    (by simpa [Map.get_remove] using hm)
  simp only [PacketBody.fromFields, show kEventEmit ≠ kApiRequest by decide, if_true, if_false,
    takeU64_some hi, bind, Except.bind, h2, h3, h4, h5]
  simp [takeValue, takeBool, Map.get_remove, he]

theorem fromFields_apiResponse {ok : Bool} {s : UInt16} {d : Value}
    (hi : map.get "i" = some (Value.ofTree (.u64 i)))
    (ho : map.get "o" = some (Value.ofTree (.bool ok)))
    (hs : map.get "s" = some (Value.ofTree (.u64 s.toUInt64))) (hd : map.get "d" = some d)
    (her : map.get "er" = (SortedAssoc.get "er" (errorEntry er)).map Value.ofTree)
    (hm : map.get "m" = (SortedAssoc.get "m" (metadataEntry m)).map Value.ofTree) :
    PacketBody.fromFields kApiResponse map =
      .ok (.apiResponse i ok s d (er.map ErrorPayload.normalize) (normalizeMetadata m)) := by
  have h5 := takeError_entry er ((((map.remove "i").2.remove "o").2.remove "s").2.remove "d").2
    (by simpa [Map.get_remove] using her)
  have h6 := takeMetadata m
    (((((map.remove "i").2.remove "o").2.remove "s").2.remove "d").2.remove "er").2
    (by simpa [Map.get_remove] using hm)
  simp only [PacketBody.fromFields, show kApiResponse ≠ kApiRequest by decide,
    show kApiResponse ≠ kEventEmit by decide, if_true, if_false, takeU64_some hi, bind,
    Except.bind, takeBool, takeU16, takeValue] at h5 h6 ⊢
  simp only [h5, h6]
  simp [Map.get_remove, ho, hs, hd]

theorem fromFields_eventAck {ok : Bool} {rc : Value}
    (hi : map.get "i" = some (Value.ofTree (.u64 i)))
    (ho : map.get "o" = some (Value.ofTree (.bool ok))) (hrc : map.get "rc" = some rc)
    (her : map.get "er" = (SortedAssoc.get "er" (errorEntry er)).map Value.ofTree) :
    PacketBody.fromFields kEventAck map =
      .ok (.eventAck i ok rc (er.map ErrorPayload.normalize)) := by
  have h4 := takeError_entry er (((map.remove "i").2.remove "o").2.remove "rc").2
    (by simpa [Map.get_remove] using her)
  simp only [PacketBody.fromFields, show kEventAck ≠ kApiRequest by decide,
    show kEventAck ≠ kEventEmit by decide, show kEventAck ≠ kApiResponse by decide, if_true,
    if_false, takeU64_some hi, bind, Except.bind, takeBool, takeValue, h4]
  simp [Map.get_remove, ho, hrc]

theorem fromFields_authRequest {c : String}
    (hc : map.get "c" = some (Value.ofTree (.string c))) :
    PacketBody.fromFields kAuthRequest map = .ok (.authRequest c) := by
  simp only [PacketBody.fromFields, takeString_some hc, bind, Except.bind]
  rfl

theorem fromFields_authResponse {ok : Bool} {st : Option UInt64}
    (ho : map.get "o" = some (Value.ofTree (.bool ok)))
    (hst : (map.get "st").bind Value.asU64 = st)
    (her : map.get "er" = (SortedAssoc.get "er" (errorEntry er)).map Value.ofTree) :
    PacketBody.fromFields kAuthResponse map =
      .ok (.authResponse ok st (er.map ErrorPayload.normalize)) := by
  have h3 := takeError_entry er ((map.remove "o").2.remove "st").2
    (by simpa [Map.get_remove] using her)
  simp only [PacketBody.fromFields, show kAuthResponse ≠ kApiRequest by decide,
    show kAuthResponse ≠ kEventEmit by decide, show kAuthResponse ≠ kApiResponse by decide,
    show kAuthResponse ≠ kEventAck by decide, show kAuthResponse ≠ kAuthRequest by decide,
    if_true, if_false, bind, Except.bind, takeBool, h3]
  simpa [Map.get_remove, ho] using hst

end Variants

/-- The `k` tag of each variant. -/
def PacketBody.kind : PacketBody → UInt8
  | apiRequest .. => kApiRequest
  | apiResponse .. => kApiResponse
  | eventEmit .. => kEventEmit
  | eventAck .. => kEventAck
  | authRequest .. => kAuthRequest
  | authResponse .. => kAuthResponse

theorem get_kind (b : PacketBody) :
    (Map.ofEntries b.entries).get "k" = some (Value.ofTree (.kind b.kind)) := by
  rw [get_entries]
  cases b <;> rfl

theorem fromFields_entries (b : PacketBody) :
    PacketBody.fromFields b.kind (Map.ofEntries b.entries) =
      .ok (b.normalize.setAttachments []) := by
  have hget := get_entries b
  cases b with
  | apiRequest i r p as m =>
    apply fromFields_apiRequest <;> rw [hget] <;>
      simp [PacketBody.entries, SortedAssoc.get, get_metadataEntry]
  | apiResponse i ok s d er m =>
    apply fromFields_apiResponse <;> rw [hget] <;>
      simp [PacketBody.entries, SortedAssoc.get, get_metadataEntry, get_errorEntry,
        SortedAssoc.get_append]
  | eventEmit i n d as m e =>
    apply fromFields_eventEmit <;> rw [hget] <;>
      simp [PacketBody.entries, SortedAssoc.get, get_metadataEntry, SortedAssoc.get_append]
  | eventAck i ok rc er =>
    apply fromFields_eventAck <;> rw [hget] <;> simp [PacketBody.entries, SortedAssoc.get]
  | authRequest c =>
    exact fromFields_authRequest (by rw [hget]; rfl)
  | authResponse ok st er =>
    apply fromFields_authResponse <;> rw [hget] <;> cases st <;>
      simp [PacketBody.entries, SortedAssoc.get, get_errorEntry]

theorem deserialize_serialize (b : PacketBody) :
    PacketBody.deserialize (Value.ofTree b.serialize) = .ok (b.normalize.setAttachments []) := by
  have hlt : b.kind.toUInt64.toNat < 256 := by
    simpa using b.kind.toNat_lt
  simp only [PacketBody.deserialize, PacketBody.serialize, Value.ofTree_object, get_kind,
    Option.bind_some, asU64_kind, hlt, if_true, UInt8.toUInt8_toUInt64, fromFields_entries]

end Wscall.Protocol
