import Wscall.Protocol.Packet

/-!
# Attachment sections (`wscall-protocol/src/lib.rs:224-324`)

`write_wire` narrows three text lengths to a byte and the data length to 32 bits
without checking them. `read_wire` is a position-based reader. `WireSection` is the
format itself: what a reader can accept, whoever wrote it.
-/

namespace Wscall.Protocol
open RustStd

namespace FileAttachment

/-- `wire_size`. -/
def wireSize (a : FileAttachment) : ℕ :=
  1 + strLen a.id + 1 + strLen a.name + 1 + strLen a.contentType + 4 + a.data.length

/-- `buf.push(s.len() as u8); buf.extend_from_slice(s.as_bytes())`. -/
def writeText (s : String) (buf : Bytes) : Bytes :=
  buf ++ [UInt8.ofNat (strLen s)] ++ asBytes s

def writeWire (a : FileAttachment) (buf : Bytes) : Bytes :=
  let buf := writeText a.id buf
  let buf := writeText a.name buf
  let buf := writeText a.contentType buf
  let buf := buf ++ toBeBytes (UInt32.ofNat a.data.length)
  buf ++ a.data

/-- One text field: `lenWhat` and `what` are the two places it can be cut off at. -/
def readText (lenWhat what : String) (data : Bytes) (pos : ℕ) :
    Checked ProtocolError (String × ℕ) := do
  if pos ≥ data.length then
    fail (.invalidAttachmentEncoding s!"truncated {lenWhat}")
  else
    let len ← index data pos
    let pos ← addUsize pos 1
    let stop ← addUsize pos len.toNat
    if stop > data.length then
      fail (.invalidAttachmentEncoding s!"truncated {what}")
    else
      let text ← slice data pos stop
      .ok (fromUtf8Lossy text, stop)

def readWire (data : Bytes) : Checked ProtocolError (FileAttachment × Bytes) := do
  let (id, pos) ← readText "id_len" "id" data 0
  let (name, pos) ← readText "name_len" "name" data pos
  let (contentType, pos) ← readText "ct_len" "content_type" data pos
  let body ← addUsize pos 4
  if body > data.length then
    fail (.invalidAttachmentEncoding "truncated data_len")
  else
    let dataLen ← readU32 data pos
    let stop ← addUsize body dataLen
    if stop > data.length then
      fail (.invalidAttachmentEncoding "truncated data")
    else
      let payload ← slice data body stop
      let rest ← sliceFrom data stop
      .ok (⟨id, name, contentType, payload⟩, rest)

/-- The attachment loop of `decode` (`lib.rs:1061-1067`). -/
def readSections : ℕ → Bytes → Checked ProtocolError (List FileAttachment × Bytes)
  | 0, attData => .ok ([], attData)
  | n + 1, attData => do
    let (att, rest) ← readWire attData
    let (atts, rest) ← readSections n rest
    .ok (att :: atts, rest)

/-- What `write_wire` appends. -/
def wire (a : FileAttachment) : Bytes := writeWire a []

theorem writeWire_eq (a : FileAttachment) (buf : Bytes) : a.writeWire buf = buf ++ a.wire := by
  simp [writeWire, wire, writeText]

theorem wire_eq (a : FileAttachment) :
    a.wire = UInt8.ofNat (strLen a.id) :: (asBytes a.id ++ UInt8.ofNat (strLen a.name) ::
      (asBytes a.name ++ UInt8.ofNat (strLen a.contentType) :: (asBytes a.contentType ++
        (toBeBytes (UInt32.ofNat a.data.length) ++ a.data)))) := by
  simp [wire, writeWire, writeText]

theorem wire_length (a : FileAttachment) : a.wire.length = a.wireSize := by
  simp only [wire_eq, List.length_cons, List.length_append, toBeBytes_length, wireSize, strLen]
  omega

theorem foldl_writeWire (as : List FileAttachment) (buf : Bytes) :
    as.foldl (fun buf a => a.writeWire buf) buf = buf ++ as.flatMap wire := by
  induction as generalizing buf with
  | nil => simp
  | cons a as ih => rw [List.foldl_cons, ih, writeWire_eq, List.flatMap_cons, List.append_assoc]

/-- The lengths that survive their prefix. -/
def Fits (a : FileAttachment) : Prop :=
  strLen a.id ≤ 255 ∧ strLen a.name ≤ 255 ∧ strLen a.contentType ≤ 255

instance (a : FileAttachment) : Decidable a.Fits := by unfold Fits; infer_instance

end FileAttachment

/-! ### The format of a section -/

/-- A section of the wire format: four byte strings, each within its length prefix. -/
structure WireSection where
  id : Bytes
  name : Bytes
  contentType : Bytes
  data : Bytes
  id_lt : id.length < 256
  name_lt : name.length < 256
  contentType_lt : contentType.length < 256
  data_lt : data.length < 2 ^ 32

namespace WireSection

def text (bs rest : Bytes) : Bytes := UInt8.ofNat bs.length :: (bs ++ rest)

def bytes (s : WireSection) (rest : Bytes) : Bytes :=
  text s.id (text s.name (text s.contentType
    (toBeBytes (UInt32.ofNat s.data.length) ++ (s.data ++ rest))))

def attachment (s : WireSection) : FileAttachment :=
  ⟨fromUtf8Lossy s.id, fromUtf8Lossy s.name, fromUtf8Lossy s.contentType, s.data⟩

/-- `n` sections stand at the start of the input. -/
inductive Starts : ℕ → Bytes → List WireSection → Bytes → Prop where
  | done (rest : Bytes) : Starts 0 rest [] rest
  | more {n : ℕ} {s : WireSection} {mid rest : Bytes} {ss : List WireSection}
      (tail : Starts n mid ss rest) : Starts (n + 1) (s.bytes mid) (s :: ss) rest

theorem Starts.count {n : ℕ} {input rest : Bytes} {ss : List WireSection}
    (h : Starts n input ss rest) : ss.length = n := by
  induction h with
  | done => rfl
  | more _ ih => simp [ih]

end WireSection

namespace FileAttachment
open WireSection

section Reading

variable {data bs rest : Bytes} {pos : ℕ}

theorem readText_text (lenWhat what : String) (hlt : bs.length < 256)
    (hmem : data.length < 2 ^ 63)
    (h : data.drop pos = text bs rest) :
    readText lenWhat what data pos = .ok (fromUtf8Lossy bs, pos + 1 + bs.length) := by
  have hlen := length_of_drop_cons h
  have htail := drop_add_of_cons h
  have hn : (UInt8.ofNat bs.length).toNat = bs.length := by
    rw [UInt8.toNat_ofNat']
    exact Nat.mod_eq_of_lt hlt
  rw [List.length_append] at hlen
  have htake : (data.drop (pos + 1)).take bs.length = bs := by rw [htail, List.take_left]
  rw [readText, if_neg (by omega), drop_cons_index h, ok_bind, addUsize_ok (by omega), ok_bind, hn,
    addUsize_ok (by omega), ok_bind, if_neg (by omega), slice_eq_take (by omega), ok_bind, htake]

theorem drop_text (h : data.drop pos = text bs rest) : data.drop (pos + 1 + bs.length) = rest := by
  rw [← List.drop_drop, drop_add_of_cons h, List.drop_left]

theorem readText_inv {lenWhat what s : String} {stop : ℕ}
    (h : readText lenWhat what data pos = .ok (s, stop)) :
    ∃ bs, bs.length < 256 ∧ data.drop pos = text bs (data.drop stop) ∧ s = fromUtf8Lossy bs := by
  unfold readText at h
  split at h
  · simp at h
  · obtain ⟨len, hlen, h⟩ := bind_eq_ok h
    obtain ⟨_, hp, h⟩ := bind_eq_ok h
    obtain ⟨_, hstop, h⟩ := bind_eq_ok h
    cases addUsize_inv hp
    cases addUsize_inv hstop
    split at h
    · simp at h
    · obtain ⟨bs, hbs, h⟩ := bind_eq_ok h
      cases h
      obtain ⟨-, hdrop, hbslen⟩ := slice_inv hbs
      refine ⟨bs, hbslen ▸ len.toNat_lt, ?_, rfl⟩
      rw [index_inv hlen, hdrop, text, hbslen, UInt8.ofNat_toNat]

theorem readWire_bytes (s : WireSection) (hmem : (s.bytes rest).length < 2 ^ 63) :
    readWire (s.bytes rest) = .ok (s.attachment, rest) := by
  have d0 : (s.bytes rest).drop 0 = text s.id _ := rfl
  have h1 := readText_text "id_len" "id" s.id_lt hmem d0
  have d1 := drop_text d0
  have h2 := readText_text "name_len" "name" s.name_lt hmem d1
  have d2 := drop_text d1
  have h3 := readText_text "ct_len" "content_type" s.contentType_lt hmem d2
  have d3 := drop_text d2
  generalize 0 + 1 + s.id.length + 1 + s.name.length + 1 + s.contentType.length = pos at h3 d3
  generalize s.bytes rest = data at *
  have hn : (UInt32.ofNat s.data.length).toNat = s.data.length := by
    rw [UInt32.toNat_ofNat']
    exact Nat.mod_eq_of_lt s.data_lt
  have d4 : data.drop (pos + 4) = s.data ++ rest := by
    rw [← List.drop_drop, d3]
    exact List.drop_left' (toBeBytes_length _)
  have hlen : data.length = pos + 4 + (s.data.length + rest.length) := by
    have hl := congrArg List.length d3
    simp only [List.length_drop, List.length_append, toBeBytes_length] at hl
    omega
  have h4 := readU32_toBeBytes (ε := ProtocolError) _ (by omega) d3
  simp only [readWire, h1, h2, h3, ok_bind]
  rw [addUsize_ok (by omega), ok_bind, if_neg (by omega), h4, ok_bind, hn,
    addUsize_ok (by omega), ok_bind, if_neg (by omega), slice_eq_take (by omega), ok_bind,
    sliceFrom_eq_drop (by omega), ok_bind, d4, ← List.drop_drop, d4, List.take_left, List.drop_left]
  rfl

theorem readWire_inv {a : FileAttachment} (h : readWire data = .ok (a, rest)) :
    ∃ s : WireSection, data = s.bytes rest ∧ a = s.attachment := by
  obtain ⟨⟨id, p1⟩, h1, h⟩ := bind_eq_ok h
  obtain ⟨⟨name, p2⟩, h2, h⟩ := bind_eq_ok h
  obtain ⟨⟨ct, p3⟩, h3, h⟩ := bind_eq_ok h
  obtain ⟨_, hbody, h⟩ := bind_eq_ok h
  cases addUsize_inv hbody
  obtain ⟨i, hi, e1, rfl⟩ := readText_inv h1
  obtain ⟨n, hn, e2, rfl⟩ := readText_inv h2
  obtain ⟨c, hc, e3, rfl⟩ := readText_inv h3
  split at h
  · simp at h
  · obtain ⟨dataLen, hlen, h⟩ := bind_eq_ok h
    obtain ⟨_, hstop, h⟩ := bind_eq_ok h
    cases addUsize_inv hstop
    split at h
    · simp at h
    · obtain ⟨payload, hpay, h⟩ := bind_eq_ok h
      obtain ⟨hle, hdrop, hpl⟩ := slice_inv hpay
      rw [sliceFrom_eq_drop hle, ok_bind] at h
      cases h
      obtain ⟨hlt, e4⟩ := readU32_inv hlen
      subst hpl
      refine ⟨⟨i, n, c, payload, hi, hn, hc, hlt⟩, ?_, rfl⟩
      simp only [bytes]
      rw [← hdrop, ← e4, ← e3, ← e2, ← e1, List.drop_zero]

theorem readSections_starts {n : ℕ} {ss : List WireSection} (h : Starts n data ss rest)
    (hmem : data.length < 2 ^ 63) :
    readSections n data = .ok (ss.map attachment, rest) := by
  induction h with
  | done rest => rfl
  | @more n s mid rest ss tail ih =>
    have hmid : mid.length < 2 ^ 63 := by
      refine lt_of_le_of_lt ?_ hmem
      simp only [bytes, text, List.length_cons, List.length_append]
      omega
    simp only [readSections, readWire_bytes s hmem, ih hmid, ok_bind, List.map_cons]

theorem readSections_inv {n : ℕ} {as : List FileAttachment} (h : readSections n data = .ok (as, rest)) :
    ∃ ss, Starts n data ss rest ∧ as = ss.map attachment := by
  induction n generalizing data as with
  | zero =>
    cases h
    exact ⟨[], .done _, rfl⟩
  | succ n ih =>
    obtain ⟨⟨a, mid⟩, ha, h⟩ := bind_eq_ok h
    obtain ⟨⟨as', rest'⟩, has, h⟩ := bind_eq_ok h
    cases h
    obtain ⟨s, rfl, rfl⟩ := readWire_inv ha
    obtain ⟨ss, hss, rfl⟩ := ih has
    exact ⟨s :: ss, .more hss, rfl⟩

end Reading

/-! ### Reading what was written -/

/-- The section of an attachment whose lengths survive. -/
def toSection (a : FileAttachment) (h : a.Fits) (hd : a.data.length < 2 ^ 32) : WireSection where
  id := asBytes a.id
  name := asBytes a.name
  contentType := asBytes a.contentType
  data := a.data
  id_lt := Nat.lt_succ_of_le h.1
  name_lt := Nat.lt_succ_of_le h.2.1
  contentType_lt := Nat.lt_succ_of_le h.2.2
  data_lt := hd

theorem toSection_bytes (a : FileAttachment) (h : a.Fits) (hd : a.data.length < 2 ^ 32)
    (rest : Bytes) : (a.toSection h hd).bytes rest = a.wire ++ rest := by
  simp [wire_eq, toSection, bytes, text, strLen]

theorem toSection_attachment (a : FileAttachment) (h : a.Fits) (hd : a.data.length < 2 ^ 32) :
    (a.toSection h hd).attachment = a := by
  simp [toSection, attachment, fromUtf8Lossy_asBytes]

theorem readSections_wire (as : List FileAttachment) (rest : Bytes) (hfit : ∀ a ∈ as, a.Fits)
    (hmem : (as.flatMap wire ++ rest).length < 2 ^ 32) :
    readSections as.length (as.flatMap wire ++ rest) = .ok (as, rest) := by
  induction as with
  | nil => rfl
  | cons a as ih =>
    have hd : a.data.length < 2 ^ 32 := by
      have hw := a.wire_length
      simp only [List.flatMap_cons, List.length_append, hw, wireSize] at hmem
      omega
    have hlen : ((a.toSection (hfit a (by simp)) hd).bytes (as.flatMap wire ++ rest)).length
        < 2 ^ 63 := by
      rw [toSection_bytes, ← List.append_assoc, ← List.flatMap_cons]
      omega
    have hread := readWire_bytes _ hlen
    rw [toSection_bytes, toSection_attachment] at hread
    rw [List.flatMap_cons, List.append_assoc, List.length_cons, readSections, hread, ok_bind]
    simp only [ih (fun b hb => hfit b (by simp [hb])) (by
      simp only [List.flatMap_cons, List.length_append] at hmem ⊢
      omega), ok_bind]

theorem text_of_wire {t : String} {bs tl mid : Bytes} (hbs : bs.length < 256)
    (h : UInt8.ofNat (strLen t) :: (asBytes t ++ tl) = text bs mid) (ht : fromUtf8Lossy bs = t) :
    strLen t ≤ 255 ∧ tl = mid := by
  obtain ⟨hlen, happ⟩ := List.cons.inj h
  have hmod : strLen t % 256 = bs.length := by
    have hn := congrArg UInt8.toNat hlen
    rwa [UInt8.toNat_ofNat', UInt8.toNat_ofNat', Nat.mod_eq_of_lt hbs] at hn
  by_cases hfit : strLen t ≤ 255
  · have heq : (asBytes t).length = bs.length := by
      rw [← hmod, Nat.mod_eq_of_lt (Nat.lt_succ_of_le hfit), strLen]
    exact ⟨hfit, (List.append_inj happ heq).2⟩
  · -- the prefix lost at least 256, so a proper initial part was read
    have hcut : bs = (asBytes t).take (strLen t % 256) := by
      have htake := congrArg (List.take bs.length) happ
      rw [List.take_left, List.take_append_of_le_length (by rw [← hmod]; exact Nat.mod_le ..)] at htake
      rw [hmod, htake]
    exact absurd (hcut ▸ ht) (fromUtf8Lossy_take_ne t _ (by omega))

theorem fits_of_wire {a : FileAttachment} {s : WireSection} {tl mid : Bytes}
    (h : a.wire ++ tl = s.bytes mid) (hs : s.attachment = a) : a.Fits ∧ tl = mid := by
  subst hs
  simp only [wire_eq, List.cons_append, List.append_assoc] at h
  obtain ⟨hid, h⟩ := text_of_wire s.id_lt h rfl
  obtain ⟨hname, h⟩ := text_of_wire s.name_lt h rfl
  obtain ⟨hct, h⟩ := text_of_wire s.contentType_lt h rfl
  exact ⟨⟨hid, hname, hct⟩, List.append_cancel_left (List.append_cancel_left h)⟩

theorem fits_of_readSections (as : List FileAttachment) (tl : Bytes) {rest : Bytes}
    (h : readSections as.length (as.flatMap wire ++ tl) = .ok (as, rest)) : ∀ a ∈ as, a.Fits := by
  induction as with
  | nil => simp
  | cons a as ih =>
    rw [List.flatMap_cons, List.append_assoc] at h
    obtain ⟨⟨b, mid⟩, hb, h⟩ := bind_eq_ok h
    obtain ⟨⟨bs, rest'⟩, hbs, h⟩ := bind_eq_ok h
    cases h
    obtain ⟨s, hs, ha⟩ := readWire_inv hb
    obtain ⟨hfit, rfl⟩ := fits_of_wire hs ha.symm
    simpa [hfit] using ih hbs

end FileAttachment

end Wscall.Protocol
