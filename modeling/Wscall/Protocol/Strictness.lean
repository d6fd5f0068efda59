import Wscall.Protocol.Bounds
import Wscall.Protocol.BodyFields
import Wscall.Protocol.TamperEvidence

/-!
# What an accepted frame carries besides its JSON (`wscall-protocol/src/lib.rs:247-325`, `776-783`,
`1046-1080`)

`decode` reads as many sections as the count byte says and looks no further. It drops the
sections of a body without attachments, and ill-formed text becomes U+FFFD. So a frame
can say more than the packet it is decoded to, and the exact frames that do not are named
here.
-/

namespace Wscall.Protocol
open RustStd

namespace WireSection

def Utf8 (s : WireSection) : Prop :=
  ∃ id name contentType : String, s.id = asBytes id ∧ s.name = asBytes name ∧
    s.contentType = asBytes contentType

theorem Utf8.wire {s : WireSection} (h : s.Utf8) (rest : Bytes) :
    s.attachment.wire ++ rest = s.bytes rest := by
  obtain ⟨id, name, ct, hid, hname, hct⟩ := h
  simp only [FileAttachment.wire_eq, attachment, bytes, text, hid, hname, hct,
    fromUtf8Lossy_asBytes, strLen, List.cons_append, List.append_assoc]

end WireSection

namespace FileAttachment
open WireSection

theorem asBytes_of_text {bs tl mid : Bytes} (hbs : bs.length < 256)
    (h : UInt8.ofNat (strLen (fromUtf8Lossy bs)) :: (asBytes (fromUtf8Lossy bs) ++ tl) =
      text bs mid) : bs = asBytes (fromUtf8Lossy bs) ∧ tl = mid := by
  obtain ⟨hfit, htl⟩ := text_of_wire hbs h rfl
  refine ⟨?_, htl⟩
  subst htl
  exact (List.append_cancel_right (List.cons.inj h).2).symm

theorem utf8_of_wire {s : WireSection} {tl mid : Bytes} (h : s.attachment.wire ++ tl = s.bytes mid) :
    s.Utf8 ∧ tl = mid := by
  simp only [wire_eq, attachment, List.cons_append, List.append_assoc] at h
  obtain ⟨hid, h⟩ := asBytes_of_text s.id_lt h
  obtain ⟨hname, h⟩ := asBytes_of_text s.name_lt h
  obtain ⟨hct, h⟩ := asBytes_of_text s.contentType_lt h
  exact ⟨⟨_, _, _, hid, hname, hct⟩, List.append_cancel_left (List.append_cancel_left h)⟩

theorem utf8_of_starts {n : ℕ} {input rest tl : Bytes} {ss : List WireSection}
    (h : Starts n input ss rest) (heq : (ss.map attachment).flatMap wire ++ tl = input) :
    (∀ s ∈ ss, s.Utf8) ∧ tl = rest := by
  induction h with
  | done rest => exact ⟨by simp, heq⟩
  | @more n s mid rest ss tail ih =>
    rw [List.map_cons, List.flatMap_cons, List.append_assoc] at heq
    obtain ⟨hs, hmid⟩ := utf8_of_wire heq
    obtain ⟨hss, hrest⟩ := ih hmid
    refine ⟨fun s' hs' => ?_, hrest⟩
    rcases List.mem_cons.mp hs' with rfl | hs'
    · exact hs
    · exact hss s' hs'

theorem wires_of_starts {n : ℕ} {input rest : Bytes} {ss : List WireSection}
    (h : Starts n input ss rest) (hss : ∀ s ∈ ss, s.Utf8) :
    (ss.map attachment).flatMap wire ++ rest = input := by
  induction h with
  | done rest => rfl
  | @more n s mid rest ss tail ih =>
    rw [List.map_cons, List.flatMap_cons, List.append_assoc,
      ih fun s' hs' => hss s' (List.mem_cons_of_mem _ hs')]
    exact (hss s (List.mem_cons_self ..)).wire mid

/-- Sections that were read are written back by their attachments exactly when they fill the
input and are UTF-8; when the attachments are dropped, exactly when there are none. -/
theorem sections_exact_iff {count : UInt8} {attData rest : Bytes} {ss : List WireSection}
    (h : Starts count.toNat attData ss rest) (hmem : attData.length < 2 ^ 63) (carries : Prop)
    [Decidable carries] :
    (count :: attData =
      UInt8.ofNat (if carries then ss.map attachment else []).length ::
        (if carries then ss.map attachment else []).flatMap wire) ↔
      ∃ count' attData' ss', count :: attData = count' :: attData' ∧
        Starts count'.toNat attData' ss' [] ∧ (∀ s ∈ ss', s.Utf8) ∧ (count' = 0 ∨ carries) := by
  constructor
  · intro heq
    obtain ⟨hcount, hdata⟩ := List.cons.inj heq
    split_ifs at hcount hdata with hcarries
    · obtain ⟨hutf8, rfl⟩ := utf8_of_starts h (by rw [List.append_nil, ← hdata])
      exact ⟨count, attData, ss, rfl, h, hutf8, .inr hcarries⟩
    · subst hcount hdata
      exact ⟨0, [], [], rfl, .done [], by simp, .inl rfl⟩
  · intro hstrict
    obtain ⟨count', attData', ss', heq, hss', hutf8, hallowed⟩ := hstrict
    obtain ⟨rfl, rfl⟩ := List.cons.inj heq
    have hsame := (readSections_starts h hmem).symm.trans (readSections_starts hss' hmem)
    simp only [Except.ok.injEq, Prod.mk.injEq] at hsame
    split_ifs with hcarries
    · have hlen := hss'.count
      have hwires := wires_of_starts hss' hutf8
      rw [List.append_nil] at hwires
      rw [hsame.1, hwires, List.length_map, hlen, UInt8.ofNat_toNat]
    · obtain rfl := hallowed.resolve_right hcarries
      cases hss'
      rfl

end FileAttachment

/-! ### The kind a body announces -/

def Value.kindTag (v : Value) : Option UInt64 := v.asObject.bind (unsignedOf · "k")

theorem kindTag_of_deserialize {v : Value} {b : PacketBody} (h : PacketBody.deserialize v = .ok b) :
    v.kindTag = some b.kind.toUInt64 := by
  obtain ⟨map, hobj, hkind, -⟩ := deserialize_fields h
  rw [Value.kindTag, hobj, Option.bind_some]
  exact hkind

theorem setAttachments_kind (b : PacketBody) (as : List FileAttachment) :
    (b.setAttachments as).attachments =
      if b.kind.toUInt64 = 0 ∨ b.kind.toUInt64 = 1 then as else [] := by
  cases b <;> rfl

namespace FrameCodec
open WireSection

/-! ### The parts of a plaintext frame -/

def metaLen (f : Bytes) : ℕ :=
  match f.drop 5 with
  | a :: b :: c :: d :: _ => (fromBeBytes a b c d).toNat
  | _ => 0

def jsonBytes (f : Bytes) : Bytes := (f.drop 9).take (metaLen f)

def attachmentBytes (f : Bytes) : Bytes := f.drop (9 + metaLen f)

theorem parts_frame (t : MessageType) {json : Bytes} (tail : Bytes) (hlen : json.length < 2 ^ 32) :
    jsonBytes (frame t (toBeBytes (UInt32.ofNat json.length) ++ (json ++ tail))) = json ∧
      attachmentBytes (frame t (toBeBytes (UInt32.ofNat json.length) ++ (json ++ tail))) = tail := by
  have hmeta : metaLen (frame t (toBeBytes (UInt32.ofNat json.length) ++ (json ++ tail))) =
      json.length := by
    show (fromBeBytes _ _ _ _).toNat = _
    rw [fromBeBytes_toBeBytes, UInt32.toNat_ofNat', Nat.mod_eq_of_lt hlen]
  have hdrop : (frame t (toBeBytes (UInt32.ofNat json.length) ++ (json ++ tail))).drop 9 =
      json ++ tail := rfl
  constructor
  · rw [jsonBytes, hmeta, hdrop, List.take_left]
  · rw [attachmentBytes, hmeta, ← List.drop_drop, hdrop, List.drop_left]

/-- The bytes after the JSON are the count and the sections of the packet's attachments. -/
def CarriesExactly (f : Bytes) (q : PacketEnvelope) : Prop :=
  attachmentBytes f = UInt8.ofNat q.body.attachments.length ::
    q.body.attachments.flatMap FileAttachment.wire

/-- The announced sections fill the rest of the frame and are UTF-8, and there are none
unless the body is an `ApiRequest` or an `EventEmit`. -/
def StrictSections (libs : Libs) (f : Bytes) : Prop :=
  ∃ count attData ss, attachmentBytes f = count :: attData ∧ Starts count.toNat attData ss [] ∧
    (∀ s ∈ ss, s.Utf8) ∧
    (count = 0 ∨ ∃ v, libs.json.fromSlice (jsonBytes f) = .ok v ∧
      (v.kindTag = some 0 ∨ v.kindTag = some 1))

section Accepted

variable {libs : Libs} {c : FrameCodec} {t : MessageType} {q : PacketEnvelope}

theorem decodeComposite_inv {comp : Bytes} (h : decodeComposite libs c t comp = .ok q) :
    ∃ json count attData ss rest v body,
      comp = toBeBytes (UInt32.ofNat json.length) ++ (json ++ count :: attData) ∧
      json.length < 2 ^ 32 ∧ Starts count.toNat attData ss rest ∧
      libs.json.fromSlice json = .ok v ∧ PacketBody.deserialize v = .ok body ∧
      q.body = body.setAttachments (ss.map attachment) := by
  unfold decodeComposite at h
  split at h
  · simp at h
  · obtain ⟨metaLen, hmeta, h⟩ := bind_eq_ok h
    obtain ⟨stop, hstop, h⟩ := bind_eq_ok h
    obtain ⟨start, hstart, h⟩ := bind_eq_ok h
    cases addUsize_inv hstop
    cases addUsize_inv hstart
    split at h
    · simp at h
    · obtain ⟨json, hjson, h⟩ := bind_eq_ok h
      obtain ⟨count, hcount, h⟩ := bind_eq_ok h
      rw [sliceFrom_eq_drop (by omega), ok_bind] at h
      obtain ⟨⟨atts, rest⟩, hatts, h⟩ := bind_eq_ok h
      obtain ⟨body, hbody, h⟩ := bind_eq_ok h
      dsimp only at h
      split at h
      · simp at h
      · cases h
        obtain ⟨hlt, hword⟩ := readU32_inv hmeta
        obtain ⟨-, hdrop, hlen⟩ := slice_inv hjson
        obtain ⟨ss, hss, rfl⟩ := FileAttachment.readSections_inv hatts
        cases hv : libs.json.fromSlice json with
        | error e => simp [hv, bind, Except.bind, liftJson] at hbody
        | ok v =>
          refine ⟨json, count, _, ss, rest, v, body, ?_, hlen ▸ hlt, hss, hv, ?_, rfl⟩
          · rw [hlen, ← index_inv hcount, ← hdrop]
            simpa using hword
          · cases hd : PacketBody.deserialize v with
            | error e => simp [hv, hd, bind, Except.bind, liftJson] at hbody
            | ok b =>
              simp only [hv, hd, bind, Except.bind, liftJson, Except.ok.injEq] at hbody
              rw [hbody]

/-- A frame the plaintext decoder accepts carries exactly the attachments of the packet if
and only if its sections are strict. -/
theorem carriesExactly_iff {f : Bytes} (hc : c.wireEncryption = .none)
    (h : decode libs c f = .ok q) : CarriesExactly f q ↔ StrictSections libs f := by
  obtain ⟨t, payload, comp, rfl, -, hword, hrec, hcomp⟩ := decode_inv h
  obtain ⟨json, count, attData, ss, rest, v, body, rfl, hlen, hss, hv, hbody, hq⟩ :=
    decodeComposite_inv hcomp
  have hpay : payload = toBeBytes (UInt32.ofNat json.length) ++ (json ++ count :: attData) := by
    simpa [recover, hc] using hrec
  subst hpay
  obtain ⟨hjson, htail⟩ := parts_frame t (count :: attData) hlen
  have htag := kindTag_of_deserialize hbody
  have hatts := setAttachments_kind body (ss.map attachment)
  have hmem : attData.length < 2 ^ 63 := by
    simp only [List.length_append, List.length_cons] at hword
    omega
  have hkind : (∃ v', libs.json.fromSlice json = .ok v' ∧
      (v'.kindTag = some 0 ∨ v'.kindTag = some 1)) ↔
      (body.kind.toUInt64 = 0 ∨ body.kind.toUInt64 = 1) := by
    simp [hv, htag]
  rw [CarriesExactly, StrictSections, htail, hjson, hq, hatts, hkind]
  exact FileAttachment.sections_exact_iff hss hmem _

end Accepted

/-! ### Frames of one request -/

instance (f : Bytes) (q : PacketEnvelope) : Decidable (CarriesExactly f q) := by
  unfold CarriesExactly
  infer_instance

def echoText : Bytes := asBytes "\x7b\"k\":0,\"i\":7,\"r\":\"echo\",\"p\":null\x7d"

/-- The frame of request 7 for `echo` with the given bytes after the JSON. -/
def echoFrame (tail : Bytes) : Bytes :=
  frame .api (toBeBytes (UInt32.ofNat echoText.length) ++ (echoText ++ tail))

theorem carriesExactly_iff_file : ∃ q, decode echoLibs plaintext (echoFrame (1 :: textFile.wire)) =
    .ok q ∧ CarriesExactly (echoFrame (1 :: textFile.wire)) q := by
  have h : decode echoLibs plaintext (echoFrame (1 :: textFile.wire)) =
      .ok ⟨.api, .none, .apiRequest 7 "echo" .null [textFile] .null⟩ := rfl
  have hwire : textFile.wire = (textFile.toSection (by decide) (by decide)).bytes [] := rfl
  refine ⟨_, h, (carriesExactly_iff rfl h).mpr ⟨1, textFile.wire,
    [textFile.toSection (by decide) (by decide)], rfl, ?_, ?_, .inr ?_⟩⟩
  · rw [hwire]
    exact .more (.done [])
  · intro s hs
    cases List.mem_singleton.mp hs
    exact ⟨_, _, _, rfl, rfl, rfl⟩
  · exact ⟨_, rfl, .inl rfl⟩

/-- A byte after the last section is ignored, and an id that is not UTF-8 is replaced. -/
theorem loose_frames_accepted :
    (∃ q, decode echoLibs plaintext (echoFrame [0, 255]) = .ok q ∧
      ¬ CarriesExactly (echoFrame [0, 255]) q) ∧
    ∃ q, decode echoLibs plaintext (echoFrame [1, 1, 255, 0, 0, 0, 0, 0, 0]) = .ok q ∧
      ¬ CarriesExactly (echoFrame [1, 1, 255, 0, 0, 0, 0, 0, 0]) q :=
  ⟨⟨⟨.api, .none, .apiRequest 7 "echo" .null [] .null⟩, rfl, by decide⟩,
    ⟨.api, .none, .apiRequest 7 "echo" .null [⟨"�", "", "", []⟩] .null⟩, rfl, by decide⟩

end FrameCodec

end Wscall.Protocol
