import Wscall.Protocol.Codec

/-!
# Decoding what was encoded

Both paths of the encoder wrap one composite; decoding a frame it produced comes down
to reading that composite, so what a packet turns into depends on its attachments alone.
-/

namespace Wscall.Protocol
open RustStd

namespace FrameCodec

/-! ### One layout for both paths -/

/-- `meta_len | json | att_count | sections`. -/
def composite (text : Bytes) (as : List FileAttachment) : Bytes :=
  toBeBytes (UInt32.ofNat text.length) ++ text ++ [UInt8.ofNat as.length] ++
    as.flatMap FileAttachment.wire

def frame (messageType : MessageType) (payload : Bytes) : Bytes :=
  toBeBytes (UInt32.ofNat (1 + payload.length)) ++ [messageType.toByte] ++ payload

/-- The payload a composite travels as. -/
def protect (libs : Libs) (c : FrameCodec) (random : Except String Nonce) (composite : Bytes) :
    Checked ProtocolError Bytes :=
  match c.wireEncryption with
  | .none => .ok composite
  | .chacha20 => encryptChacha20 libs c random composite
  | .aes256 => encryptAes256 libs c random composite

/-- Nonce and tag. -/
def overhead (c : FrameCodec) : ℕ := if c.wireEncryption = .none then 0 else 28

theorem composite_length (text : Bytes) (as : List FileAttachment) :
    (composite text as).length = text.length + 5 + (as.map FileAttachment.wireSize).sum := by
  have hsum : (as.flatMap FileAttachment.wire).length = (as.map FileAttachment.wireSize).sum := by
    rw [List.length_flatMap]
    simp only [FileAttachment.wire_length]
  simp only [composite, List.length_append, toBeBytes_length, List.length_singleton, hsum]
  omega

theorem frame_length (t : MessageType) (payload : Bytes) :
    (frame t payload).length = payload.length + 5 := by
  simp only [frame, List.length_append, toBeBytes_length, List.length_singleton]
  omega

/-- The two back-patches of the fast path leave exactly the frame of the composite. -/
theorem patch_placeholders (messageType : UInt8) (text rest : Bytes) (frameLen jsonLen : UInt32) :
    (do
      let frame ← patch ([0, 0, 0, 0] ++ [messageType] ++ [0, 0, 0, 0] ++ text ++ rest) 0
        (toBeBytes frameLen)
      patch frame 5 (toBeBytes jsonLen) : Checked ProtocolError Bytes) =
      .ok (toBeBytes frameLen ++ [messageType] ++ (toBeBytes jsonLen ++ text ++ rest)) := by
  have h0 := patch_append (ε := ProtocolError) [] [0, 0, 0, 0]
    ([messageType] ++ [0, 0, 0, 0] ++ text ++ rest) (toBeBytes frameLen) rfl
  have h1 := patch_append (ε := ProtocolError) (toBeBytes frameLen ++ [messageType]) [0, 0, 0, 0]
    (text ++ rest) (toBeBytes jsonLen) rfl
  simp only [List.nil_append, List.append_assoc, List.length_nil] at h0 h1 ⊢
  rw [h0, ok_bind]
  exact h1

/-- The fast path and the encrypted path lay out the same frame. -/
theorem encode_eq (libs : Libs) (c : FrameCodec) (random : Except String Nonce)
    (p : PacketEnvelope) :
    encode libs c random p = (do
      let text ← liftJson (libs.json.toWriter p.body.serialize)
      let comp := composite text p.body.attachments
      if comp.length > c.maxFrameBytes - 5 then
        fail (.payloadTooLarge comp.length (c.maxFrameBytes - 5))
      else
        let payload ← protect libs c random comp
        if payload.length > c.maxFrameBytes - 5 then
          fail (.payloadTooLarge payload.length (c.maxFrameBytes - 5))
        else
          .ok (frame p.messageType payload)) := by
  unfold encode protect
  cases libs.json.toWriter p.body.serialize with
  | error e => cases c.wireEncryption <;> rfl
  | ok text =>
    simp only [liftJson, ok_bind, FileAttachment.foldl_writeWire]
    cases henc : c.wireEncryption with
    | none =>
      have hlen : ([0, 0, 0, 0] ++ [p.messageType.toByte] ++ [0, 0, 0, 0] ++ text ++
          [UInt8.ofNat p.body.attachments.length] ++
          p.body.attachments.flatMap FileAttachment.wire).length =
          (composite text p.body.attachments).length + 5 := by
        simp only [composite, List.length_append, List.length_cons, List.length_nil,
          toBeBytes_length]
        omega
      have htext : ([0, 0, 0, 0] ++ [p.messageType.toByte] ++ [0, 0, 0, 0] ++ text).length - 9 =
          text.length := by
        simp only [List.length_append, List.length_cons, List.length_nil]
        omega
      simp only [if_true, hlen, htext, Nat.add_sub_cancel, ok_bind]
      split_ifs with hbig
      · rfl
      · rw [List.append_assoc _ [_] (List.flatMap ..), patch_placeholders]
        simp only [frame, composite, List.append_assoc]
        congr 4
        omega
    | chacha20 | aes256 =>
      have htext : (([0, 0, 0, 0] : Bytes) ++ text).length - 4 = text.length := by
        simp
      have hpatch : (patch (([0, 0, 0, 0] : Bytes) ++ text) 0
          (toBeBytes (UInt32.ofNat text.length)) : Checked ProtocolError Bytes) =
          .ok (toBeBytes (UInt32.ofNat text.length) ++ text) :=
        patch_append [] [0, 0, 0, 0] text _ rfl
      simp only [reduceCtorEq, if_false, htext]
      rw [hpatch, ok_bind]
      rfl

/-! ### Reading the layout back -/

theorem liftJson_inv {α : Type} {x : Except JsonError α} {a : α} (h : liftJson x = .ok a) :
    x = .ok a := by
  cases x with
  | error e => cases h
  | ok a' =>
    cases h
    rfl

structure AeadLaws (libs : Libs) : Prop where
  chacha20 : libs.chacha20.Lawful
  aes256 : libs.aes256.Lawful

section Reading

variable {libs : Libs} {c : FrameCodec}

theorem recover_protect (laws : AeadLaws libs) {random : Except String Nonce}
    {comp payload : Bytes} (h : protect libs c random comp = .ok payload) :
    recover libs c payload = .ok comp ∧ payload.length = comp.length + c.overhead := by
  unfold protect at h
  unfold recover overhead
  cases henc : c.wireEncryption with
  | none =>
    simp only [henc, Except.ok.injEq] at h
    simp [h]
  | chacha20 =>
    simp only [henc] at h
    exact decryptWith_encryptWith laws.chacha20 h
  | aes256 =>
    simp only [henc] at h
    exact decryptWith_encryptWith laws.aes256 h

theorem decode_frame (t : MessageType) {payload : Bytes}
    (hmax : payload.length + 5 ≤ c.maxFrameBytes) :
    decode libs c (frame t payload) =
      if (1 + payload.length) % 2 ^ 32 ≠ 1 + payload.length then
        fail (.frameLengthMismatch ((1 + payload.length) % 2 ^ 32) (1 + payload.length))
      else recover libs c payload >>= decodeComposite libs c t := by
  -- a frame within the codec's limit: the declared length is the only thing left to fail
  -- before the payload is recovered
  have hlen := frame_length t payload
  have h0 : (frame t payload).drop 0 =
      toBeBytes (UInt32.ofNat (1 + payload.length)) ++ (t.toByte :: payload) := by
    simp [frame]
  have h4 : (frame t payload).drop 4 = t.toByte :: payload := by
    rw [← List.drop_zero (l := frame t payload), h0]
    rfl
  have h5 : (frame t payload).drop 5 = payload := drop_add_of_cons h4
  have hact : (frame t payload).length - 4 = 1 + payload.length := by omega
  have hfits : ¬ (frame t payload).length > c.maxFrameBytes := by omega
  rw [decode, if_neg (by omega), readU32_toBeBytes _ (by decide) h0, ok_bind, hact, UInt32.toNat_ofNat']
  simp only [hfits, if_false, drop_cons_index h4, ok_bind, MessageType.tryFrom_toByte,
    sliceFrom_eq_drop (show 5 ≤ (frame t payload).length by omega), h5]

theorem decodeComposite_composite (t : MessageType) (text : Bytes) (as : List FileAttachment)
    (hlen : (composite text as).length < 2 ^ 32) :
    decodeComposite libs c t (composite text as) = (do
      let (atts, _) ← FileAttachment.readSections (as.length % 256)
        (as.flatMap FileAttachment.wire)
      let body ← liftJson (libs.json.fromSlice text >>= PacketBody.deserialize)
      let body := body.setAttachments atts
      if body.messageType ≠ t then fail .messageTypeMismatch
      else .ok ⟨t, c.wireEncryption, body⟩) := by
  have hsize := composite_length text as
  have h0 : (composite text as).drop 0 = toBeBytes (UInt32.ofNat text.length) ++
      (text ++ UInt8.ofNat as.length :: as.flatMap FileAttachment.wire) := by
    simp [composite]
  have h4 : (composite text as).drop 4 =
      text ++ UInt8.ofNat as.length :: as.flatMap FileAttachment.wire := by
    rw [← List.drop_zero (l := composite text as), h0]
    rfl
  have hcount : (composite text as).drop (4 + text.length) =
      UInt8.ofNat as.length :: as.flatMap FileAttachment.wire := by
    rw [← List.drop_drop, h4, List.drop_left]
  have hmeta : (UInt32.ofNat text.length).toNat = text.length := by
    rw [UInt32.toNat_ofNat']
    exact Nat.mod_eq_of_lt (by omega)
  rw [decodeComposite, if_neg (by omega), readU32_toBeBytes _ (by decide) h0, ok_bind, hmeta,
    addUsize_ok (by omega), ok_bind, addUsize_ok (by omega), ok_bind, if_neg (by omega),
    slice_eq_take (by omega), ok_bind, drop_cons_index hcount, ok_bind,
    sliceFrom_eq_drop (by omega), ok_bind, drop_add_of_cons hcount, h4, List.take_left,
    UInt8.toNat_ofNat']

theorem encode_eq_ok {random : Except String Nonce} {p : PacketEnvelope} {f : Bytes}
    (h : encode libs c random p = .ok f) :
    ∃ text payload, libs.json.toWriter p.body.serialize = .ok text ∧
      protect libs c random (composite text p.body.attachments) = .ok payload ∧
      (composite text p.body.attachments).length ≤ c.maxFrameBytes - 5 ∧
      payload.length ≤ c.maxFrameBytes - 5 ∧ f = frame p.messageType payload := by
  rw [encode_eq] at h
  cases htext : libs.json.toWriter p.body.serialize with
  | error e => simp [htext, liftJson] at h
  | ok text =>
    simp only [htext, liftJson, ok_bind] at h
    split at h
    · simp at h
    · rename_i hcomp
      obtain ⟨payload, hpay, h⟩ := bind_eq_ok h
      split at h
      · simp at h
      · rename_i hmax
        cases h
        exact ⟨text, payload, rfl, hpay, not_lt.mp hcomp, not_lt.mp hmax, rfl⟩

theorem encode_inv (laws : AeadLaws libs) {random : Except String Nonce} {p : PacketEnvelope}
    {f : Bytes} (h : encode libs c random p = .ok f) :
    ∃ text, libs.json.toWriter p.body.serialize = .ok text ∧
      f.length = (composite text p.body.attachments).length + c.overhead + 5 ∧
      f.length ≤ c.maxFrameBytes ∧
      decode libs c f =
        if (f.length - 4) % 2 ^ 32 ≠ f.length - 4 then
          fail (.frameLengthMismatch ((f.length - 4) % 2 ^ 32) (f.length - 4))
        else decodeComposite libs c p.messageType (composite text p.body.attachments) := by
  obtain ⟨text, payload, htext, hpay, hfits, hmax, rfl⟩ := encode_eq_ok h
  obtain ⟨hrec, hlen⟩ := recover_protect laws hpay
  have hcomp := composite_length text p.body.attachments
  have hflen := frame_length p.messageType payload
  have hact : (frame p.messageType payload).length - 4 = 1 + payload.length := by omega
  refine ⟨text, htext, by omega, by omega, ?_⟩
  rw [decode_frame _ (by omega), hrec, ok_bind, hact]

end Reading

/-! ### The packet that comes back -/

theorem normalize_attachments (b : PacketBody) : b.normalize.attachments = b.attachments := by
  cases b <;> rfl

theorem setAttachments_attachments (b : PacketBody) : b.setAttachments b.attachments = b := by
  cases b <;> rfl

theorem setAttachments_twice (b : PacketBody) (as bs : List FileAttachment) :
    (b.setAttachments as).setAttachments bs = b.setAttachments bs := by
  cases b <;> rfl

theorem messageType_setAttachments (b : PacketBody) (as : List FileAttachment) :
    (b.setAttachments as).messageType = b.messageType := by
  cases b <;> rfl

theorem normalize_setAttachments (b : PacketBody) (as : List FileAttachment) :
    (b.setAttachments as).normalize = b.normalize.setAttachments as := by
  cases b <;> rfl

theorem setAttachments_messageType (b : PacketBody) (as : List FileAttachment) :
    (b.normalize.setAttachments as).messageType = b.messageType := by
  cases b <;> rfl

theorem normalizeMetadata_idem (v : Value) :
    normalizeMetadata (normalizeMetadata v) = normalizeMetadata v := by
  unfold normalizeMetadata
  split_ifs <;> simp_all

theorem optionFromValue_idem (v : Value) :
    (optionFromValue v).bind optionFromValue = optionFromValue v := by
  unfold optionFromValue
  split <;> simp_all

theorem normalize_idem (b : PacketBody) : b.normalize.normalize = b.normalize := by
  have herr : ∀ e : ErrorPayload, e.normalize.normalize = e.normalize := by
    intro e
    cases hd : e.details <;> simp [ErrorPayload.normalize, hd, optionFromValue_idem]
  cases b <;> simp [PacketBody.normalize, normalizeMetadata_idem, herr, Function.comp_def]

/-- Two bodies that are the same up to the normalisations carry the same attachments. -/
theorem attachments_of_normalize_eq {b b' : PacketBody} {as : List FileAttachment}
    (h : (b'.setAttachments as).normalize = b.normalize) :
    as = b.attachments ∨ b.attachments = [] := by
  have hatts : (b'.setAttachments as).attachments = b.attachments := by
    rw [← normalize_attachments, h, normalize_attachments]
  cases b' with
  | apiRequest | eventEmit => exact .inl hatts
  | _ => exact .inr hatts.symm

end FrameCodec

/-- At most 255 attachments, each with lengths its prefixes can hold. -/
def PacketBody.AttachmentsFit (b : PacketBody) : Prop :=
  b.attachments.length ≤ 255 ∧ ∀ a ∈ b.attachments, a.Fits

namespace FrameCodec

section Results

variable {libs : Libs} {c : FrameCodec} {random : Except String Nonce} {p : PacketEnvelope}
  {f : Bytes}

/-- When the text parses back, the packet that comes back is the packet that was sent
with the attachments that could be read. -/
theorem decode_encode_sections (laws : AeadLaws libs) (hjson : libs.json.ParsesBack)
    (hp : p.Built) (hdepth : p.body.serialize.depth ≤ libs.json.nestingLimit)
    (hf : encode libs c random p = .ok f) (hlen : f.length - 4 < 2 ^ 32) :
    decode libs c f = (do
      let (atts, _) ← FileAttachment.readSections (p.body.attachments.length % 256)
        (p.body.attachments.flatMap FileAttachment.wire)
      .ok ⟨p.messageType, c.wireEncryption, p.body.normalize.setAttachments atts⟩) := by
  obtain ⟨text, htext, hflen, -, hdec⟩ := encode_inv laws hf
  have hparse : (libs.json.fromSlice text >>= PacketBody.deserialize) =
      .ok (p.body.normalize.setAttachments []) := by
    rw [hjson _ _ htext hdepth]
    exact deserialize_serialize p.body
  have hmod : (f.length - 4) % 2 ^ 32 = f.length - 4 := Nat.mod_eq_of_lt hlen
  rw [hdec, if_neg (not_not.mpr hmod), decodeComposite_composite _ _ _ (by omega), hparse]
  simp only [liftJson, ok_bind, setAttachments_twice, setAttachments_messageType,
    hp.messageType_eq, ne_eq, not_true_eq_false, if_false]

/-- What a frame of the packet is read as: the body that serde_json finds in the text, with the
attachments that could be read. -/
theorem decode_encode_inv (laws : AeadLaws libs) (hf : encode libs c random p = .ok f)
    {q : PacketEnvelope} (hq : decode libs c f = .ok q) :
    ∃ text b atts rest, libs.json.toWriter p.body.serialize = .ok text ∧ f.length - 4 < 2 ^ 32 ∧
      (libs.json.fromSlice text >>= PacketBody.deserialize) = .ok b ∧
      FileAttachment.readSections (p.body.attachments.length % 256)
        (p.body.attachments.flatMap FileAttachment.wire) = .ok (atts, rest) ∧
      b.messageType = p.messageType ∧
      q = ⟨p.messageType, c.wireEncryption, b.setAttachments atts⟩ := by
  obtain ⟨text, htext, hflen, -, hdec⟩ := encode_inv laws hf
  rw [hdec] at hq
  split at hq
  · simp at hq
  · rename_i hmod
    have hlt : f.length - 4 < 2 ^ 32 := by omega
    rw [decodeComposite_composite _ _ _ (by omega)] at hq
    obtain ⟨⟨atts, rest⟩, hread, hq⟩ := bind_eq_ok hq
    obtain ⟨b, hb, hq⟩ := bind_eq_ok hq
    dsimp only at hq
    rw [messageType_setAttachments] at hq
    split at hq
    · simp at hq
    · rename_i htype
      cases hq
      exact ⟨text, b, atts, rest, htext, hlt, liftJson_inv hb, hread, not_not.mp htype, rfl⟩

theorem readSections_attachments (hfit : p.body.AttachmentsFit)
    (hlen : (p.body.attachments.flatMap FileAttachment.wire).length < 2 ^ 32) :
    FileAttachment.readSections (p.body.attachments.length % 256)
      (p.body.attachments.flatMap FileAttachment.wire) = .ok (p.body.attachments, []) := by
  have hread := FileAttachment.readSections_wire p.body.attachments [] hfit.2 (by simpa using hlen)
  rw [Nat.mod_eq_of_lt (Nat.lt_succ_of_le hfit.1)]
  simpa using hread

theorem sections_length_lt (laws : AeadLaws libs) (hf : encode libs c random p = .ok f) :
    (p.body.attachments.flatMap FileAttachment.wire).length ≤ f.length - 4 := by
  obtain ⟨text, -, hflen, -, -⟩ := encode_inv laws hf
  rw [hflen, composite]
  simp only [List.length_append]
  omega

/-- Every packet whose attachments fit comes back, up to the two normalisations. -/
theorem decode_encode_frame (laws : AeadLaws libs) (hjson : libs.json.ParsesBack) (calls : List Call)
    (hp : p.Built) (hfit : p.body.AttachmentsFit)
    (hdepth : p.body.serialize.depth ≤ libs.json.nestingLimit)
    (hf : encode libs (build calls) random p = .ok f) (hlen : f.length < 2 ^ 32) :
    ∃ q, decode libs (build calls) f = .ok q ∧ q.messageType = p.messageType ∧
      q.encryption = (build calls).wireEncryption ∧ q.body = p.body.normalize := by
  have hsec := sections_length_lt laws hf
  refine ⟨⟨p.messageType, (build calls).wireEncryption, p.body.normalize⟩, ?_, rfl, rfl, rfl⟩
  rw [decode_encode_sections laws hjson hp hdepth hf (by omega),
    readSections_attachments hfit (by omega), ok_bind]
  simp only [← normalize_attachments p.body, setAttachments_attachments]

end Results

/-! ### One request on the wire -/

/-- serde_json on one body: the text of `ApiRequest` 7 for route `echo`. -/
def echoJson : SerdeJson where
  nestingLimit := 127
  toWriter
    | .object [("k", .number (.posInt 0)), ("i", .number (.posInt 7)), ("r", .string "echo"),
        ("p", .null)] => .ok (asBytes "\x7b\"k\":0,\"i\":7,\"r\":\"echo\",\"p\":null\x7d")
    | _ => .error .serde
  fromSlice text :=
    if text = asBytes "\x7b\"k\":0,\"i\":7,\"r\":\"echo\",\"p\":null\x7d" then
      .ok (Value.ofTree (.object [("k", .number (.posInt 0)), ("i", .number (.posInt 7)),
        ("r", .string "echo"), ("p", .null)]))
    else .error .serde

/-- A stand-in that appends an empty tag; a plaintext codec never calls it. -/
def tagOnly : Aead where
  encrypt _ _ msg := some (msg ++ List.replicate 16 0)
  decrypt _ _ c := some (c.take (c.length - 16))

def echoLibs : Libs := ⟨echoJson, tagOnly, tagOnly⟩

def echoRequest (as : List FileAttachment) : PacketEnvelope :=
  .new (.apiRequest 7 "echo" .null as .emptyObject)

theorem echoRequest_built (as : List FileAttachment) : (echoRequest as).Built := .new _

@[simp] theorem echoRequest_attachments (as : List FileAttachment) :
    (echoRequest as).body.attachments = as := rfl

theorem tagOnly_lawful : tagOnly.Lawful where
  decrypt_encrypt _ _ msg c h := by
    cases h
    simp [tagOnly]
  length_encrypt _ _ msg c h := by
    cases h
    simp

theorem echoLibs_laws : AeadLaws echoLibs := ⟨tagOnly_lawful, tagOnly_lawful⟩

theorem echoJson_parsesBack : echoJson.ParsesBack := by
  intro t text h _
  simp only [echoJson] at h ⊢
  split at h
  · cases h
    exact if_pos rfl
  · cases h

theorem echoJson_keeps (key : String) : echoJson.KeepsUnsigned key := by
  intro t text v n h hv hn
  have hdepth : t.depth ≤ echoJson.nestingLimit := by
    simp only [echoJson] at h
    split at h
    · decide
    · cases h
  rw [echoJson_parsesBack t text h hdepth] at hv
  cases hv
  exact hn

def textFile : FileAttachment := ⟨"f1", "a.txt", "text/plain", [104, 105]⟩

/-- One attachment and a metadata of `{}`, through a codec that was given a limit. -/
theorem decode_encode_frame_echo : ∃ f q,
    encode echoLibs (build [.maxFrameBytes 4096]) (.error "no entropy") (echoRequest [textFile]) =
      .ok f ∧
    decode echoLibs (build [.maxFrameBytes 4096]) f = .ok q ∧ q.messageType = .api ∧
    q.encryption = .none ∧ q.body = .apiRequest 7 "echo" .null [textFile] .null := by
  have hsome : (encode echoLibs (build [.maxFrameBytes 4096]) (.error "no entropy")
      (echoRequest [textFile])).toOption.isSome = true := by decide
  cases hf : encode echoLibs (build [.maxFrameBytes 4096]) (.error "no entropy")
      (echoRequest [textFile]) with
  | error e => simp [hf, Except.toOption] at hsome
  | ok f =>
    have hmax : f.length ≤ 4096 := (encode_inv echoLibs_laws hf).choose_spec.2.2.1
    obtain ⟨q, hq⟩ := decode_encode_frame echoLibs_laws echoJson_parsesBack [.maxFrameBytes 4096]
      (echoRequest_built _) ⟨by decide, by decide⟩ (by decide) hf (by omega)
    exact ⟨f, q, rfl, hq⟩

end FrameCodec

end Wscall.Protocol
