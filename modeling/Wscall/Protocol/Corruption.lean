import Wscall.Protocol.Encoder

/-!
# Packets the format cannot carry

`encode` narrows the attachment count and three lengths per attachment to a byte
without looking. A packet that overflows one of them is not refused; whether its frame
is then read as another packet depends on whether the bytes happen to parse. The text is
what serde_json prints, and it may be read back as other values than were printed: a double
is, for one.
-/

namespace Wscall.Protocol
open RustStd

/-- The bodies are the same up to the normalisations, attachments aside. -/
def PacketBody.SameFields (b b' : PacketBody) : Prop :=
  (b.setAttachments []).normalize = (b'.setAttachments []).normalize

namespace FrameCodec

/-- No frame of the packet is read back as a different body, up to the normalisations. -/
def NeverCorrupts (libs : Libs) (c : FrameCodec) (p : PacketEnvelope) : Prop :=
  ∀ random f, encode libs c random p = .ok f →
    ∀ q, decode libs c f = .ok q → q.body.normalize = p.body.normalize

/-- The bytes the packet is laid out as can be read: the body prints as this text, the sizes
pass, as many sections as the count byte announces stand at the start of the section bytes, and
the text is read as this body, which is of the packet's type. -/
structure Readable (libs : Libs) (c : FrameCodec) (p : PacketEnvelope) (text : Bytes)
    (b : PacketBody) : Prop where
  prints : libs.json.toWriter p.body.serialize = .ok text
  fits_limit : text.length + 5 + (p.body.attachments.map FileAttachment.wireSize).sum +
    c.overhead ≤ c.maxFrameBytes - 5
  fits_u32 : text.length + 5 + (p.body.attachments.map FileAttachment.wireSize).sum +
    c.overhead + 1 < 2 ^ 32
  parses : ∃ ss rest, WireSection.Starts (p.body.attachments.length % 256)
    (p.body.attachments.flatMap FileAttachment.wire) ss rest
  reads : (libs.json.fromSlice text >>= PacketBody.deserialize) = .ok b
  kind : b.messageType = p.messageType

structure AeadAccepts (libs : Libs) : Prop where
  chacha20 : libs.chacha20.Accepts
  aes256 : libs.aes256.Accepts

section Exact

variable {libs : Libs} {p : PacketEnvelope}

theorem AeadAccepts.seals (accepts : AeadAccepts libs) (c : FrameCodec) (nonce : Nonce) {msg : Bytes}
    (hlt : msg.length < 2 ^ 32) : Seals libs c nonce msg := by
  unfold Seals
  split
  · trivial
  · exact fun key _ => accepts.chacha20 key nonce msg hlt
  · exact fun key _ => accepts.aes256 key nonce msg hlt

theorem encode_ok (laws : AeadLaws libs) (accepts : AeadAccepts libs) {c : FrameCodec}
    (hk : c.Keyed) (nonce : Nonce) {text : Bytes} {b : PacketBody} (hr : Readable libs c p text b) :
    ∃ f, encode libs c (.ok nonce) p = .ok f := by
  have hcomp := composite_length text p.body.attachments
  have h32 := hr.fits_u32
  have hlim := hr.fits_limit
  obtain ⟨f, hf, -⟩ := encode_of_fits laws hk hr.prints (accepts.seals c nonce (by omega))
    (show c.frameSize text p ≤ c.maxFrameBytes by unfold frameSize; omega)
  exact ⟨f, hf⟩

/-- A frame that is read back was readable, and as this body. -/
theorem readable_of_decode (laws : AeadLaws libs) {c : FrameCodec} {random : Except String Nonce}
    {f : Bytes} (hf : encode libs c random p = .ok f) {q : PacketEnvelope}
    (hq : decode libs c f = .ok q) : ∃ text b atts rest, Readable libs c p text b ∧
      FileAttachment.readSections (p.body.attachments.length % 256)
        (p.body.attachments.flatMap FileAttachment.wire) = .ok (atts, rest) ∧
      q.body = b.setAttachments atts := by
  obtain ⟨text, b, atts, rest, htext, hlt, hb, hread, hkind, rfl⟩ := decode_encode_inv laws hf hq
  obtain ⟨text', htext', hflen, hmax, -⟩ := encode_inv laws hf
  cases htext.symm.trans htext'
  have hcomp := composite_length text p.body.attachments
  obtain ⟨ss, hss, -⟩ := FileAttachment.readSections_inv hread
  exact ⟨text, b, atts, rest, ⟨htext, by omega, by omega, ⟨ss, rest, hss⟩, hb, hkind⟩, hread, rfl⟩

/-- A readable packet has a frame that is read back. -/
theorem decode_of_readable (laws : AeadLaws libs) (accepts : AeadAccepts libs) {c : FrameCodec}
    (hk : c.Keyed) {text : Bytes} {b : PacketBody} (hr : Readable libs c p text b) :
    ∃ random f q atts rest, encode libs c random p = .ok f ∧ decode libs c f = .ok q ∧
      FileAttachment.readSections (p.body.attachments.length % 256)
        (p.body.attachments.flatMap FileAttachment.wire) = .ok (atts, rest) ∧
      atts.length = p.body.attachments.length % 256 ∧ q.body = b.setAttachments atts := by
  obtain ⟨f, hf⟩ := encode_ok laws accepts hk (Vector.replicate 12 0) hr
  obtain ⟨text', htext, hflen, -, hdec⟩ := encode_inv laws hf
  cases hr.prints.symm.trans htext
  have hcomp := composite_length text p.body.attachments
  have h32 := hr.fits_u32
  obtain ⟨ss, rest, hss⟩ := hr.parses
  have hsec := sections_length_lt laws hf
  have hatts := FileAttachment.readSections_starts hss (by omega)
  have hmod : (f.length - 4) % 2 ^ 32 = f.length - 4 := Nat.mod_eq_of_lt (by omega)
  rw [if_neg (not_not.mpr hmod), decodeComposite_composite _ _ _ (by omega), hatts, ok_bind,
    hr.reads] at hdec
  dsimp only [liftJson] at hdec
  rw [ok_bind, messageType_setAttachments, if_neg (not_not.mpr hr.kind)] at hdec
  exact ⟨_, f, _, _, rest, hf, hdec, hatts, by rw [List.length_map, hss.count], rfl⟩

theorem attachmentsFit_of_readSections {rest : Bytes} {atts : List FileAttachment}
    (hread : FileAttachment.readSections (p.body.attachments.length % 256)
      (p.body.attachments.flatMap FileAttachment.wire) = .ok (atts, rest))
    (hlen : atts.length = p.body.attachments.length % 256)
    (hsame : atts = p.body.attachments ∨ p.body.attachments = []) : p.body.AttachmentsFit := by
  rcases hsame with rfl | hnil
  · have hmod : p.body.attachments.length % 256 = p.body.attachments.length := hlen.symm
    have hback : FileAttachment.readSections p.body.attachments.length
        (p.body.attachments.flatMap FileAttachment.wire ++ []) = .ok (p.body.attachments, rest) := by
      rw [hmod] at hread
      rwa [List.append_nil]
    exact ⟨by omega, FileAttachment.fits_of_readSections _ [] hback⟩
  · simp [PacketBody.AttachmentsFit, hnil]

theorem sameFields_of_normalize_eq {b b' : PacketBody} {as : List FileAttachment}
    (h : (b'.setAttachments as).normalize = b.normalize) : b'.SameFields b := by
  have hnil := congrArg (·.setAttachments []) h
  simp only [normalize_setAttachments, setAttachments_twice] at hnil
  simpa only [PacketBody.SameFields, normalize_setAttachments] using hnil

theorem normalize_eq_of_sameFields {b b' : PacketBody} (h : b'.SameFields b) :
    (b'.setAttachments b.attachments).normalize = b.normalize := by
  have hatts := congrArg (·.setAttachments b.attachments) h
  simp only [normalize_setAttachments, setAttachments_twice] at hatts
  rw [normalize_setAttachments, hatts, ← normalize_attachments b, setAttachments_attachments]

/-- The text is no obstacle when serde_json reads back the tree it printed. -/
theorem sameFields_of_readsBack {text : Bytes} {b b' : PacketBody}
    (hback : libs.json.fromSlice text = .ok (Value.ofTree b.serialize))
    (hread : (libs.json.fromSlice text >>= PacketBody.deserialize) = .ok b') : b'.SameFields b := by
  rw [hback] at hread
  cases (deserialize_serialize b).symm.trans hread
  simp only [PacketBody.SameFields, normalize_setAttachments, setAttachments_twice, normalize_idem]

end Exact

theorem echoLibs_accepts : AeadAccepts echoLibs := ⟨fun _ _ _ _ => rfl, fun _ _ _ _ => rfl⟩

end FrameCodec

end Wscall.Protocol
