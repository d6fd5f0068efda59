import Wscall.Protocol.Header
import Wscall.Protocol.RoundTrip

/-!
# What the encoder promises

The fast path and the encrypted path wrap the same composite, and the limit on the payload
(`lib.rs:931`, checked before and after encryption) is the decoder's limit on the frame.
-/

namespace Wscall.Protocol.FrameCodec
open RustStd

/-! ### The two paths -/

theorem declaredLen_frame (t : MessageType) {payload : Bytes}
    (hlen : (frame t payload).length < 2 ^ 32) :
    declaredLen (frame t payload) = (frame t payload).length - 4 := by
  have hsize := frame_length t payload
  have hword : declaredLen (frame t payload) = (UInt32.ofNat (1 + payload.length)).toNat := by
    show (fromBeBytes _ _ _ _).toNat = _
    rw [fromBeBytes_toBeBytes]
  rw [hword, UInt32.toNat_ofNat', Nat.mod_eq_of_lt (by omega)]
  omega

section Paths

variable {libs : Libs} {plain keyed : FrameCodec} {random random' : Except String Nonce}
  {p : PacketEnvelope} {f f' : Bytes}

/-- The frames of one envelope in the two modes differ by the encryption of the payload. -/
theorem paths_agree (laws : AeadLaws libs) (hplain : plain.wireEncryption = .none)
    (hkeyed : keyed.wireEncryption ≠ .none) (hf : encode libs plain random p = .ok f)
    (hf' : encode libs keyed random' p = .ok f') :
    recover libs keyed (f'.drop 5) = .ok (f.drop 5) ∧
    f[4]? = some p.messageType.toByte ∧ f'[4]? = some p.messageType.toByte ∧
    (f.length < 2 ^ 32 → declaredLen f = f.length - 4) ∧
    (f'.length < 2 ^ 32 → declaredLen f' = f'.length - 4) ∧
    f'.length = f.length + 28 := by
  obtain ⟨text, payload, htext, hpay, -, -, rfl⟩ := encode_eq_ok hf
  obtain ⟨text', payload', htext', hpay', -, -, rfl⟩ := encode_eq_ok hf'
  have hsame : text' = text := by
    rw [htext] at htext'
    cases htext'
    rfl
  subst hsame
  have hcomp : payload = composite text' p.body.attachments := by
    simpa [protect, hplain, eq_comm] using hpay
  obtain ⟨hrec, hlen⟩ := recover_protect laws hpay'
  have hover : keyed.overhead = 28 := if_neg hkeyed
  refine ⟨?_, rfl, rfl, declaredLen_frame _, declaredLen_frame _, ?_⟩
  · rw [hcomp]
    exact hrec
  · rw [frame_length, frame_length, hcomp]
    omega

end Paths

theorem paths_agree_echo :
    ∃ f f', encode echoLibs plaintext (.error "no entropy") (echoRequest [textFile]) = .ok f ∧
      encode echoLibs (build [.chacha20Key (Vector.replicate 32 7)]) (.ok (Vector.replicate 12 1))
        (echoRequest [textFile]) = .ok f' ∧
      recover echoLibs (build [.chacha20Key (Vector.replicate 32 7)]) (f'.drop 5) = .ok (f.drop 5) ∧
      f'.length = f.length + 28 := by
  obtain ⟨f, hf⟩ : ∃ f, encode echoLibs plaintext (.error "no entropy") (echoRequest [textFile]) =
    .ok f := ⟨_, rfl⟩
  obtain ⟨f', hf'⟩ : ∃ f', encode echoLibs (build [.chacha20Key (Vector.replicate 32 7)])
    (.ok (Vector.replicate 12 1)) (echoRequest [textFile]) = .ok f' := ⟨_, rfl⟩
  have h := paths_agree echoLibs_laws rfl (by decide) hf hf'
  exact ⟨f, f', hf, hf', h.1, h.2.2.2.2.2⟩

/-! ### The limit -/

/-- The length of a packet's frame, given the text of its body. -/
def frameSize (c : FrameCodec) (text : Bytes) (p : PacketEnvelope) : ℕ :=
  (composite text p.body.attachments).length + c.overhead + 5

def Seals (libs : Libs) (c : FrameCodec) (nonce : Nonce) (msg : Bytes) : Prop :=
  match c.wireEncryption with
  | .none => True
  | .chacha20 => ∀ key, c.chacha20Cipher = some key → (libs.chacha20.encrypt key nonce msg).isSome
  | .aes256 => ∀ key, c.aes256Cipher = some key → (libs.aes256.encrypt key nonce msg).isSome

section Limit

variable {libs : Libs} {c : FrameCodec} {nonce : Nonce} {p : PacketEnvelope} {text : Bytes}

theorem protect_of_seals (hk : c.Keyed) {msg : Bytes} (hs : Seals libs c nonce msg) :
    ∃ payload, protect libs c (.ok nonce) msg = .ok payload := by
  unfold Keyed at hk
  unfold Seals at hs
  unfold protect
  cases henc : c.wireEncryption with
  | none => exact ⟨msg, rfl⟩
  | chacha20 =>
    simp only [henc] at hk hs
    exact encryptWith_ok hk hs
  | aes256 =>
    simp only [henc] at hk hs
    exact encryptWith_ok hk hs

theorem encode_of_fits (laws : AeadLaws libs) (hk : c.Keyed)
    (htext : libs.json.toWriter p.body.serialize = .ok text)
    (hs : Seals libs c nonce (composite text p.body.attachments))
    (hfits : c.frameSize text p ≤ c.maxFrameBytes) :
    ∃ f, c.encode libs (.ok nonce) p = .ok f ∧ f.length = c.frameSize text p := by
  unfold frameSize at hfits ⊢
  obtain ⟨payload, hpay⟩ := protect_of_seals hk hs
  have hlen := (recover_protect laws hpay).2
  refine ⟨frame p.messageType payload, ?_, ?_⟩
  · simp only [encode_eq, htext, liftJson, ok_bind, hpay]
    rw [if_neg (by omega), if_neg (by omega)]
  · rw [frame_length]
    omega

theorem encode_of_exceeds (laws : AeadLaws libs) (hk : c.Keyed)
    (htext : libs.json.toWriter p.body.serialize = .ok text)
    (hs : (composite text p.body.attachments).length ≤ c.maxFrameBytes →
      Seals libs c nonce (composite text p.body.attachments))
    (hbig : c.maxFrameBytes < c.frameSize text p) :
    ∃ size max, c.encode libs (.ok nonce) p = fail (.payloadTooLarge size max) := by
  have hcomp := composite_length text p.body.attachments
  unfold frameSize at hbig
  simp only [encode_eq, htext, liftJson, ok_bind]
  split_ifs with hfirst
  · exact ⟨_, _, rfl⟩
  · obtain ⟨payload, hpay⟩ := protect_of_seals hk (hs (by omega))
    have hlen := (recover_protect laws hpay).2
    simp only [hpay, ok_bind]
    rw [if_pos (by omega)]
    exact ⟨_, _, rfl⟩

theorem protect_keyed (libs : Libs) (hk : c.Keyed) (random : Except String Nonce) (msg : Bytes) :
    Returns (protect libs c random msg) ∧
      FailsOnly (fun e => ∀ a, e ≠ .missingEncryptionKey a) (protect libs c random msg) := by
  have hencrypt : ∀ (algorithm : String) (aead : Aead) (cipher : Option Key), cipher.isSome →
      Returns (encryptWith algorithm aead cipher random msg) ∧
        FailsOnly (fun e => ∀ a, e ≠ .missingEncryptionKey a)
          (encryptWith algorithm aead cipher random msg) := by
    intro algorithm aead cipher hkey
    obtain ⟨key, rfl⟩ := Option.isSome_iff_exists.mp hkey
    unfold encryptWith
    dsimp only
    cases random with
    | error source => simp
    | ok nonce => cases henc : aead.encrypt key nonce msg <;> simp [henc]
  unfold Keyed at hk
  unfold protect
  cases henc : c.wireEncryption with
  | none => simp
  | chacha20 =>
    simp only [henc] at hk
    exact hencrypt _ _ _ hk
  | aes256 =>
    simp only [henc] at hk
    exact hencrypt _ _ _ hk

theorem encode_keyed (libs : Libs) (hk : c.Keyed) (random : Except String Nonce) (p : PacketEnvelope) :
    Returns (c.encode libs random p) ∧
      FailsOnly (fun e => ∀ a, e ≠ .missingEncryptionKey a) (c.encode libs random p) := by
  rw [encode_eq]
  cases libs.json.toWriter p.body.serialize with
  | error e => simp [liftJson]
  | ok text =>
    obtain ⟨hret, hfails⟩ := protect_keyed libs hk random (composite text p.body.attachments)
    simp only [liftJson, ok_bind]
    split_ifs
    · simp
    · refine ⟨hret.bind fun payload _ => ?_, hfails.bind fun payload => ?_⟩
      · split_ifs <;> simp
      · split_ifs <;> simp

theorem decode_ne_frameTooLarge {f : Bytes} (hlen : f.length ≤ c.maxFrameBytes) (actual max : ℕ) :
    decode libs c f ≠ fail (.frameTooLarge actual max) := by
  intro hdec
  cases hhead : headerError c.maxFrameBytes f with
  | none => exact decode_fails_of_header hhead _ hdec trivial
  | some e =>
    rw [decode_of_headerError hhead] at hdec
    cases hdec
    unfold headerError at hhead
    split_ifs at hhead with hshort hsame hmax
    · cases hhead
    · cases hhead
    · omega

/-- With the limit `m` of a built codec: a packet of composite length `n` is encoded when
`5 + n + h ≤ m`, refused as too large otherwise, and its frame passes every decoder of
limit `m`. -/
theorem encode_ok_iff_size (laws : AeadLaws libs) (calls : List Call) (nonce : Nonce)
    (p : PacketEnvelope) {text : Bytes} (htext : libs.json.toWriter p.body.serialize = .ok text)
    (hs : Seals libs (build calls) nonce (composite text p.body.attachments)) :
    let c := build calls
    let n := text.length + 1 + (p.body.attachments.map FileAttachment.wireSize).sum + 4
    let h := if c.wireEncryption = .none then 0 else 28
    ((∃ f, encode libs c (.ok nonce) p = .ok f) ↔ 5 + n + h ≤ c.maxFrameBytes) ∧
    (¬ 5 + n + h ≤ c.maxFrameBytes →
      ∃ actual max, encode libs c (.ok nonce) p = fail (.payloadTooLarge actual max)) ∧
    (∀ random, Returns (encode libs c random p) ∧
      ∀ algorithm, encode libs c random p ≠ fail (.missingEncryptionKey algorithm)) ∧
    ∀ random f, encode libs c random p = .ok f → f.length = 5 + n + h ∧ f.length ≤ c.maxFrameBytes ∧
      ∀ d : FrameCodec, d.maxFrameBytes = c.maxFrameBytes →
        ∀ actual max, decode libs d f ≠ fail (.frameTooLarge actual max) := by
  intro c n h
  have hsize : c.frameSize text p = 5 + n + h := by
    have hcomp := composite_length text p.body.attachments
    have hover : c.overhead = h := rfl
    unfold frameSize
    omega
  have hframe : ∀ random f, encode libs c random p = .ok f →
      f.length = 5 + n + h ∧ f.length ≤ c.maxFrameBytes := by
    intro random f hf
    obtain ⟨text', htext', hlen, hmax, -⟩ := encode_inv laws hf
    rw [htext] at htext'
    cases htext'
    exact ⟨hlen.trans hsize, hmax⟩
  refine ⟨⟨fun hok => ?_, fun hfits => ?_⟩, fun hbig => ?_, fun random => ?_, fun random f hf => ?_⟩
  · obtain ⟨f, hf⟩ := hok
    obtain ⟨hlen, hmax⟩ := hframe _ f hf
    omega
  · obtain ⟨f, hf, -⟩ := encode_of_fits laws (build_keyed calls) htext hs (hsize ▸ hfits)
    exact ⟨f, hf⟩
  · exact encode_of_exceeds laws (build_keyed calls) htext (fun _ => hs) (by omega)
  · obtain ⟨hret, hfails⟩ := encode_keyed libs (build_keyed calls) random p
    exact ⟨hret, fun algorithm hmissing => hfails _ hmissing algorithm rfl⟩
  · obtain ⟨hlen, hmax⟩ := hframe random f hf
    exact ⟨hlen, hmax, fun d hd => decode_ne_frameTooLarge (hd ▸ hmax)⟩

end Limit

/-- A limit of 3 refuses the request, and one of its exact size under AES-256 does not. -/
theorem encode_ok_iff_size_echo :
    (∃ actual max, encode echoLibs (build [.maxFrameBytes 3]) (.ok (Vector.replicate 12 1))
      (echoRequest []) = fail (.payloadTooLarge actual max)) ∧
    ∃ f, encode echoLibs (build [.maxFrameBytes 71, .aes256Key (Vector.replicate 32 7)])
      (.ok (Vector.replicate 12 1)) (echoRequest []) = .ok f := by
  obtain ⟨text, htext⟩ : ∃ text, echoLibs.json.toWriter (echoRequest []).body.serialize = .ok text :=
    ⟨_, rfl⟩
  have hlen : text.length = 33 := by
    cases htext
    rfl
  constructor
  · refine (encode_ok_iff_size echoLibs_laws [.maxFrameBytes 3] (Vector.replicate 12 1)
      (echoRequest []) htext trivial).2.1 ?_
    rw [hlen]
    decide
  · refine (encode_ok_iff_size echoLibs_laws [.maxFrameBytes 71, .aes256Key (Vector.replicate 32 7)]
      (Vector.replicate 12 1) (echoRequest []) htext fun _ _ => rfl).1.mpr ?_
    rw [hlen]
    decide

end Wscall.Protocol.FrameCodec
