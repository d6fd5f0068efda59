import Mathlib.Data.Set.Basic
import Wscall.Protocol.BodyFields
import Wscall.Protocol.RoundTrip

/-!
# Tampering with encrypted frames

The length prefix and the type byte travel outside the cipher. `decode` compares the
first with the bytes it got and the second with the kind of the body, so with an ideal
cipher it accepts the frames that were encoded and no others.
-/

namespace Wscall.Protocol
open RustStd

/-- Under `key`, only what `encrypt` returned on one of the `requests` decrypts, and to the
message it was returned for. -/
def Aead.Ideal (a : Aead) (key : Key) (requests : Set (Nonce × Bytes)) : Prop :=
  ∀ nonce ct msg, a.decrypt key nonce ct = some msg →
    (nonce, msg) ∈ requests ∧ a.encrypt key nonce msg = some ct

theorem MessageType.tryFrom_inv {b : UInt8} {t : MessageType} (h : tryFrom b = .ok t) :
    b = t.toByte := by
  unfold tryFrom at h
  split_ifs at h <;> cases h <;> simpa

namespace FrameCodec

/-- One call of `encode`: what `getrandom` gave it, and the packet. -/
abbrev EncodeCall := Except String Nonce × PacketEnvelope

/-- The frames that a set of calls produced. -/
def frames (libs : Libs) (c : FrameCodec) (calls : Set EncodeCall) : Set Bytes :=
  {f | ∃ call ∈ calls, encode libs c call.1 call.2 = .ok f}

/-- What those calls hand to the cipher. A call that is refused afterwards, because nonce
and tag exceed the limit, has used it too. -/
def requests (libs : Libs) (c : FrameCodec) (calls : Set EncodeCall) : Set (Nonce × Bytes) :=
  {r | ∃ p text, (.ok r.1, p) ∈ calls ∧ libs.json.toWriter p.body.serialize = .ok text ∧
    r.2 = composite text p.body.attachments ∧ r.2.length ≤ c.maxFrameBytes - 5}

/-- The cipher that the codec encrypts with is ideal for those calls. -/
structure IdealCipher (libs : Libs) (c : FrameCodec) (calls : Set EncodeCall) : Prop where
  chacha20 : ∀ key, c.wireEncryption = .chacha20 → c.chacha20Cipher = some key →
    libs.chacha20.Ideal key (requests libs c calls)
  aes256 : ∀ key, c.wireEncryption = .aes256 → c.aes256Cipher = some key →
    libs.aes256.Ideal key (requests libs c calls)

section Decoding

variable {libs : Libs} {c : FrameCodec}

theorem decode_inv {f : Bytes} {q : PacketEnvelope} (h : decode libs c f = .ok q) :
    ∃ t payload comp, f = frame t payload ∧ payload.length + 5 ≤ c.maxFrameBytes ∧
      payload.length + 1 < 2 ^ 32 ∧ recover libs c payload = .ok comp ∧
        decodeComposite libs c t comp = .ok q := by
  unfold decode at h
  split at h
  · simp at h
  · rename_i hlong
    obtain ⟨declared, hdecl, h⟩ := bind_eq_ok h
    dsimp only at h
    split at h
    · simp at h
    · rename_i hsame
      split at h
      · simp at h
      · rename_i hmax
        obtain ⟨b, hb, h⟩ := bind_eq_ok h
        obtain ⟨t, ht, h⟩ := bind_eq_ok h
        rw [sliceFrom_eq_drop (by omega), ok_bind] at h
        obtain ⟨comp, hcomp, h⟩ := bind_eq_ok h
        obtain ⟨hword, hprefix⟩ := readU32_inv hdecl
        have htype := index_inv hb
        have hlen : (f.drop 5).length = f.length - 5 := List.length_drop
        refine ⟨t, f.drop 5, comp, ?_, by omega, by omega, hcomp, h⟩
        rw [frame, ← MessageType.tryFrom_inv ht, show 1 + (f.drop 5).length = declared by omega]
        simpa [htype] using hprefix

theorem decryptWith_inv {algorithm : String} {aead : Aead} {cipher : Option Key}
    {payload msg : Bytes} (h : decryptWith algorithm aead cipher payload = .ok msg) :
    ∃ key nonce ct, cipher = some key ∧ payload = nonce.toList ++ ct ∧
      aead.decrypt key nonce ct = some msg := by
  unfold decryptWith at h
  split at h
  · rename_i hlong
    cases cipher with
    | none => simp at h
    | some key =>
      cases hdec : aead.decrypt key (splitNonce payload hlong).1 (splitNonce payload hlong).2 with
      | none => simp [hdec] at h
      | some text =>
        simp only [hdec, Except.ok.injEq] at h
        subst h
        refine ⟨key, _, _, rfl, ?_, hdec⟩
        simp [splitNonce]
  · simp at h

theorem encryptWith_of_ideal {algorithm : String} {aead : Aead} {cipher : Option Key}
    {reqs : Set (Nonce × Bytes)} (hideal : ∀ key, cipher = some key → aead.Ideal key reqs)
    {payload msg : Bytes} (h : decryptWith algorithm aead cipher payload = .ok msg) :
    ∃ nonce, (nonce, msg) ∈ reqs ∧
      encryptWith algorithm aead cipher (.ok nonce) msg = .ok payload := by
  obtain ⟨key, nonce, ct, hkey, rfl, hdec⟩ := decryptWith_inv h
  obtain ⟨hreq, henc⟩ := hideal key hkey nonce ct msg hdec
  exact ⟨nonce, hreq, by simp [encryptWith, hkey, henc]⟩

theorem protect_of_recover {calls : Set EncodeCall} (hkey : c.wireEncryption ≠ .none)
    (hideal : IdealCipher libs c calls) {payload comp : Bytes}
    (h : recover libs c payload = .ok comp) :
    ∃ nonce, (nonce, comp) ∈ requests libs c calls ∧
      protect libs c (.ok nonce) comp = .ok payload := by
  unfold recover at h
  unfold protect
  cases henc : c.wireEncryption with
  | none => exact absurd henc hkey
  | chacha20 =>
    simp only [henc] at h
    exact encryptWith_of_ideal (fun key => hideal.chacha20 key henc) h
  | aes256 =>
    simp only [henc] at h
    exact encryptWith_of_ideal (fun key => hideal.aes256 key henc) h

theorem unsignedAt_serialize (b : PacketBody) :
    (Value.ofTree b.serialize).unsignedAt "k" = some b.kind.toUInt64 := by
  rw [Value.unsignedAt, PacketBody.serialize, Value.ofTree_object, Option.bind_some, get_kind]
  rfl

/-- The tag is what the type of a body that was read depends on. -/
theorem kind_of_reading (hkeeps : libs.json.KeepsUnsigned "k") {b b' : PacketBody} {text : Bytes}
    (htext : libs.json.toWriter b.serialize = .ok text)
    (hread : (libs.json.fromSlice text >>= PacketBody.deserialize) = .ok b') : b'.kind = b.kind := by
  obtain ⟨v, hv, hb⟩ := bind_eq_ok hread
  obtain ⟨map, hobj, hread, -⟩ := deserialize_fields hb
  have hprinted := hkeeps _ _ v _ htext hv (unsignedAt_serialize b)
  rw [Value.unsignedAt, hobj, Option.bind_some] at hprinted
  have hsame : b'.kind.toUInt64 = b.kind.toUInt64 := Option.some.inj (hread.symm.trans hprinted)
  simpa using congrArg UInt64.toUInt8 hsame

theorem messageType_of_kind {b b' : PacketBody} (h : b'.kind = b.kind) :
    b'.messageType = b.messageType := by
  have htype : ∀ b : PacketBody, b.messageType =
      if b.kind = kApiRequest ∨ b.kind = kApiResponse then .api
      else if b.kind = kEventEmit ∨ b.kind = kEventAck then .event else .auth := by
    intro b
    cases b <;> rfl
  rw [htype, htype, h]

theorem messageType_of_decodeComposite (hkeeps : libs.json.KeepsUnsigned "k") {b : PacketBody}
    {text : Bytes} (htext : libs.json.toWriter b.serialize = .ok text)
    (hlen : (composite text b.attachments).length < 2 ^ 32) {t : MessageType} {q : PacketEnvelope}
    (h : decodeComposite libs c t (composite text b.attachments) = .ok q) : t = b.messageType := by
  rw [decodeComposite_composite t text b.attachments hlen] at h
  obtain ⟨⟨atts, rest⟩, -, h⟩ := bind_eq_ok h
  obtain ⟨body, hbody, h⟩ := bind_eq_ok h
  have hread : (libs.json.fromSlice text >>= PacketBody.deserialize) = .ok body := liftJson_inv hbody
  dsimp only at h
  rw [messageType_setAttachments, messageType_of_kind (kind_of_reading hkeeps htext hread)] at h
  split at h
  · simp at h
  · rename_i hne
    exact (not_not.mp hne).symm

/-- With an ideal cipher, whatever `decode` accepts is byte for byte a frame that `encode`
produced. -/
theorem accepted_is_encoded (hkeeps : libs.json.KeepsUnsigned "k")
    (hkey : c.wireEncryption ≠ .none) (hlimit : c.maxFrameBytes ≤ 2 ^ 32)
    {calls : Set EncodeCall} (hbuilt : ∀ call ∈ calls, call.2.Built)
    (hideal : IdealCipher libs c calls) {f : Bytes} {q : PacketEnvelope}
    (hq : decode libs c f = .ok q) : f ∈ frames libs c calls := by
  obtain ⟨t, payload, comp, rfl, hmax, -, hrec, hcomp⟩ := decode_inv hq
  obtain ⟨nonce, ⟨p, text, hcall, htext, hmsg, hfits⟩, hpay⟩ := protect_of_recover hkey hideal hrec
  dsimp only at hmsg hfits
  subst hmsg
  have ht := messageType_of_decodeComposite hkeeps htext (by omega) hcomp
  have hp : p.body.messageType = p.messageType := (hbuilt _ hcall).messageType_eq.symm
  refine ⟨(.ok nonce, p), hcall, ?_⟩
  simp only [encode_eq, htext, liftJson, ok_bind, hpay]
  rw [if_neg (by omega), if_neg (by omega), ht, hp]

end Decoding

/-! ### One encrypted request -/

def echoMessage : Bytes :=
  composite (asBytes "\x7b\"k\":0,\"i\":7,\"r\":\"echo\",\"p\":null\x7d") []

/-- A cipher under which `echoMessage`, with the zero nonce, was encrypted and nothing else. -/
def echoOnly : Aead where
  encrypt _ _ msg := some (msg ++ List.replicate 16 0)
  decrypt _ nonce ct :=
    if nonce = Vector.replicate 12 0 ∧ ct = echoMessage ++ List.replicate 16 0 then
      some echoMessage
    else none

def sealedLibs : Libs := ⟨echoJson, echoOnly, echoOnly⟩

def sealedCodec : FrameCodec := build [.chacha20Key (Vector.replicate 32 0), .maxFrameBytes 4096]

def echoCall : EncodeCall := (.ok (Vector.replicate 12 0), echoRequest [])

theorem echoOnly_ideal (key : Key) :
    echoOnly.Ideal key (requests sealedLibs sealedCodec {echoCall}) := by
  intro nonce ct msg h
  simp only [echoOnly] at h
  split at h
  · rename_i hpair
    obtain ⟨rfl, rfl⟩ := hpair
    cases h
    exact ⟨⟨echoRequest [], _, rfl, rfl, rfl, by decide⟩, rfl⟩
  · cases h

theorem accepted_is_encoded_echo :
    ((encode sealedLibs sealedCodec echoCall.1 echoCall.2 >>=
      decode sealedLibs sealedCodec).toOption.isSome = true) ∧
    ∀ f q, decode sealedLibs sealedCodec f = .ok q →
      f ∈ frames sealedLibs sealedCodec {echoCall} := by
  refine ⟨by decide, fun f q hq => ?_⟩
  refine accepted_is_encoded (echoJson_keeps "k") (by decide) (by decide) ?_ ?_ hq
  · intro call hcall
    cases hcall
    exact echoRequest_built []
  · exact ⟨fun key _ _ => echoOnly_ideal key, fun key _ _ => echoOnly_ideal key⟩

end FrameCodec

end Wscall.Protocol
