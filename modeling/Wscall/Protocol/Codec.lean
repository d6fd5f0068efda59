import Wscall.Protocol.Attachment
import Wscall.Protocol.BodyRoundTrip

/-!
# The frame codec (`wscall-protocol/src/lib.rs:817-1181`)

`frame_len:u32 | message_type:u8 | payload`, where the payload is the composite
`meta_len:u32 | json | att_count:u8 | sections`, encrypted unless the connection is
plaintext. The encoder has two paths; `encode_eq` shows that they lay out the same
frame.
-/

namespace Wscall.Protocol
open RustStd

/-- `[u8; 32]`. -/
abbrev Key := Vector UInt8 32
abbrev Nonce := Vector UInt8 12

/-- An AEAD cipher of the `aead` crate with empty associated data. -/
structure Aead where
  encrypt : Key → Nonce → Bytes → Option Bytes
  decrypt : Key → Nonce → Bytes → Option Bytes

/-- Decryption undoes encryption under the same key and nonce, and the ciphertext carries
a 16-byte tag. -/
structure Aead.Lawful (a : Aead) : Prop where
  decrypt_encrypt : ∀ key nonce msg c, a.encrypt key nonce msg = some c →
    a.decrypt key nonce c = some msg
  length_encrypt : ∀ key nonce msg c, a.encrypt key nonce msg = some c →
    c.length = msg.length + 16

/-- No message below 4 GiB is refused: both ciphers' own limits are higher. -/
def Aead.Accepts (a : Aead) : Prop :=
  ∀ key nonce msg, msg.length < 2 ^ 32 → (a.encrypt key nonce msg).isSome

/-- The libraries the codec calls. -/
structure Libs where
  json : SerdeJson
  chacha20 : Aead
  aes256 : Aead

structure FrameCodec where
  aes256Cipher : Option Key
  chacha20Cipher : Option Key
  wireEncryption : EncryptionKind
  maxFrameBytes : ℕ
  deriving DecidableEq

namespace FrameCodec

def defaultMaxFrameBytes : ℕ := 100 * 1024 * 1024

def plaintext : FrameCodec := ⟨none, none, .none, defaultMaxFrameBytes⟩

def withChacha20Key (c : FrameCodec) (key : Key) : FrameCodec :=
  { c with chacha20Cipher := some key, wireEncryption := .chacha20 }

def withAes256Key (c : FrameCodec) (key : Key) : FrameCodec :=
  { c with aes256Cipher := some key, wireEncryption := .aes256 }

def withMaxFrameBytes (c : FrameCodec) (max : ℕ) : FrameCodec := { c with maxFrameBytes := max }

inductive Call where
  | chacha20Key (key : Key)
  | aes256Key (key : Key)
  | maxFrameBytes (max : ℕ)

def apply (c : FrameCodec) : Call → FrameCodec
  | .chacha20Key key => c.withChacha20Key key
  | .aes256Key key => c.withAes256Key key
  | .maxFrameBytes max => c.withMaxFrameBytes max

def build (calls : List Call) : FrameCodec := calls.foldl apply plaintext

/-- The cipher the wire encryption names is there. -/
def Keyed (c : FrameCodec) : Prop :=
  match c.wireEncryption with
  | .none => True
  | .chacha20 => c.chacha20Cipher.isSome
  | .aes256 => c.aes256Cipher.isSome

theorem apply_keyed {c : FrameCodec} (h : c.Keyed) (call : Call) : (c.apply call).Keyed := by
  cases call with
  | chacha20Key key => exact rfl
  | aes256Key key => exact rfl
  | maxFrameBytes max => exact h

theorem build_keyed (calls : List Call) : (build calls).Keyed := by
  have hrun : ∀ (calls : List Call) (c : FrameCodec), c.Keyed → (calls.foldl apply c).Keyed := by
    intro calls
    induction calls with
    | nil => exact fun _ h => h
    | cons call calls ih => exact fun c h => ih _ (apply_keyed h call)
  exact hrun calls plaintext trivial

/-! ### Encryption -/

/-- `encrypt_chacha20` and `encrypt_aes256`; `random` is what `getrandom` returns. -/
def encryptWith (algorithm : String) (aead : Aead) (cipher : Option Key)
    (random : Except String Nonce) (payload : Bytes) : Checked ProtocolError Bytes :=
  match cipher with
  | none => fail (.missingEncryptionKey algorithm)
  | some key =>
    match random with
    | .error source => fail (.random source)
    | .ok nonce =>
      match aead.encrypt key nonce payload with
      | none => fail (.encryptionFailed algorithm)
      | some ciphertext => .ok (nonce.toList ++ ciphertext)

/-- `split_at(12)` on a payload that is long enough. -/
def splitNonce (payload : Bytes) (h : 12 ≤ payload.length) : Nonce × Bytes :=
  (⟨(payload.take 12).toArray, by simpa using h⟩, payload.drop 12)

/-- `decrypt_chacha20` and `decrypt_aes256`: the length is looked at before the key. -/
def decryptWith (algorithm : String) (aead : Aead) (cipher : Option Key) (payload : Bytes) :
    Checked ProtocolError Bytes :=
  if h : 12 ≤ payload.length then
    match cipher with
    | none => fail (.missingEncryptionKey algorithm)
    | some key =>
      match aead.decrypt key (splitNonce payload h).1 (splitNonce payload h).2 with
      | none => fail (.decryptionFailed algorithm)
      | some text => .ok text
  else fail (.encryptedPayloadTooShort algorithm 12 payload.length)

section Paths

variable (libs : Libs) (c : FrameCodec) (random : Except String Nonce)

def encryptChacha20 (payload : Bytes) : Checked ProtocolError Bytes :=
  encryptWith "chacha20" libs.chacha20 c.chacha20Cipher random payload

def encryptAes256 (payload : Bytes) : Checked ProtocolError Bytes :=
  encryptWith "aes256" libs.aes256 c.aes256Cipher random payload

def decryptChacha20 (payload : Bytes) : Checked ProtocolError Bytes :=
  decryptWith "chacha20" libs.chacha20 c.chacha20Cipher payload

def decryptAes256 (payload : Bytes) : Checked ProtocolError Bytes :=
  decryptWith "aes256" libs.aes256 c.aes256Cipher payload

end Paths

theorem decryptWith_encryptWith {algorithm : String} {aead : Aead} (hl : aead.Lawful)
    {cipher : Option Key} {random : Except String Nonce} {msg payload : Bytes}
    (h : encryptWith algorithm aead cipher random msg = .ok payload) :
    decryptWith algorithm aead cipher payload = .ok msg ∧ payload.length = msg.length + 28 := by
  unfold encryptWith at h
  cases cipher with
  | none => simp at h
  | some key =>
    cases random with
    | error source => simp at h
    | ok nonce =>
      cases henc : aead.encrypt key nonce msg with
      | none => simp [henc] at h
      | some ct =>
        simp only [henc, Except.ok.injEq] at h
        subst h
        have hn : nonce.toList.length = 12 := by simp
        have hle : 12 ≤ (nonce.toList ++ ct).length := by
          rw [List.length_append]
          omega
        have hsplit : splitNonce (nonce.toList ++ ct) hle = (nonce, ct) := by
          have htake : (nonce.toList ++ ct).take 12 = nonce.toList := List.take_left' hn
          have hdrop : (nonce.toList ++ ct).drop 12 = ct := List.drop_left' hn
          simp only [splitNonce, htake, hdrop]
          rfl
        refine ⟨?_, ?_⟩
        · rw [decryptWith, dif_pos hle, hsplit]
          simp only [hl.decrypt_encrypt key nonce msg ct henc]
        · rw [List.length_append, hn, hl.length_encrypt key nonce msg ct henc]
          omega

theorem encryptWith_ok {algorithm : String} {aead : Aead} {cipher : Option Key} (hk : cipher.isSome)
    {nonce : Nonce} {msg : Bytes}
    (hs : ∀ key, cipher = some key → (aead.encrypt key nonce msg).isSome) :
    ∃ payload, encryptWith algorithm aead cipher (.ok nonce) msg = .ok payload := by
  obtain ⟨key, rfl⟩ := Option.isSome_iff_exists.mp hk
  obtain ⟨ct, hct⟩ := Option.isSome_iff_exists.mp (hs key rfl)
  exact ⟨nonce.toList ++ ct, by simp [encryptWith, hct]⟩

/-! ### Encode -/

/-- `?` on a `serde_json::Error`. -/
def liftJson {α : Type} : Except JsonError α → Checked ProtocolError α
  | .ok a => .ok a
  | .error e => fail (.json e)

def encode (libs : Libs) (c : FrameCodec) (random : Except String Nonce) (packet : PacketEnvelope) :
    Checked ProtocolError Bytes := do
  let maxPayload := c.maxFrameBytes - 5
  let attachments := packet.body.attachments
  let messageType := packet.messageType.toByte
  if c.wireEncryption = .none then
    -- frame_len and meta_len are placeholders until the lengths are known
    let frame : Bytes := [0, 0, 0, 0] ++ [messageType] ++ [0, 0, 0, 0]
    let frame := frame ++ (← liftJson (libs.json.toWriter packet.body.serialize))
    let jsonLen := frame.length - 9
    let frame := frame ++ [UInt8.ofNat attachments.length]
    let frame := attachments.foldl (fun buf att => att.writeWire buf) frame
    let payloadLen := frame.length - 5
    if payloadLen > maxPayload then
      fail (.payloadTooLarge payloadLen maxPayload)
    else
      let frameLen := UInt32.ofNat (frame.length - 4)
      let frame ← patch frame 0 (toBeBytes frameLen)
      patch frame 5 (toBeBytes (UInt32.ofNat jsonLen))
  else
    let composite : Bytes := [0, 0, 0, 0]
    let composite := composite ++ (← liftJson (libs.json.toWriter packet.body.serialize))
    let jsonLen := composite.length - 4
    let composite ← patch composite 0 (toBeBytes (UInt32.ofNat jsonLen))
    let composite := composite ++ [UInt8.ofNat attachments.length]
    let composite := attachments.foldl (fun buf att => att.writeWire buf) composite
    if composite.length > maxPayload then
      fail (.payloadTooLarge composite.length maxPayload)
    else
      let payload ← match c.wireEncryption with
        | .chacha20 => encryptChacha20 libs c random composite
        | .aes256 => encryptAes256 libs c random composite
        | .none => crash
      if payload.length > maxPayload then
        fail (.payloadTooLarge payload.length maxPayload)
      else
        let frameLen := 1 + payload.length
        .ok (toBeBytes (UInt32.ofNat frameLen) ++ [messageType] ++ payload)

/-! ### Decode -/

/-- `decode` from the recovered composite on (`lib.rs:1046-1079`). -/
def decodeComposite (libs : Libs) (c : FrameCodec) (messageType : MessageType) (composite : Bytes) :
    Checked ProtocolError PacketEnvelope := do
  if composite.length < 5 then
    fail .frameTooShort
  else
    let metaLen ← readU32 composite 0
    let jsonStop ← addUsize 4 metaLen
    let attStart ← addUsize jsonStop 1
    if composite.length < attStart then
      fail .frameTooShort
    else
      let jsonSlice ← slice composite 4 jsonStop
      let attCount ← index composite jsonStop
      let attData ← sliceFrom composite attStart
      let (attachments, _) ← FileAttachment.readSections attCount.toNat attData
      let body ← liftJson (libs.json.fromSlice jsonSlice >>= PacketBody.deserialize)
      let body := body.setAttachments attachments
      if body.messageType ≠ messageType then
        fail .messageTypeMismatch
      else
        .ok ⟨messageType, c.wireEncryption, body⟩

/-- The composite a payload carries (`lib.rs:1040-1044`). -/
def recover (libs : Libs) (c : FrameCodec) (payload : Bytes) : Checked ProtocolError Bytes :=
  match c.wireEncryption with
  | .none => .ok payload
  | .chacha20 => decryptChacha20 libs c payload
  | .aes256 => decryptAes256 libs c payload

def decode (libs : Libs) (c : FrameCodec) (frame : Bytes) : Checked ProtocolError PacketEnvelope := do
  if frame.length < 5 then
    fail .frameTooShort
  else
    let declared ← readU32 frame 0
    let actual := frame.length - 4
    if declared ≠ actual then
      fail (.frameLengthMismatch declared actual)
    else if frame.length > c.maxFrameBytes then
      fail (.frameTooLarge frame.length c.maxFrameBytes)
    else
      let messageType ← MessageType.tryFrom (← index frame 4)
      let payload ← sliceFrom frame 5
      let composite ← recover libs c payload
      decodeComposite libs c messageType composite

end FrameCodec

end Wscall.Protocol
