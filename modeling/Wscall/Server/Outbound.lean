import Wscall.Protocol.RoundTrip
import Wscall.Server.Types

/-!
# The outbound path of a connection (`server_runtime.rs:757-797`)

Producers put items on the connection's queue and the writer task ships them. A packet
that does not encode is found out by the producer when the server has a fixed codec, and
by the writer under ECDH.
-/

namespace Wscall.Server
open RustStd Protocol

inductive WireMessage where
  | publicKey (key : Key)
  | authResponse (bytes : Bytes)
  /-- A binary message of the writer task. -/
  | frame (bytes : Bytes)
  | pong (payload : Bytes)
  | ping
  | close

/-- One turn of the writer's loop on a socket that does not fail: what it sends, and
whether it goes on. `encode(&packet)?` leaves the loop. -/
def writeItem (libs : Libs) (codec : FrameCodec) (random : Except String Nonce) :
    ServerOutbound → Option WireMessage × Bool
  | .preEncoded bytes => (some (.frame bytes), true)
  | .packet packet =>
    match codec.encode libs random packet with
    | .ok bytes => (some (.frame bytes), true)
    | .error _ => (none, false)
  | .pong payload => (some (.pong payload), true)
  | .close => (some .close, false)

/-- The writer task on the items it receives, each with the randomness drawn at its turn. -/
def writerLoop (libs : Libs) (codec : FrameCodec) :
    List (ServerOutbound × Except String Nonce) → List WireMessage
  | [] => []
  | (item, random) :: items =>
    match writeItem libs codec random item with
    | (message, true) => message.toList ++ writerLoop libs codec items
    | (message, false) => message.toList

def WireMessage.frame? : WireMessage → Option Bytes
  | .frame bytes => some bytes
  | _ => none

/-- A packet handed to `queue_for`, `send_event_to` or `broadcast_event`, with the
randomness its encoding draws. -/
structure Submission where
  packet : PacketEnvelope
  random : Except String Nonce

namespace Submission

variable (libs : Libs)

def item (h : ServerHandle) (s : Submission) : Option (ServerOutbound × Except String Nonce) :=
  (h.outbound libs s.random s.packet).toOption.map (·, s.random)

def frame (codec : FrameCodec) (s : Submission) : Option Bytes :=
  (codec.encode libs s.random s.packet).toOption

/-- The frames the peer gets when `submissions` go through the queue in this order. -/
def delivered (h : ServerHandle) (session : FrameCodec) (submissions : List Submission) :
    List Bytes :=
  (writerLoop libs session (submissions.filterMap (item libs h))).filterMap WireMessage.frame?

/-- The codec that packets of a connection are encoded with. -/
def codec (h : ServerHandle) (session : FrameCodec) : FrameCodec :=
  if h.isEcdh then session else h.codec

/-- With a fixed codec the writer only gets frames, and ships them all. -/
theorem delivered_fixed {h : ServerHandle} (he : h.isEcdh = false) (session : FrameCodec)
    (submissions : List Submission) :
    delivered libs h session submissions = submissions.filterMap (frame libs h.codec) := by
  induction submissions with
  | nil => rfl
  | cons s submissions ih =>
    unfold delivered at ih ⊢
    cases hf : h.codec.encode libs s.random s.packet with
    | error e =>
      have hitem : item libs h s = none := by
        simp [item, ServerHandle.outbound, he, hf, bind, Except.bind, Except.toOption]
      have hframe : frame libs h.codec s = none := by simp [frame, hf, Except.toOption]
      rw [List.filterMap_cons_none hitem, List.filterMap_cons_none hframe, ih]
    | ok bytes =>
      have hitem : item libs h s = some (.preEncoded bytes, s.random) := by
        simp [item, ServerHandle.outbound, he, hf, Except.toOption]
      have hframe : frame libs h.codec s = some bytes := by simp [frame, hf, Except.toOption]
      rw [List.filterMap_cons_some hitem, List.filterMap_cons_some hframe, ← ih]
      rfl

theorem delivered_ecdh_cons {h : ServerHandle} (he : h.isEcdh = true) (session : FrameCodec)
    (s : Submission) (submissions : List Submission) :
    delivered libs h session (s :: submissions) =
      match frame libs session s with
      | some bytes => bytes :: delivered libs h session submissions
      | none => [] := by
  have hitem : item libs h s = some (.packet s.packet, s.random) := by
    simp [item, ServerHandle.outbound, he, Except.toOption]
  unfold delivered frame
  rw [List.filterMap_cons_some hitem, writerLoop, writeItem]
  cases session.encode libs s.random s.packet <;> rfl

theorem delivered_ecdh_iff {h : ServerHandle} (he : h.isEcdh = true) (session : FrameCodec)
    (submissions : List Submission) :
    delivered libs h session submissions = submissions.filterMap (frame libs session) ↔
      submissions.Pairwise fun a b =>
        (frame libs session b).isSome → (frame libs session a).isSome := by
  induction submissions with
  | nil => exact ⟨fun _ => .nil, fun _ => rfl⟩
  | cons s submissions ih =>
    rw [delivered_ecdh_cons libs he, List.pairwise_cons]
    cases hs : frame libs session s with
    | some bytes => simpa [List.filterMap_cons_some hs] using ih
    | none =>
      -- nothing after `s` is delivered, so nothing after it may encode
      rw [List.filterMap_cons_none hs]
      simp only [Option.isSome_none, Bool.false_eq_true, imp_false]
      rw [eq_comm, List.filterMap_eq_nil_iff]
      constructor
      · intro hnone
        refine ⟨fun b hb => by simp [hnone b hb], List.pairwise_of_forall_mem_list ?_⟩
        intro a _ b hb hsome
        simp [hnone b hb] at hsome
      · rintro ⟨hnone, -⟩ b hb
        simpa using hnone b hb

/-- The peer gets exactly the packets that encode, in order, if and only if the codec is
fixed or no packet that encodes follows one that does not. -/
theorem delivered_iff (h : ServerHandle) (session : FrameCodec) (submissions : List Submission) :
    delivered libs h session submissions =
        submissions.filterMap (frame libs (codec h session)) ↔
      h.isEcdh = false ∨ submissions.Pairwise fun a b =>
        (frame libs session b).isSome → (frame libs session a).isSome := by
  cases he : h.isEcdh with
  | false => simp [codec, he, delivered_fixed libs he]
  | true => simp [codec, he, delivered_ecdh_iff libs he]

end Submission

/-! ### An oversized event under ECDH -/

/-- serde_json on one body: the text of the server event 1 named `tick`. -/
def tickJson : SerdeJson where
  nestingLimit := 127
  toWriter
    | .object [("k", .number (.posInt 1)), ("i", .number (.posInt 1)), ("n", .string "tick"),
        ("d", .object []), ("m", .object [("source", .string "server")]), ("e", .bool true)] =>
      .ok (asBytes
        "\x7b\"k\":1,\"i\":1,\"n\":\"tick\",\"d\":\x7b\x7d,\"m\":\x7b\"source\":\"server\"\x7d,\"e\":true\x7d")
    | _ => .error .serde
  fromSlice _ := .error .serde

/-- A stand-in cipher that appends a tag of its own. -/
def tagged : Aead where
  encrypt _ _ msg := some (msg ++ List.replicate 16 255)
  decrypt _ _ c := some (c.take (c.length - 16))

def tickLibs : Libs := ⟨tickJson, tagged, tagged⟩

def tick (attachments : List FileAttachment) : PacketEnvelope :=
  .withEncryption (.eventEmit 1 "tick" .empty attachments serverSource true) .chacha20

def zeroKey : Key := Vector.replicate 32 0
def zeroNonce : Nonce := Vector.replicate 12 0

/-- The session codec of an ECDH server that was given a limit of 128 bytes. -/
def smallSession : FrameCodec :=
  (FrameCodec.plaintext.withChacha20Key zeroKey).withMaxFrameBytes 128

theorem oversizedPacket_silences :
    Submission.delivered tickLibs (WscallServer.new (W := Unit)).withEcdh.handle smallSession
        [⟨tick [⟨"f", "f", "t", List.replicate 64 0⟩], .ok zeroNonce⟩, ⟨tick [], .ok zeroNonce⟩] ≠
      [⟨tick [⟨"f", "f", "t", List.replicate 64 0⟩], .ok zeroNonce⟩,
        ⟨tick [], .ok zeroNonce⟩].filterMap
          (Submission.frame tickLibs
            (Submission.codec (WscallServer.new (W := Unit)).withEcdh.handle smallSession)) := by
  intro h
  have hlen := congrArg List.length h
  revert hlen
  decide +kernel

end Wscall.Server
