import Wscall.Server.Exchange

/-!
# The fast-reject of the reader loop (`server_runtime.rs:834-891`)

Its limit is the server's and the decoder's is the session codec's, a copy of it made at the
key exchange. The 413 goes the way of every answer: under ECDH the writer encodes it, under the
same limit.
-/

namespace Wscall.Server
open RustStd Protocol

section Agreement

variable {W : Type} (setup : Setup W) (c : String) (codec : FrameCodec) (bytes : Bytes)

/-- The fast-reject refused the message, its 413 went out and nothing else did, and the reader was
back in its loop with the connection in the table. -/
def Course.Answers413 (k : Course W) : Prop :=
  ∃ code text packet random frame,
    fastReject setup.server.maxFrameBytes bytes = some (code, text) ∧
    packet.body = .apiResponse 0 false 413 .emptyObject (some ⟨code, text, 413, none⟩) .emptyObject ∧
    (Submission.codec setup.server.handle codec).encode setup.libs random packet = .ok frame ∧
    k.written = [.frame frame] ∧ k.Back c

/-- The channel was open when the 413 was handed over, the writer got to it and the socket took it,
and it encodes on its path: where it is queued, and under ECDH in the writer. -/
def Course.Passes413 (k : Course W) : Prop :=
  ∃ code text random, fastReject setup.server.maxFrameBytes bytes = some (code, text) ∧
    k.Queues setup c (frameErrorPacket 0 code text setup.server.defaultEncryption) ∧
    k.taken = some (random, true) ∧
    (setup.server.isEcdh = true → ∃ frame, codec.encode setup.libs random
      (frameErrorPacket 0 code text setup.server.defaultEncryption) = .ok frame)

variable {setup c codec bytes} {now : ℕ} {random : Except String Nonce} {s s' : State}
  {k : Course W} {y : State × Course W} {code text : String}

/-- The session codec is the one the message was read with. -/
theorem Exchange.session_kept (h : Exchange setup c codec bytes now random s y) :
    (y.1.conns c).codec = some codec := by
  obtain ⟨s₁, actions, hs, hrun⟩ := h.run
  have hstarted : (s.conns c).phase.Started := by
    rw [h.reading]
    exact ⟨Phase.not_outside (by simp) not_false, (by simp)⟩
  obtain ⟨hstarted₁, hcodec₁⟩ := started_of_move (move_of_step hs) hstarted
  refine (Machine.run_invariant (I := fun x : State × Course W => (x.1.conns c).phase.Started ∧
    (x.1.conns c).codec = some codec) (fun a x x' hx hstep => ?_) hrun
    ⟨hstarted₁, hcodec₁.trans h.session⟩).2
  obtain ⟨hstep, -⟩ := Machine.noting_eq_some hstep
  obtain ⟨hstarted', hcodec'⟩ := started_of_move (move_of_step hstep) hx.1
  exact ⟨hstarted', hcodec'.trans hx.2⟩

theorem Exchange.fastReject_isSome_iff (h : Exchange setup c codec bytes now random s y) :
    (fastReject setup.server.maxFrameBytes bytes).isSome ↔
      codec.FailsOnHeader setup.libs bytes := by
  rw [FrameCodec.failsOnHeader_iff, h.maxFrameBytes, ne_eq, ← fastReject_eq_none_iff,
    Option.isSome_iff_ne_none]

/-- The writer sends the frame of a packet, if it has not to encode it or can. -/
theorem writeItem_outbound {packet : PacketEnvelope} {item : ServerOutbound}
    {queued : Except String Nonce} (written : Except String Nonce)
    (hitem : setup.server.handle.outbound setup.libs queued packet = .ok item) :
    ((setup.server.isEcdh = true → ∃ frame, codec.encode setup.libs written packet = .ok frame) ∧
      ∃ random frame, (Submission.codec setup.server.handle codec).encode setup.libs random packet =
        .ok frame ∧ (writeItem setup.libs codec written item).1 = some (.frame frame)) ∨
    (¬ (setup.server.isEcdh = true → ∃ frame, codec.encode setup.libs written packet = .ok frame) ∧
      (writeItem setup.libs codec written item).1 = none) := by
  unfold ServerHandle.outbound at hitem
  unfold Submission.codec
  rw [show setup.server.handle.isEcdh = setup.server.isEcdh from rfl] at hitem ⊢
  cases he : setup.server.isEcdh with
  | true =>
    rw [he, if_pos rfl] at hitem
    cases hitem
    rw [if_pos rfl, writeItem]
    cases henc : codec.encode setup.libs written packet with
    | ok frame => exact .inl ⟨fun _ => ⟨frame, rfl⟩, written, frame, henc, rfl⟩
    | error e => exact .inr ⟨by simp, rfl⟩
  | false =>
    rw [he, if_neg (by simp)] at hitem
    obtain ⟨frame, henc, hitem⟩ := bind_eq_ok hitem
    cases hitem
    rw [if_neg (by simp)]
    exact .inl ⟨by simp, queued, frame, henc, rfl⟩

theorem Exchange.refused (h : Exchange setup c codec bytes now random s y)
    (hfast : fastReject setup.server.maxFrameBytes bytes = some (code, text)) :
    Follows setup c (.authRequest "") (.answer (frameErrorPacket 0 code text
      setup.server.defaultEncryption)) y :=
  h.follows (.header hfast)

theorem Course.Ended.delivers {body : PacketBody} {packet : PacketEnvelope}
    (h : k.Ended setup c body (.answer packet)) : k.Delivers setup c packet := by
  cases h with
  | refused _ hdelivers => exact hdelivers

theorem Follows.back {body : PacketBody} {packet : PacketEnvelope}
    (h : Follows setup c body (.answer packet) (s', k)) (hh : k.holder ≠ .reader) : k.Back c := by
  cases h.place with
  | refused hh' => exact absurd hh' hh
  | ended hend =>
    cases hend with
    | refused _ _ hback => exact hback

/-- While the connection is served, its tasks can bring an answer of the reader to the writer. -/
theorem Follows.ends [Nonempty W] {body : PacketBody} {packet : PacketEnvelope}
    (h : Follows setup c body (.answer packet) (s', k)) (hp : (s'.conns c).phase.Served) :
    ∃ y, Machine.Reaches (tracked setup c) (fun x => Own c x.1) (s', k) y ∧ y.2.holder = .gone := by
  obtain ⟨s₁, k₁, hr, hh, hp₁⟩ := h.leaves_reader (fun hspawn => by cases hspawn) hp
  have hfollows := h.reaches hr
  cases hfollows.place with
  | refused hh' => exact absurd hh' hh
  | ended _ hship =>
    cases hship with
    | queued hqueue =>
      obtain ⟨y, hr', hgone⟩ := hfollows.ships hp₁ hqueue
      exact ⟨y, hr.trans hr', hgone⟩
    | taken hgone | lost hgone => exact ⟨_, hr, hgone⟩

/-- The 413 as the item the writer took. -/
theorem answers413_iff_of_taken {item : ServerOutbound} {queued taken : Except String Nonce} {ok : Bool}
    (hfast : fastReject setup.server.maxFrameBytes bytes = some (code, text))
    (hitem : setup.server.handle.outbound setup.libs queued
      (frameErrorPacket 0 code text setup.server.defaultEncryption) = .ok item)
    (hqueues : k.Queues setup c (frameErrorPacket 0 code text setup.server.defaultEncryption))
    (htaken : k.taken = some (taken, ok)) (hback : k.Back c)
    (hwritten : k.written = if ok then (writeItem setup.libs codec taken item).1.toList else []) :
    k.Answers413 setup c codec bytes ↔ k.Passes413 setup c codec bytes := by
  cases ok with
  | false =>
    constructor
    · rintro ⟨_, _, _, _, _, -, -, -, hframe, -⟩
      rw [hwritten] at hframe
      cases hframe
    · rintro ⟨_, _, _, -, -, htaken', -⟩
      rw [htaken] at htaken'
      cases htaken'
  | true =>
    rw [if_pos rfl] at hwritten
    rcases writeItem_outbound taken hitem with ⟨hpath, random, frame, henc, hsent⟩ | ⟨hno, hnone⟩
    · rw [hsent] at hwritten
      exact iff_of_true ⟨code, text, _, random, frame, hfast, rfl, henc, hwritten, hback⟩
        ⟨code, text, taken, hfast, hqueues, htaken, hpath⟩
    · rw [hnone] at hwritten
      refine iff_of_false ?_ ?_
      · rintro ⟨_, _, _, _, _, -, -, -, hframe, -⟩
        rw [hwritten] at hframe
        cases hframe
      · rintro ⟨_, _, _, hfast', -, htaken', hpath⟩
        rw [hfast] at hfast'
        rw [htaken] at htaken'
        cases hfast'
        cases htaken'
        exact hno hpath

theorem Exchange.answers413_iff (h : Exchange setup c codec bytes now random s (s', k))
    (hgone : k.holder = .gone)
    (hfast : fastReject setup.server.maxFrameBytes bytes = some (code, text)) :
    k.Answers413 setup c codec bytes ↔ k.Passes413 setup c codec bytes := by
  have hfollows := h.refused hfast
  have hsettled : k.holder.Settled := by
    rw [hgone]
    trivial
  have hback : k.Back c := hfollows.back (by simp [hgone])
  have hdelivers := (hfollows.ended hsettled).delivers
  have hship : k.Ships setup c s' := by
    cases hfollows.place with
    | refused hh =>
      rw [hgone] at hh
      cases hh
    | ended _ hship => exact hship
  cases hship with
  | queued hh =>
    rw [hgone] at hh
    cases hh
  | lost _ htaken hwritten =>
    constructor
    · rintro ⟨_, _, _, _, _, -, -, -, hframe, -⟩
      rw [hwritten] at hframe
      cases hframe
    · rintro ⟨_, _, _, -, -, htaken', -⟩
      rw [htaken] at htaken'
      cases htaken'
  | @taken item codec' random' ok _ hq hc htaken hwritten =>
    rw [h.session_kept] at hc
    cases hc
    rcases hdelivers.queued_or with ⟨hnone, -⟩ | ⟨item', queued, hq', hitem, hqueues⟩
    · rw [hnone] at hq
      cases hq
    · rw [hq] at hq'
      cases hq'
      exact answers413_iff_of_taken hfast hitem hqueues htaken hback hwritten

end Agreement

/-! ### A header that declares too much, under ECDH -/

/-- serde_json on the greeting and on a 413. -/
def rejectJson : SerdeJson where
  nestingLimit := 127
  toWriter
    | .object [("k", .number (.posInt 1)), ("i", .number (.posInt 1)), ("n", .string "system.notice"),
        ("d", .object [("connection_id", .string "c"), ("message", .string "connected")]),
        ("m", .object [("source", .string "server")]), ("e", .bool true)] =>
      .ok (asBytes "\x7b\"k\":1,\"i\":1,\"n\":\"system.notice\",\"d\":\x7b\"connection_id\":\"c\",\"message\":\"connected\"\x7d,\"m\":\x7b\"source\":\"server\"\x7d,\"e\":true\x7d")
    | .object [("k", .number (.posInt 2)), ("i", .number (.posInt 0)), ("o", .bool false),
        ("s", .number (.posInt 413)), ("d", .object []), ("er", .object [("code", .string code),
          ("message", .string message), ("status", .number (.posInt 413))])] =>
      .ok (asBytes ("\x7b\"k\":2,\"i\":0,\"o\":false,\"s\":413,\"d\":\x7b\x7d,\"er\":\x7b\"code\":\"" ++ code ++
        "\",\"message\":\"" ++ message ++ "\",\"status\":413\x7d\x7d"))
    | _ => .error .serde
  fromSlice _ := .error .serde

def keyedSetup (limit : ℕ) : Setup Unit :=
  ⟨⟨rejectJson, tagged, tagged⟩, ⟨id, fun secret _ => secret⟩, none,
    WscallServer.new.withEcdh.withMaxFrameBytes limit, []⟩

/-- The session codec of `keyedRun`. -/
def keyedCodec (limit : ℕ) : FrameCodec :=
  (FrameCodec.plaintext.withChacha20Key (Vector.replicate 32 7)).withMaxFrameBytes limit

/-- From the TCP connection through the key exchange to the reader loop; the greeting is sent. -/
def keyedRun : List (Action Unit) :=
  [.conn "c" (.accept ⟨.v4 1, 1⟩ 0), .conn "c" (.upgraded true (.ok (Vector.replicate 32 7)) ()),
    .conn "c" (.received (some (.binary (List.replicate 32 9))) 0 (.error "unused")),
    .conn "c" (.sent true ()), .conn "c" (.notified (.error "unused")),
    .writer "c" (.next (.ok (Vector.replicate 12 5)) true)]

/-- The 413 is queued and the writer gets to it. -/
def rejectRun : List (Action Unit) :=
  [.conn "c" .queued, .writer "c" (.next (.ok (Vector.replicate 12 6)) true)]

/-- A frame that declares nine bytes and carries one. -/
def mismatchedFrame : Bytes := [0, 0, 0, 9, 2]

end Wscall.Server
