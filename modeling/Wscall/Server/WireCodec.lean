import Wscall.Server.Invariant

/-!
# The codec of the frames on the wire

`handle()` copies the codec and the mode the server has at that moment
(`server_runtime.rs:392-399`), and the builder may go on. A frame is encoded by the handle
it was pushed through, or, when that handle was taken under ECDH, by the writer.
-/

namespace Wscall.Protocol.FrameCodec
open RustStd

/-- The same cipher is in use, with the same key. -/
structure SameCipher (c d : FrameCodec) : Prop where
  kind : c.wireEncryption = d.wireEncryption
  chacha20 : c.wireEncryption = .chacha20 → c.chacha20Cipher = d.chacha20Cipher
  aes256 : c.wireEncryption = .aes256 → c.aes256Cipher = d.aes256Cipher

theorem SameCipher.refl (c : FrameCodec) : c.SameCipher c := ⟨rfl, fun _ => rfl, fun _ => rfl⟩

theorem SameCipher.protect_eq {c d : FrameCodec} (h : c.SameCipher d) (libs : Libs)
    (random : Except String Nonce) (msg : Bytes) :
    protect libs c random msg = protect libs d random msg := by
  unfold protect
  rw [← h.kind]
  cases hk : c.wireEncryption with
  | none => rfl
  | chacha20 => simp only [encryptChacha20, h.chacha20 hk]
  | aes256 => simp only [encryptAes256, h.aes256 hk]

theorem SameCipher.encode_eq {c d : FrameCodec} (h : c.SameCipher d)
    (hmax : c.maxFrameBytes = d.maxFrameBytes) (libs : Libs) (random : Except String Nonce)
    (p : PacketEnvelope) : encode libs c random p = encode libs d random p := by
  simp only [FrameCodec.encode_eq, h.protect_eq, hmax]

/-- The frame is some packet encoded with this codec. -/
def Encodes (libs : Libs) (c : FrameCodec) (frame : Bytes) : Prop :=
  ∃ random packet, c.encode libs random packet = .ok frame

end Wscall.Protocol.FrameCodec

namespace Wscall.Server
open RustStd Protocol

/-! ### Building a server -/

inductive BuilderCall where
  | withEcdh
  | withChacha20Key (key : Key)
  | withAes256Key (key : Key)
  | handle

structure Builder (W : Type) where
  server : WscallServer W
  handles : List ServerHandle

namespace Builder

variable {W : Type}

def apply (b : Builder W) : BuilderCall → Builder W
  | .withEcdh => { b with server := b.server.withEcdh }
  | .withChacha20Key key => { b with server := b.server.withChacha20Key key }
  | .withAes256Key key => { b with server := b.server.withAes256Key key }
  | .handle => { b with handles := b.handles ++ [b.server.handle] }

def listen (libs : Libs) (ecdh : Ecdh) (clock : Clock) (base : WscallServer W)
    (calls : List BuilderCall) : Setup W :=
  let b := calls.foldl apply ⟨base, []⟩
  ⟨libs, ecdh, clock, b.server, b.handles⟩

/-- ECDH is never taken back, and no call changes the codec's limit. -/
structure Precedes (h : ServerHandle) (server : WscallServer W) : Prop where
  ecdh : h.isEcdh = true → server.isEcdh = true
  limit : h.codec.maxFrameBytes = server.codec.maxFrameBytes

theorem Precedes.refl (server : WscallServer W) : Precedes server.handle server := ⟨id, rfl⟩

theorem apply_precedes {b : Builder W} (hb : ∀ h ∈ b.handles, Precedes h b.server)
    (call : BuilderCall) : ∀ h ∈ (b.apply call).handles, Precedes h (b.apply call).server := by
  intro h hmem
  cases call with
  | withEcdh => exact ⟨fun _ => rfl, (hb h hmem).limit⟩
  | withChacha20Key key => exact ⟨(hb h hmem).ecdh, (hb h hmem).limit⟩
  | withAes256Key key => exact ⟨(hb h hmem).ecdh, (hb h hmem).limit⟩
  | handle =>
    rcases List.mem_append.mp hmem with hmem | hmem
    · exact hb h hmem
    · rw [List.mem_singleton.mp hmem]
      exact .refl _

theorem foldl_precedes {b : Builder W} (hb : ∀ h ∈ b.handles, Precedes h b.server)
    (calls : List BuilderCall) :
    ∀ h ∈ (calls.foldl apply b).handles, Precedes h (calls.foldl apply b).server := by
  induction calls generalizing b with
  | nil => exact hb
  | cons call calls ih => exact ih (apply_precedes hb call)

theorem listen_precedes {libs : Libs} {ecdh : Ecdh} {clock : Clock} {base : WscallServer W}
    {calls : List BuilderCall} {h : ServerHandle}
    (hmem : h ∈ (listen libs ecdh clock base calls).server.handle ::
      (listen libs ecdh clock base calls).handles) :
    Precedes h (listen libs ecdh clock base calls).server := by
  rcases List.mem_cons.mp hmem with rfl | hmem
  · exact .refl _
  · exact foldl_precedes (by simp) calls h hmem

end Builder

/-! ### Runs -/

section Runs

variable {W : Type} {setup : Setup W}

/-- The handle encodes as the listening server does: it leaves it to the writer, or it has
the codec of a server without ECDH. -/
def UpToDate (server : WscallServer W) (h : ServerHandle) : Prop :=
  h.isEcdh = true ∨ server.isEcdh = false ∧ h.codec.SameCipher server.codec

/-- User code pushes through an up-to-date handle. -/
def PushesUpToDate (setup : Setup W) (_ : State) (a : Action W) : Prop :=
  ∀ h, a.handle? = some h → UpToDate setup.server h

/-- Every frame a writer has sent was encoded with the codec of its connection. -/
def FramesUnderSession (setup : Setup W) (s : State) : Prop :=
  ∀ c bytes, .frame bytes ∈ (s.conns c).sent → ∃ session, (s.conns c).codec = some session ∧
    SessionCodec setup session ∧
      (Submission.codec setup.server.handle session).Encodes setup.libs bytes

/-- Frames that were encoded beforehand carry the server's codec. -/
def Policy.wire (setup : Setup W) : Policy where
  item
    | .preEncoded bytes => setup.server.isEcdh = false ∧ setup.server.codec.Encodes setup.libs bytes
    | .packet _ => setup.server.isEcdh = true
    | _ => True
  call _ _ := True
  stable _ h := h

theorem UpToDate.handleItems {h : ServerHandle} (hup : UpToDate setup.server h)
    (hpre : Builder.Precedes h setup.server) : HandleItems setup (Policy.wire setup).item h := by
  intro random packet item hout
  unfold ServerHandle.outbound at hout
  cases he : h.isEcdh with
  | true =>
    rw [he] at hout
    cases hout
    exact hpre.ecdh he
  | false =>
    rw [he] at hout
    obtain ⟨hecdh, hsame⟩ := hup.resolve_left (by simp [he])
    cases hf : h.codec.encode setup.libs random packet with
    | error e =>
      rw [if_neg (by simp), hf] at hout
      cases hout
    | ok bytes =>
      rw [if_neg (by simp), hf] at hout
      cases hout
      rw [hsame.encode_eq hpre.limit] at hf
      exact ⟨hecdh, random, packet, hf⟩

theorem upToDate_handle (server : WscallServer W) : UpToDate server server.handle := by
  unfold UpToDate WscallServer.handle
  cases server.isEcdh with
  | true => exact .inl rfl
  | false => exact .inr ⟨rfl, .refl _⟩

theorem ownItems_wire : OwnItems setup (Policy.wire setup).item :=
  ⟨(upToDate_handle _).handleItems (.refl _), fun _ => trivial, trivial⟩

theorem mem_handles_of_step {a : Action W} {s s' : State} {h : ServerHandle}
    (hs : step setup a s = some s') (ha : a.handle? = some h) :
    h ∈ setup.server.handle :: setup.handles := by
  obtain ⟨k, op, rfl, hop⟩ : ∃ k op, a = .push k op ∧ op.handle? = some h := by
    cases a with
    | push k op => exact ⟨k, op, rfl, ha⟩
    | _ => cases ha
  cases op with
  | broadcast h' e random =>
    cases hop
    by_contra hmem
    simp only [step, stepPush] at hs
    split at hs <;> simp_all
  | sendEventTo h' c e random =>
    cases hop
    by_contra hmem
    simp only [step, stepPush] at hs
    split at hs <;> simp_all
  | deliver c => cases hop
  | done => cases hop

theorem Sound.framesUnderSession {s : State} (h : Sound setup (.wire setup) s) :
    FramesUnderSession setup s := by
  intro c bytes hmem
  obtain ⟨session, random, item, hc, hq, hw⟩ := (h.conns c).written bytes hmem
  refine ⟨session, hc, (h.conns c).session session hc, ?_⟩
  cases item with
  | preEncoded b =>
    obtain ⟨he, henc⟩ := hq
    cases congrArg Prod.fst hw
    rwa [Submission.codec, if_neg (by simp [WscallServer.handle, he])]
  | packet p =>
    have he : setup.server.isEcdh = true := hq
    rw [Submission.codec, if_pos (by exact he)]
    unfold writeItem at hw
    dsimp only at hw
    split at hw
    · rename_i f hf
      cases congrArg Prod.fst hw
      exact ⟨random, p, hf⟩
    · cases congrArg Prod.fst hw
  | pong payload => cases congrArg Prod.fst hw
  | close => cases congrArg Prod.fst hw

/-- As long as user code pushes through up-to-date handles, every frame on the wire is
under its connection's codec. -/
theorem framesUnderSession_of_upToDate (libs : Libs) (ecdh : Ecdh) (clock : Clock)
    (base : WscallServer W) (calls : List BuilderCall) {actions : List (Action W)} {s : State}
    (hpush : Machine.Along (step (Builder.listen libs ecdh clock base calls))
      (PushesUpToDate (Builder.listen libs ecdh clock base calls)) actions
      (State.init (Builder.listen libs ecdh clock base calls)))
    (h : Machine.run (step (Builder.listen libs ecdh clock base calls)) actions
      (State.init (Builder.listen libs ecdh clock base calls)) = some s) :
    FramesUnderSession (Builder.listen libs ecdh clock base calls) s := by
  refine (Machine.run_invariant_along (I := Sound _ (.wire _)) (fun a s s' hp hsound hs => ?_) hpush h
    sound_init).framesUnderSession
  refine hsound.step ownItems_wire (fun handle ha => ?_) (fun _ _ _ _ _ => trivial) hs
  exact (hp handle ha).handleItems (Builder.listen_precedes (mem_handles_of_step hs ha))

end Runs

/-! ### A broadcast under ECDH -/

/-- `with_ecdh` before or after `handle()`. -/
def tickSetup (calls : List BuilderCall) : Setup Unit :=
  Builder.listen tickLibs ⟨id, fun secret _ => secret⟩ none .new calls

/-- A connection negotiates its key, and the event `tick` is broadcast through the handle. -/
def tickRun (h : ServerHandle) : List (Action Unit) :=
  [.conn "c" (.accept ⟨.v4 1, 1⟩ 0), .conn "c" (.upgraded true (.ok zeroKey) ()),
    .conn "c" (.received (some (.binary (List.replicate 32 0))) 0 (.error "unused")),
    .conn "c" (.sent true ()), .push 0 (.broadcast h ⟨"tick", .empty, []⟩ (.error "unused")),
    .push 0 (.deliver "c"), .conn "c" (.notified (.error "unused")),
    .writer "c" (.next (.ok zeroNonce) true)]

def freshHandle : ServerHandle := (WscallServer.new (W := Unit)).withEcdh.handle

def staleHandle : ServerHandle := (WscallServer.new (W := Unit)).handle

theorem framesUnderSession_of_upToDate_tick :
    ∃ s, Machine.run (step (tickSetup [.withEcdh, .handle])) (tickRun freshHandle)
        (State.init (tickSetup [.withEcdh, .handle])) = some s ∧
      ((s.conns "c").sent.filterMap WireMessage.frame?).length = 1 ∧
        FramesUnderSession (tickSetup [.withEcdh, .handle]) s := by
  have hrun : (Machine.run (step (tickSetup [.withEcdh, .handle])) (tickRun freshHandle)
      (State.init (tickSetup [.withEcdh, .handle]))).any
        (fun s => ((s.conns "c").sent.filterMap WireMessage.frame?).length == 1) = true := by
    decide +kernel
  have hpush : Machine.Along (step (tickSetup [.withEcdh, .handle]))
      (PushesUpToDate (tickSetup [.withEcdh, .handle])) (tickRun freshHandle)
      (State.init (tickSetup [.withEcdh, .handle])) := by
    refine Machine.along_of_forall (fun a ha s h hh => .inl ?_) _
    simp only [tickRun, List.mem_cons, List.not_mem_nil, or_false] at ha
    rcases ha with rfl | rfl | rfl | rfl | rfl | rfl | rfl | rfl <;> cases hh
    rfl
  obtain ⟨s, hs, hone⟩ := (Option.any_eq_true ..).mp hrun
  exact ⟨s, hs, eq_of_beq hone, framesUnderSession_of_upToDate _ _ _ _ _ hpush hs⟩

/-- Under the stand-in cipher an encrypted frame ends in its tag. -/
theorem getLast_of_encodes {c : FrameCodec} (hc : c.wireEncryption = .chacha20) {f : Bytes}
    (h : c.Encodes tickLibs f) : f.getLast? = some 255 := by
  obtain ⟨random, packet, h⟩ := h
  obtain ⟨text, payload, -, hpay, -, -, rfl⟩ := FrameCodec.encode_eq_ok h
  have hpay : FrameCodec.encryptWith "chacha20" tagged c.chacha20Cipher random
      (FrameCodec.composite text packet.body.attachments) = .ok payload := by
    simp only [FrameCodec.protect, hc] at hpay
    exact hpay
  unfold FrameCodec.encryptWith at hpay
  split at hpay
  · cases hpay
  · split at hpay
    · cases hpay
    · cases hpay
      rw [FrameCodec.frame, List.getLast?_append, List.getLast?_append, List.getLast?_append]
      rfl

def plainTick : Bytes :=
  FrameCodec.frame .event (FrameCodec.composite (asBytes
    "\x7b\"k\":1,\"i\":1,\"n\":\"tick\",\"d\":\x7b\x7d,\"m\":\x7b\"source\":\"server\"\x7d,\"e\":true\x7d") [])

theorem staleHandle_sends_plaintext :
    (∃ random packet, FrameCodec.plaintext.encode tickLibs random packet = .ok plainTick) ∧
      ∃ s, Machine.run (step (tickSetup [.handle, .withEcdh])) (tickRun staleHandle)
          (State.init (tickSetup [.handle, .withEcdh])) = some s ∧
        .frame plainTick ∈ (s.conns "c").sent ∧
          ¬ FramesUnderSession (tickSetup [.handle, .withEcdh]) s := by
  have hplain : FrameCodec.plaintext.encode tickLibs (.error "unused")
      (staleHandle.eventPacket 1 ⟨"tick", .empty, []⟩) = .ok plainTick := by
    rfl
  have hrun : (Machine.run (step (tickSetup [.handle, .withEcdh])) (tickRun staleHandle)
      (State.init (tickSetup [.handle, .withEcdh]))).any
        (fun s => (s.conns "c").sent.any fun m => m.frame? == some plainTick) = true := by
    decide +kernel
  obtain ⟨s, hs, hsent⟩ := (Option.any_eq_true ..).mp hrun
  have hframe : .frame plainTick ∈ (s.conns "c").sent := by
    obtain ⟨m, hmem, hm⟩ := List.any_eq_true.mp hsent
    cases m with
    | frame bytes => rwa [← Option.some.inj (eq_of_beq hm)]
    | _ => cases hm
  refine ⟨⟨_, _, hplain⟩, s, hs, hframe, fun h => ?_⟩
  obtain ⟨session, -, ⟨secret, clientPublic, rfl⟩, henc⟩ := h "c" plainTick hframe
  exact absurd (getLast_of_encodes rfl henc) (by decide)

end Wscall.Server
