import Wscall.Protocol.Corruption
import Wscall.Server.WireCodec

/-!
# The frame limit on outbound frames

`with_max_frame_bytes` sets the limit of the session codecs (`server_runtime.rs:650-659`)
and leaves the server's own codec at its default. Without ECDH everything but the auth
response is encoded with that one, or with the copy of it in a handle.
-/

namespace Wscall.Protocol.FrameCodec
open RustStd

/-- Frames of the packet stay within `m`, and it is not refused as too large when its frame
would. -/
def LimitBinds (libs : Libs) (m : ℕ) (c : FrameCodec) (p : PacketEnvelope) : Prop :=
  (∀ random f, c.encode libs random p = .ok f → f.length ≤ m) ∧
    ∀ random text, libs.json.toWriter p.body.serialize = .ok text → c.frameSize text p ≤ m →
      ∀ size max, c.encode libs random p ≠ fail (.payloadTooLarge size max)

section Sizes

variable {libs : Libs} {c : FrameCodec} {p : PacketEnvelope} {text : Bytes}

theorem protect_ne_too_large (random : Except String Nonce) (msg : Bytes) (size max : ℕ) :
    protect libs c random msg ≠ fail (.payloadTooLarge size max) := by
  have hencrypt : ∀ (algorithm : String) (aead : Aead) (cipher : Option Key),
      encryptWith algorithm aead cipher random msg ≠ fail (.payloadTooLarge size max) := by
    intro algorithm aead cipher
    unfold encryptWith
    split
    · simp [fail]
    · split
      · simp [fail]
      · split <;> simp [fail]
  unfold protect
  split
  · simp [fail]
  · exact hencrypt _ _ _
  · exact hencrypt _ _ _

theorem encode_ne_too_large (laws : AeadLaws libs) {random : Except String Nonce}
    (htext : libs.json.toWriter p.body.serialize = .ok text)
    (hfits : c.frameSize text p ≤ c.maxFrameBytes) (size max : ℕ) :
    c.encode libs random p ≠ fail (.payloadTooLarge size max) := by
  unfold frameSize at hfits
  simp only [encode_eq, htext, liftJson, ok_bind]
  rw [if_neg (by omega)]
  cases hpay : protect libs c random (composite text p.body.attachments) with
  | error e =>
    have hne : protect libs c random _ ≠ _ :=
      protect_ne_too_large random (composite text p.body.attachments) size max
    rwa [hpay] at hne
  | ok payload =>
    have hlen := (recover_protect laws hpay).2
    simp only [ok_bind]
    rw [if_neg (by omega)]
    simp [fail]

theorem limitBinds_of_size (laws : AeadLaws libs) {m : ℕ}
    (hsame : ∀ text, libs.json.toWriter p.body.serialize = .ok text →
      (c.frameSize text p ≤ m ↔ c.frameSize text p ≤ c.maxFrameBytes)) : LimitBinds libs m c p := by
  refine ⟨fun random f hf => ?_, fun random text htext hm size max => ?_⟩
  · obtain ⟨text, htext, hlen, hmax, -⟩ := encode_inv laws hf
    have hsize : f.length = c.frameSize text p := hlen
    rw [hsize] at hmax ⊢
    exact (hsame text htext).mpr hmax
  · exact encode_ne_too_large laws htext ((hsame text htext).mp hm) size max

theorem limitBinds_iff_size (laws : AeadLaws libs) (accepts : AeadAccepts libs) (hk : c.Keyed)
    (hsmall : c.maxFrameBytes < 2 ^ 32) (m : ℕ) :
    LimitBinds libs m c p ↔ ∀ text, libs.json.toWriter p.body.serialize = .ok text →
      (c.frameSize text p ≤ m ↔ c.frameSize text p ≤ c.maxFrameBytes) := by
  refine ⟨fun ⟨hle, hrefused⟩ text htext => ⟨fun hm => ?_, fun hfits => ?_⟩, limitBinds_of_size laws⟩
  · by_contra hbig
    obtain ⟨size, max, hfail⟩ := encode_of_exceeds laws hk htext
      (fun hle => accepts.seals c (Vector.replicate 12 0) (by omega)) (not_le.mp hbig)
    exact hrefused _ text htext hm size max hfail
  · have hcomp : (composite text p.body.attachments).length ≤ c.frameSize text p := by
      unfold frameSize
      omega
    obtain ⟨f, hf, hlen⟩ := encode_of_fits laws hk htext
      (accepts.seals c (Vector.replicate 12 0) (by omega)) hfits
    exact hlen ▸ hle _ f hf

end Sizes

end Wscall.Protocol.FrameCodec

namespace Wscall.Server
open RustStd Protocol

/-! ### Configuring a server -/

/-- A builder call that registers a callback or sets a limit of another kind. -/
structure Registration (W : Type) where
  apply : WscallServer W → WscallServer W
  codec : ∀ s, (apply s).codec = s.codec
  isEcdh : ∀ s, (apply s).isEcdh = s.isEcdh
  maxFrameBytes : ∀ s, (apply s).maxFrameBytes = s.maxFrameBytes

inductive ConfigCall (W : Type) where
  | builder (call : BuilderCall)
  | withMaxFrameBytes (max : ℕ)
  | register (r : Registration W)

namespace Builder

variable {W : Type}

def configure (b : Builder W) : ConfigCall W → Builder W
  | .builder call => b.apply call
  | .withMaxFrameBytes max => { b with server := b.server.withMaxFrameBytes max }
  | .register r => { b with server := r.apply b.server }

/-- The setup of a server that was built by `calls` and now listens. -/
def configured (libs : Libs) (ecdh : Ecdh) (clock : Clock) (calls : List (ConfigCall W)) : Setup W :=
  let b := calls.foldl configure ⟨.new, []⟩
  ⟨libs, ecdh, clock, b.server, b.handles⟩

/-- A codec the builder can produce: its key is there and its limit the default. -/
structure Fixed (c : FrameCodec) : Prop where
  keyed : c.Keyed
  limit : c.maxFrameBytes = FrameCodec.defaultMaxFrameBytes

/-- The server's codec and the copies in its handles are as the builder makes them. -/
structure CodecsFixed (b : Builder W) : Prop where
  server : Fixed b.server.codec
  handles : ∀ h ∈ b.handles, Fixed h.codec

theorem CodecsFixed.apply {b : Builder W} (hb : CodecsFixed b) (call : BuilderCall) :
    CodecsFixed (b.apply call) := by
  cases call with
  | withEcdh => exact ⟨hb.server, hb.handles⟩
  | withChacha20Key key => exact ⟨⟨rfl, hb.server.limit⟩, hb.handles⟩
  | withAes256Key key => exact ⟨⟨rfl, hb.server.limit⟩, hb.handles⟩
  | handle =>
    refine ⟨hb.server, fun h hmem => ?_⟩
    rcases List.mem_append.mp hmem with hmem | hmem
    · exact hb.handles h hmem
    · rw [List.mem_singleton.mp hmem]
      exact hb.server

theorem CodecsFixed.configure {b : Builder W} (hb : CodecsFixed b) (call : ConfigCall W) :
    CodecsFixed (b.configure call) := by
  cases call with
  | builder call => exact hb.apply call
  | withMaxFrameBytes max => exact ⟨hb.server, hb.handles⟩
  | register r => exact ⟨(r.codec b.server).symm ▸ hb.server, hb.handles⟩

theorem codecsFixed_foldl {b : Builder W} (hb : CodecsFixed b) (calls : List (ConfigCall W)) :
    CodecsFixed (calls.foldl configure b) := by
  induction calls generalizing b with
  | nil => exact hb
  | cons call calls ih => exact ih (hb.configure call)

/-- No sequence of builder calls changes the limit of the server's codec. -/
theorem configured_fixed {libs : Libs} {ecdh : Ecdh} {clock : Clock} {calls : List (ConfigCall W)}
    {h : ServerHandle} (hmem : h ∈ (configured libs ecdh clock calls).server.handle ::
      (configured libs ecdh clock calls).handles) : Fixed h.codec := by
  have hb : CodecsFixed (calls.foldl configure ⟨.new, []⟩) :=
    codecsFixed_foldl (b := ⟨.new, []⟩) ⟨⟨trivial, rfl⟩, by simp⟩ calls
  rcases List.mem_cons.mp hmem with rfl | hmem
  · exact hb.server
  · exact hb.handles h hmem

end Builder

/-! ### The ways a frame gets onto a connection -/

inductive SendPath where
  | authResponse
  /-- `queue_for`: API responses, event acks and frame-level errors. -/
  | reply
  /-- `send_event_to` and `broadcast_event`. -/
  | event (h : ServerHandle)

namespace SendPath

variable {W : Type} (setup : Setup W)

/-- The handle whose copy of the codec and mode decides; the auth response has none. -/
def handle? : SendPath → Option ServerHandle
  | .authResponse => none
  | .reply => some setup.server.handle
  | .event h => some h

def Available (path : SendPath) : Prop :=
  ∀ h, path.handle? setup = some h → h ∈ setup.server.handle :: setup.handles

/-- The codec a packet is encoded with on this path. -/
def codec (session : FrameCodec) (path : SendPath) : FrameCodec :=
  match path.handle? setup with
  | none => session
  | some h => Submission.codec h session

/-- The session codec encodes: an auth response, or a handle that knows about ECDH. -/
def UsesSession (path : SendPath) : Prop := ∀ h, path.handle? setup = some h → h.isEcdh = true

variable {setup} {session : FrameCodec} {path : SendPath}

theorem codec_of_usesSession (h : path.UsesSession setup) : path.codec setup session = session := by
  unfold codec
  cases hp : path.handle? setup with
  | none => rfl
  | some handle => simp [Submission.codec, h handle hp]

theorem codec_of_not_usesSession (session : FrameCodec) (h : ¬ path.UsesSession setup) :
    ∃ handle, path.handle? setup = some handle ∧ path.codec setup session = handle.codec := by
  simp only [UsesSession, not_forall] at h
  obtain ⟨handle, hp, he⟩ := h
  exact ⟨handle, hp, by simp [codec, hp, Submission.codec, he]⟩

end SendPath

section Results

variable {W : Type}

/-- What a handle of the setup can have put on a queue. -/
def Policy.sends (setup : Setup W) : Policy where
  item
    | .preEncoded bytes => ∃ h ∈ setup.server.handle :: setup.handles, h.isEcdh = false ∧
        h.codec.Encodes setup.libs bytes
    | .packet _ => ∃ h ∈ setup.server.handle :: setup.handles, h.isEcdh = true
    | _ => True
  call _ _ := True
  stable _ h := h

theorem handleItems_sends {setup : Setup W} {h : ServerHandle}
    (hmem : h ∈ setup.server.handle :: setup.handles) :
    HandleItems setup (Policy.sends setup).item h := by
  intro random packet item hout
  unfold ServerHandle.outbound at hout
  cases he : h.isEcdh with
  | true =>
    rw [he] at hout
    cases hout
    exact ⟨h, hmem, he⟩
  | false =>
    rw [he, if_neg (by simp)] at hout
    obtain ⟨bytes, hf, hitem⟩ := bind_eq_ok hout
    cases hitem
    exact ⟨h, hmem, he, random, packet, hf⟩

/-- In every run, a frame that a writer has sent was encoded on one of the paths. -/
theorem sent_frame_path {setup : Setup W} {actions : List (Action W)} {s : State}
    (hrun : Machine.run (step setup) actions (State.init setup) = some s) {c : String} {bytes : Bytes}
    (hsent : .frame bytes ∈ (s.conns c).sent) :
    ∃ (session : FrameCodec) (path : SendPath), (s.conns c).codec = some session ∧
      SessionCodec setup session ∧ path.Available setup ∧
        (path.codec setup session).Encodes setup.libs bytes := by
  have hsound : Sound setup (Policy.sends setup) s :=
    Machine.run_invariant (I := Sound setup (Policy.sends setup)) (fun a s s' h hs => h.step
      ⟨handleItems_sends (List.mem_cons_self ..), fun _ => trivial, trivial⟩
      (fun handle ha => handleItems_sends (mem_handles_of_step hs ha)) (fun _ _ _ _ _ => trivial) hs)
      hrun sound_init
  obtain ⟨session, random, item, hc, hq, hw⟩ := (hsound.conns c).written bytes hsent
  refine ⟨session, ?_⟩
  cases item with
  | preEncoded b =>
    obtain ⟨h, hmem, he, henc⟩ := hq
    cases congrArg Prod.fst hw
    refine ⟨.event h, hc, (hsound.conns c).session session hc, ?_, ?_⟩
    · intro h' hh
      cases hh
      exact hmem
    · simpa [SendPath.codec, SendPath.handle?, Submission.codec, he] using henc
  | packet p =>
    obtain ⟨h, hmem, he⟩ := hq
    refine ⟨.event h, hc, (hsound.conns c).session session hc, ?_, ?_⟩
    · intro h' hh
      cases hh
      exact hmem
    · unfold writeItem at hw
      dsimp only at hw
      split at hw
      · rename_i f hf
        cases congrArg Prod.fst hw
        simpa [SendPath.codec, SendPath.handle?, Submission.codec, he] using ⟨random, p, hf⟩
      · cases congrArg Prod.fst hw
  | pong payload => cases congrArg Prod.fst hw
  | close => cases congrArg Prod.fst hw

/-- On every path of every configured server, the limit that was asked for binds a packet
exactly when the session codec encodes it, or its frame is on the same side of that limit
and of the default one. -/
theorem limitBinds_iff {libs : Libs} (laws : FrameCodec.AeadLaws libs)
    (accepts : FrameCodec.AeadAccepts libs) (ecdh : Ecdh) (clock : Clock)
    (calls : List (ConfigCall W)) {session : FrameCodec}
    (hsession : SessionCodec (Builder.configured libs ecdh clock calls) session) {path : SendPath}
    (hpath : path.Available (Builder.configured libs ecdh clock calls)) (p : PacketEnvelope) :
    FrameCodec.LimitBinds libs (Builder.configured libs ecdh clock calls).server.maxFrameBytes
        (path.codec (Builder.configured libs ecdh clock calls) session) p ↔
      path.UsesSession (Builder.configured libs ecdh clock calls) ∨
        ∀ text, libs.json.toWriter p.body.serialize = .ok text →
          ((path.codec (Builder.configured libs ecdh clock calls) session).frameSize text p ≤
              (Builder.configured libs ecdh clock calls).server.maxFrameBytes ↔
            (path.codec (Builder.configured libs ecdh clock calls) session).frameSize text p ≤
              FrameCodec.defaultMaxFrameBytes) := by
  by_cases huses : path.UsesSession (Builder.configured libs ecdh clock calls)
  · refine ⟨fun _ => .inl huses, fun _ => ?_⟩
    rw [SendPath.codec_of_usesSession huses, ← hsession.maxFrameBytes]
    exact FrameCodec.limitBinds_of_size laws fun _ _ => Iff.rfl
  · obtain ⟨h, hh, hcodec⟩ := SendPath.codec_of_not_usesSession session huses
    have hfixed := Builder.configured_fixed (hpath h hh)
    rw [hcodec, FrameCodec.limitBinds_iff_size laws accepts hfixed.keyed (by rw [hfixed.limit]; decide),
      hfixed.limit]
    exact (or_iff_right huses).symm

/-- Over whole runs the limit fails by the default one at most, and under ECDH not at all as
long as every handle was taken after `with_ecdh`. -/
theorem sent_frame_le {libs : Libs} (laws : FrameCodec.AeadLaws libs) (ecdh : Ecdh) (clock : Clock)
    (calls : List (ConfigCall W)) {actions : List (Action W)} {s : State}
    (hrun : Machine.run (step (Builder.configured libs ecdh clock calls)) actions
      (State.init (Builder.configured libs ecdh clock calls)) = some s) {c : String} {bytes : Bytes}
    (hsent : .frame bytes ∈ (s.conns c).sent) :
    bytes.length ≤ (Builder.configured libs ecdh clock calls).server.maxFrameBytes ∨
      bytes.length ≤ FrameCodec.defaultMaxFrameBytes ∧
        ∃ h ∈ (Builder.configured libs ecdh clock calls).server.handle ::
          (Builder.configured libs ecdh clock calls).handles, h.isEcdh = false := by
  obtain ⟨session, path, -, hsession, hpath, random, p, hf⟩ := sent_frame_path hrun hsent
  obtain ⟨-, -, -, hmax, -⟩ := FrameCodec.encode_inv laws hf
  by_cases huses : path.UsesSession (Builder.configured libs ecdh clock calls)
  · rw [SendPath.codec_of_usesSession huses, hsession.maxFrameBytes] at hmax
    exact .inl hmax
  · obtain ⟨h, hh, hcodec⟩ := SendPath.codec_of_not_usesSession session huses
    rw [hcodec, (Builder.configured_fixed (hpath h hh)).limit] at hmax
    refine .inr ⟨hmax, ?_⟩
    simp only [SendPath.UsesSession, not_forall] at huses
    obtain ⟨h', hh', he⟩ := huses
    exact ⟨h', hpath h' hh', by simpa using he⟩

end Results

/-! ### A limit of 128 bytes on a plaintext server -/

def limitedSetup (max : ℕ) : Setup Unit :=
  Builder.configured tickLibs ⟨id, fun secret _ => secret⟩ none [.withMaxFrameBytes max]

def limitedPath (max : ℕ) : SendPath := .event (limitedSetup max).server.handle

def limitedSession (max : ℕ) : FrameCodec := FrameCodec.plaintext.withMaxFrameBytes max

theorem tagged_lawful : tagged.Lawful where
  decrypt_encrypt _ _ msg c h := by
    cases h
    simp [tagged]
  length_encrypt _ _ msg c h := by
    cases h
    simp

theorem tickLibs_laws : FrameCodec.AeadLaws tickLibs := ⟨tagged_lawful, tagged_lawful⟩

theorem tickLibs_accepts : FrameCodec.AeadAccepts tickLibs :=
  ⟨fun _ _ _ _ => rfl, fun _ _ _ _ => rfl⟩

theorem limitBinds_iff_tick :
    FrameCodec.LimitBinds tickLibs 128 ((limitedPath 128).codec (limitedSetup 128) (limitedSession 128))
      (tick []) := by
  have hsession : SessionCodec (limitedSetup 128) (limitedSession 128) := rfl
  have hpath : (limitedPath 128).Available (limitedSetup 128) := by
    intro h hh
    cases hh
    exact List.mem_cons_self ..
  refine (limitBinds_iff tickLibs_laws tickLibs_accepts _ none [.withMaxFrameBytes 128] hsession hpath
    (tick [])).mpr (.inr fun text htext => ?_)
  cases htext
  decide

/-- An event with a 64-byte attachment takes 148 bytes and goes out all the same. -/
theorem broadcast_exceeds_limit :
    (limitedSetup 128).server.maxFrameBytes = 128 ∧
      SessionCodec (limitedSetup 128) (limitedSession 128) ∧
      ¬ FrameCodec.LimitBinds tickLibs 128
        ((limitedPath 128).codec (limitedSetup 128) (limitedSession 128))
        (tick [⟨"f", "f", "t", List.replicate 64 0⟩]) := by
  refine ⟨rfl, rfl, fun h => ?_⟩
  obtain ⟨text, htext⟩ : ∃ text, tickLibs.json.toWriter
      (tick [⟨"f", "f", "t", List.replicate 64 0⟩]).body.serialize = .ok text := ⟨_, rfl⟩
  have hsize : ((limitedPath 128).codec (limitedSetup 128) (limitedSession 128)).frameSize text
      (tick [⟨"f", "f", "t", List.replicate 64 0⟩]) = 148 := by
    cases htext
    decide +kernel
  have hkeyed : ((limitedPath 128).codec (limitedSetup 128) (limitedSession 128)).Keyed := trivial
  obtain ⟨f, hf, hlen⟩ := FrameCodec.encode_of_fits tickLibs_laws hkeyed htext
    (show FrameCodec.Seals tickLibs _ zeroNonce _ from trivial) (hsize.trans_le (by decide))
  have hle := h.1 (.ok zeroNonce) f hf
  omega

end Wscall.Server
