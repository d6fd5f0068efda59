import Wscall.Server.Progress
import Wscall.Server.Transcript

/-!
# The first messages of a connection

Before its writer starts a connection sends the server's key, under ECDH, and the answer to the auth
request. The key is sent once, before everything else, and the session codec comes with it.
-/

namespace Wscall.Server
open RustStd Protocol

theorem Phase.Early.outside {p : Phase} (h : p.Early) : p.Outside := by
  cases p with
  | absent => exact .inl rfl
  | upgrading | keyReading | keySending => exact .inr trivial
  | _ => exact h.elim

section Opening

variable {W : Type} (setup : Setup W)

def exchangedCodec (secret clientPublic : Key) : FrameCodec :=
  (FrameCodec.plaintext.withChacha20Key
    (setup.ecdh.deriveSessionKey secret clientPublic)).withMaxFrameBytes setup.server.maxFrameBytes

/-- The bytes are an auth response under the codec of the session. -/
def Replies (conn : Conn) (bytes : Bytes) : Prop :=
  ∃ codec random result, conn.codec = some codec ∧
    codec.encode setup.libs random (authResponse codec result) = .ok bytes

/-- What has gone out and with which codec, for a client whose keys all have the property. -/
structure Opened (P : Key → Prop) (conn : Conn) : Prop where
  early : conn.phase.Early → conn.sent = []
  bare : setup.server.isEcdh = true → conn.codec = none → conn.sent = []
  plain : setup.server.isEcdh = false → ∀ key, .publicKey key ∉ conn.sent
  writer : conn.channel.writing = true → conn.codec.isSome = true
  offered : ∀ secret clientPublic, conn.phase = .keySending secret clientPublic → P clientPublic
  exchanged : setup.server.isEcdh = true → ∀ codec, conn.codec = some codec →
    ∃ secret clientPublic rest, P clientPublic ∧ codec = exchangedCodec setup secret clientPublic ∧
      conn.sent = .publicKey (setup.ecdh.publicBytes secret) :: rest ∧ ∀ key, .publicKey key ∉ rest
  replying : ∀ result bytes, conn.phase = .authReplying result bytes → Replies setup conn bytes
  replied : ∀ bytes, .authResponse bytes ∈ conn.sent → Replies setup conn bytes

variable {setup} {P : Key → Prop} {s s' : State} {a : Action W} {c : String}

theorem opened_init (c : String) : Opened setup P ((State.init setup).conns c) := by
  constructor <;> simp [State.init, Conn.new]

theorem Replies.congr {old new : Conn} (hcodec : new.codec = old.codec) {bytes : Bytes}
    (h : Replies setup old bytes) : Replies setup new bytes := by
  obtain ⟨codec, random, result, hc, henc⟩ := h
  exact ⟨codec, random, result, hcodec.trans hc, henc⟩

/-- The writer starts where there is a codec, and the codec stays. -/
theorem writer_of_step (hwait : Waiting setup s) (hs : step setup a s = some s')
    (h : (s.conns c).channel.writing = true → (s.conns c).codec.isSome = true)
    (hw : (s'.conns c).channel.writing = true) : (s'.conns c).codec.isSome = true := by
  obtain ⟨accepted, hord⟩ := hwait.ordered c
  have hnotifying : (s.conns c).phase = .notifying → (s.conns c).codec.isSome = true :=
    fun hn => hwait.keyed c (by rw [hn]; exact not_false) (by rw [hn]; simp)
  have hmove : PhaseMove (s.conns c) (s'.conns c) → (s.conns c).codec.isSome = true ∧
      ¬ (s.conns c).phase.Outside := by
    intro hmove
    rcases hmove.writing hw with hold | hold
    · refine ⟨h hold, fun hout => ?_⟩
      rw [(hord.outside hout).2] at hold
      cases hold
    · refine ⟨hnotifying hold, ?_⟩
      rw [hold]
      exact Phase.not_outside (by simp) not_false
  have hobs := observes_move (move_of_step hs) c
  unfold Observes at hobs
  generalize appended c s s' a = items at hobs
  cases hobs with
  | fresh _ _ hq | opened _ _ _ hq | dropped _ _ _ hq =>
    rw [hq] at hw
    cases hw
  | kept hphase hcodec =>
    obtain ⟨hsome, hout⟩ := hmove hphase
    rw [hcodec.resolve_right hout]
    exact hsome
  | pushed hphase hcodec =>
    rw [hcodec]
    exact (hmove hphase).1
  | wrote _ hold _ _ hcodec =>
    rw [hcodec]
    exact h hold

/-- Only the writer of the connection, or nobody, was at work. -/
theorem Opened.unread (h : Opened setup P (s.conns c)) (hwait : Waiting setup s)
    (hwriter : (s'.conns c).channel.writing = true → (s'.conns c).codec.isSome = true)
    (hsame : Unread (s.conns c) (s'.conns c)) : Opened setup P (s'.conns c) := by
  obtain ⟨more, hsent, hmore⟩ := hsame.sent
  have hquiet : ¬ (s.conns c).channel.writing = true → (s'.conns c).sent = (s.conns c).sent :=
    fun hw => hsame.quiet (Bool.eq_false_iff.mpr hw)
  have hkey : ∀ key, WireMessage.publicKey key ∉ more := fun key hmem => hmore _ hmem trivial
  refine ⟨fun hearly => ?_, fun hecdh hnone => ?_, fun hplain key hmem => ?_, hwriter, ?_,
    fun hecdh codec hc => ?_, fun result bytes hp => ?_, fun bytes hmem => ?_⟩
  · rw [hsame.phase] at hearly
    rw [hquiet, h.early hearly]
    intro hw
    obtain ⟨accepted, hord⟩ := hwait.ordered c
    rw [(hord.outside (Phase.Early.outside hearly)).2] at hw
    cases hw
  · rw [hsame.codec] at hnone
    rw [hquiet, h.bare hecdh hnone]
    intro hw
    have := h.writer hw
    rw [hnone] at this
    cases this
  · rw [hsent] at hmem
    exact (List.mem_append.mp hmem).elim (h.plain hplain key) (hkey key)
  · rw [hsame.phase]
    exact h.offered
  · rw [hsame.codec] at hc
    obtain ⟨secret, clientPublic, rest, hP, hcodec, hold, hrest⟩ := h.exchanged hecdh codec hc
    refine ⟨secret, clientPublic, rest ++ more, hP, hcodec, by rw [hsent, hold]; rfl, fun key hmem => ?_⟩
    exact (List.mem_append.mp hmem).elim (hrest key) (hkey key)
  · rw [hsame.phase] at hp
    exact (h.replying result bytes hp).congr hsame.codec
  · rw [hsent] at hmem
    rcases List.mem_append.mp hmem with hmem | hmem
    · exact (h.replied bytes hmem).congr hsame.codec
    · exact absurd trivial (hmore _ hmem)

/-! ### Steps of the connection's task -/

variable {old new : Conn} {op : ConnOp W}

theorem Transcribes.early (h : Transcribes setup old new op) (hearly : new.phase.Early) :
    old.phase.Unkeyed := by
  have hkeep : new.phase.Unkeyed → old.phase.Unkeyed := fun hnew => (h.unkeyed hnew).1
  generalize hp : new.phase = p at hearly hkeep
  cases p with
  | absent | upgrading | keyReading => exact hkeep trivial
  | keySending secret clientPublic =>
    obtain ⟨-, -, -, -, hold, -⟩ := h.key secret clientPublic hp
    rw [hold]
    trivial
  | _ => exact hearly.elim

theorem Transcribes.replies (h : Transcribes setup old new op) (hopened : Opened setup P old)
    (hcodec : old.codec.isSome = true → new.codec = old.codec) {result : Except ApiError AuthOutput}
    {bytes : Bytes} (hp : new.phase = .authReplying result bytes) : Replies setup new bytes := by
  have hold : Replies setup old bytes := by
    rcases h.replying result bytes hp with hold | ⟨codec, random, hc, henc⟩
    · exact hopened.replying result bytes hold
    · exact ⟨codec, random, result, hc, henc⟩
  obtain ⟨codec, -, -, hc, -⟩ := id hold
  exact hold.congr (hcodec (by rw [hc]; rfl))

/-- Nothing is sent. -/
theorem Opened.silent (h : Opened setup P old) (htr : Transcribes setup old new op)
    (hsent : new.sent = old.sent)
    (hcodec : new.codec = old.codec ∨ old.phase.Early ∧ setup.server.isEcdh = false)
    (hnone : old.phase.Early → old.codec = none)
    (hwriter : new.channel.writing = true → new.codec.isSome = true)
    (hkey : ∀ secret clientPublic, new.phase = .keySending secret clientPublic → P clientPublic) :
    Opened setup P new := by
  have hsame : setup.server.isEcdh = true → new.codec = old.codec := by
    intro hecdh
    refine hcodec.resolve_right fun hplain => ?_
    rw [hecdh] at hplain
    cases hplain.2
  refine ⟨fun hearly => ?_, fun hecdh hc => ?_, fun hplain => ?_, hwriter, hkey,
    fun hecdh codec hc => ?_, fun result bytes hp => ?_, fun bytes hmem => ?_⟩
  · rw [hsent]
    exact h.early (htr.early hearly).early
  · rw [hsent]
    exact h.bare hecdh (hsame hecdh ▸ hc)
  · rw [hsent]
    exact h.plain hplain
  · rw [hsent]
    exact h.exchanged hecdh codec (hsame hecdh ▸ hc)
  · refine htr.replies h (fun hsome => hcodec.resolve_right fun hearly => ?_) hp
    rw [hnone hearly.1] at hsome
    cases hsome
  · rw [hsent] at hmem
    refine (h.replied bytes hmem).congr (hcodec.resolve_right fun hearly => ?_)
    rw [h.early hearly.1] at hmem
    cases hmem

/-- The auth response is sent. -/
theorem Opened.reply (h : Opened setup P old) (htr : Transcribes setup old new op)
    {result : Except ApiError AuthOutput} {bytes : Bytes} (hp : old.phase = .authReplying result bytes)
    (hsent : new.sent = old.sent ++ [.authResponse bytes]) (hcodec : new.codec = old.codec)
    (hwriter : new.channel.writing = true → new.codec.isSome = true) : Opened setup P new := by
  have hlate : ¬ new.phase.Early := by
    intro hearly
    have hold := htr.early hearly
    rw [hp] at hold
    exact hold
  refine ⟨fun hearly => absurd hearly hlate, fun hecdh hc => ?_, fun hplain key hmem => ?_, hwriter,
    fun secret clientPublic hphase => ?_, fun hecdh codec hc => ?_,
    fun result' bytes' hphase => htr.replies h (fun _ => hcodec) hphase, fun bytes' hmem => ?_⟩
  · obtain ⟨codec, -, -, hold, -⟩ := h.replying result bytes hp
    rw [hcodec, hold] at hc
    cases hc
  · rw [hsent, List.mem_append, List.mem_singleton] at hmem
    exact hmem.elim (h.plain hplain key) (by simp)
  · rw [hphase] at hlate
    exact absurd trivial hlate
  · rw [hcodec] at hc
    obtain ⟨secret, clientPublic, rest, hP, heq, hold, hrest⟩ := h.exchanged hecdh codec hc
    refine ⟨secret, clientPublic, rest ++ [.authResponse bytes], hP, heq, by rw [hsent, hold]; rfl,
      fun key hmem => ?_⟩
    rw [List.mem_append, List.mem_singleton] at hmem
    exact hmem.elim (hrest key) (by simp)
  · rw [hsent, List.mem_append, List.mem_singleton] at hmem
    rcases hmem with hmem | hmem
    · exact (h.replied bytes' hmem).congr hcodec
    · cases hmem
      exact (h.replying result bytes hp).congr hcodec

/-- The server's key is sent, and the session has its codec. -/
theorem Opened.exchange (h : Opened setup P old) (htr : Transcribes setup old new op)
    (hecdh : setup.server.isEcdh = true) {secret clientPublic : Key}
    (hp : old.phase = .keySending secret clientPublic)
    (hnone : old.codec = none)
    (hsent : new.sent = [.publicKey (setup.ecdh.publicBytes secret)])
    (hcodec : new.codec = some (exchangedCodec setup secret clientPublic))
    (hwriter : new.channel.writing = true → new.codec.isSome = true) : Opened setup P new := by
  have hlate : ¬ new.phase.Early := by
    intro hearly
    have hold := htr.early hearly
    rw [hp] at hold
    exact hold
  refine ⟨fun hearly => absurd hearly hlate, fun _ hc => ?_, fun hplain => ?_, hwriter,
    fun secret' clientPublic' hphase => ?_, fun _ codec hc => ?_, fun result bytes hphase => ?_,
    fun bytes hmem => ?_⟩
  · rw [hcodec] at hc
    cases hc
  · rw [hecdh] at hplain
    cases hplain
  · rw [hphase] at hlate
    exact absurd trivial hlate
  · rw [hcodec] at hc
    cases hc
    exact ⟨secret, clientPublic, [], h.offered secret clientPublic hp, rfl, hsent, by simp⟩
  · rcases htr.replying result bytes hphase with hold | ⟨codec, random, hc, -⟩
    · rw [hp] at hold
      cases hold
    · rw [hnone] at hc
      cases hc
  · rw [hsent, List.mem_singleton] at hmem
    cases hmem

theorem handshake_cases (setup : Setup W) (op : ConnOp W) (p : Phase) :
    (∃ w secret clientPublic, op = .sent true w ∧ p = .keySending secret clientPublic) ∨
      (∃ w result bytes, op = .sent true w ∧ p = .authReplying result bytes) ∨
      handshakeSent setup op p = [] ∧
        (agreedCodec setup op p = none ∨ p = .upgrading ∧ setup.server.isEcdh = false) := by
  unfold handshakeSent agreedCodec
  split
  · exact .inl ⟨_, _, _, rfl, rfl⟩
  · exact .inr (.inl ⟨_, _, _, rfl, rfl⟩)
  · rename_i hkey hreply
    refine .inr (.inr ⟨rfl, ?_⟩)
    split
    · split
      · exact .inl rfl
      · rename_i hplain
        exact .inr ⟨rfl, Bool.eq_false_iff.mpr hplain⟩
    · exact absurd rfl (hkey _ _ _ rfl)
    · exact .inl rfl

theorem Opened.own (h : Opened setup P (s.conns c)) {Q : ServerOutbound → Prop}
    (hok : ConnOk setup Q (s.conns c)) (htr : Transcribes setup (s.conns c) (s'.conns c) op)
    (hwriter : (s'.conns c).channel.writing = true → (s'.conns c).codec.isSome = true)
    (hkey : ∀ secret clientPublic, (s'.conns c).phase = .keySending secret clientPublic →
      P clientPublic) : Opened setup P (s'.conns c) := by
  have hnone : (s.conns c).phase.Early → (s.conns c).codec = none := fun hearly => (hok.early hearly).1
  rcases handshake_cases setup op (s.conns c).phase with
    ⟨w, secret, clientPublic, rfl, hp⟩ | ⟨w, result, bytes, rfl, hp⟩ | ⟨hsilent, hagreed⟩
  · have hearly : (s.conns c).phase.Early := by
      rw [hp]
      trivial
    have hecdh := (hok.early hearly).2.2 (by rw [hp]; trivial)
    have hsent := htr.sent
    have hcodec := htr.codec
    rw [hp, h.early hearly] at hsent
    rw [hp] at hcodec
    exact h.exchange htr hecdh hp (hnone hearly) hsent hcodec hwriter
  · have hsent := htr.sent
    have hcodec := htr.codec
    rw [hp] at hsent hcodec
    exact h.reply htr hp hsent hcodec hwriter
  · have hsent := htr.sent
    rw [hsilent, List.append_nil] at hsent
    refine h.silent htr hsent ?_ hnone hwriter hkey
    rcases hagreed with hagreed | ⟨hp, hplain⟩
    · have hcodec := htr.codec
      rw [hagreed, Option.none_or] at hcodec
      exact .inl hcodec
    · exact .inr ⟨by rw [hp]; trivial, hplain⟩

/-- Where a connection's task takes a message from the stream. -/
theorem phase_of_received {message : Option WsMessage} {now : ℕ} {random : Except String Nonce}
    (hs : Wscall.Server.step setup (.conn c (.received message now random)) s = some s') :
    (∃ secret, (s.conns c).phase = .keyReading secret) ∨ (s.conns c).phase = .authReading ∨
      (s.conns c).phase = .reading := by
  change stepConn setup s c (.received message now random) (s.conns c).phase = some s' at hs
  generalize (s.conns c).phase = p at hs
  cases p with
  | keyReading secret => exact .inl ⟨secret, rfl⟩
  | authReading => exact .inr (.inl rfl)
  | reading => exact .inr (.inr rfl)
  | _ => cases hs

theorem Opened.step (h : Opened setup P (s.conns c)) (hwait : Waiting setup s)
    (hsound : Sound setup .any s) (hs : Wscall.Server.step setup a s = some s')
    (hkey : ∀ bytes now random secret clientPublic,
      a = .conn c (.received (some (.binary bytes)) now random) →
      (s.conns c).phase = .keyReading secret → parsePeerPublic bytes = .ok clientPublic →
      P clientPublic) : Opened setup P (s'.conns c) := by
  have hwriter := writer_of_step hwait hs h.writer
  cases recorded_of_step hs c with
  | accepted hp hinbox hcodec hsent hphase =>
    refine ⟨fun _ => hsent, fun _ _ => hsent, ?_, hwriter, ?_, ?_, ?_, ?_⟩
    · simp [hsent]
    · rcases hphase with hphase | hphase <;> simp [hphase]
    · simp [hcodec]
    · rcases hphase with hphase | hphase <;> simp [hphase]
    · simp [hsent]
  | own hp htr =>
    refine h.own (hsound.conns c) htr hwriter fun secret clientPublic hphase => ?_
    obtain ⟨bytes, now, random, rfl, hreading, hparse⟩ := htr.key secret clientPublic hphase
    exact hkey bytes now random secret clientPublic rfl hreading hparse
  | other ha hsame => exact h.unread hwait hwriter hsame

end Opening

end Wscall.Server
