import Wscall.Server.Runtime

/-!
# The moves of a running server

Every step is listed here with what it found when it was taken and the state it leads to. The
invariants about connections, queues, handler tasks and the table are read off this list.
-/

namespace Wscall.Server
open RustStd Protocol

/-- Before the session codec exists. -/
def Phase.Early : Phase → Prop
  | .absent | .upgrading | .keyReading _ | .keySending _ _ => True
  | _ => False

/-- From the accept to the table entry. -/
def Phase.Handshake : Phase → Prop
  | .upgrading | .keyReading _ | .keySending _ _ | .authReading | .authHandling _
  | .authReplying _ _ => True
  | _ => False

/-- From the table entry to the end of the reader loop. -/
def Phase.Served : Phase → Prop
  | .notifying | .reading | .queueing _ | .acquiring _ | .ponging _ => True
  | _ => False

instance (p : Phase) : Decidable p.Served := by
  cases p <;> unfold Phase.Served <;> infer_instance

/-- The item the reader waits to queue. -/
def Phase.held : Phase → Option ServerOutbound
  | .queueing item => some item
  | .ponging payload => some (.pong payload)
  | _ => none

def WireMessage.Handshake : WireMessage → Prop
  | .publicKey _ | .authResponse _ => True
  | _ => False

def TaskPc.Running : TaskPc → Prop
  | .spawned | .answering _ | .sending _ => True
  | _ => False

instance (pc : TaskPc) : Decidable pc.Running := by
  cases pc <;> unfold TaskPc.Running <;> infer_instance

/-- Not a step of a connection, its writer or its handlers. -/
def Action.Aside {W : Type} : Action W → Prop
  | .push _ _ | .cleanup _ => True
  | _ => False

def WriterOp.sendOk : WriterOp → Bool
  | .next _ ok | .tick ok => ok

/-- The messages the reader loop passes over. -/
def WsMessage.Ignored : WsMessage → Prop
  | .text | .pong | .frame => True
  | _ => False

section Moves

variable {W : Type} (setup : Setup W) (s : State)

/-! ### The handshake -/

/-- What a step adds to the inbox. -/
def taken : ConnOp W → Phase → List WsMessage
  | .received message _ _, .authReading => message.toList
  | .received message _ _, .reading => message.toList
  | _, _ => []

/-- The codec with which a step ends the key exchange. -/
def agreedCodec : ConnOp W → Phase → Option FrameCodec
  | .upgraded true _ _, .upgrading =>
    if setup.server.isEcdh then none
    else some (setup.server.codec.withMaxFrameBytes setup.server.maxFrameBytes)
  | .sent true _, .keySending secret clientPublic =>
    some ((FrameCodec.plaintext.withChacha20Key
      (setup.ecdh.deriveSessionKey secret clientPublic)).withMaxFrameBytes setup.server.maxFrameBytes)
  | _, _ => none

/-- What a step of the handshake sends. -/
def handshakeSent : ConnOp W → Phase → List WireMessage
  | .sent true _, .keySending secret _ => [.publicKey (setup.ecdh.publicBytes secret)]
  | .sent true _, .authReplying _ bytes => [.authResponse bytes]
  | _, _ => []

/-- What a step enters the table with, if it does: the world its handlers see and the output of
the auth handler. -/
def entering : ConnOp W → Phase → Option (W × Option AuthOutput)
  | .upgraded true _ w, .upgrading =>
    if setup.server.isEcdh || setup.server.authHandler.isSome then none else some (w, none)
  | .sent true w, .keySending _ _ =>
    if setup.server.authHandler.isSome then none else some (w, none)
  | .sent true w, .authReplying (.ok output) _ => some (w, some output)
  | _, _ => none

/-- What a step of the handshake makes of the connection's record. -/
inductive Shakes (old : Conn) : ConnOp W → Conn → Prop
  | failed {op} (hp : old.phase.Handshake) (hread : old.phase ≠ .authReading)
      (hcall : ∀ credential, old.phase ≠ .authHandling credential)
      (hcodec : agreedCodec setup op old.phase = none) (hout : entering setup op old.phase = none)
      (hsent : handshakeSent setup op old.phase = []) : Shakes old op { old with phase := .ended }
  | keyed {secret w} (hp : old.phase = .upgrading) (hecdh : setup.server.isEcdh = true) :
      Shakes old (.upgraded true (.ok secret) w) { old with phase := .keyReading secret }
  | offered {bytes now random secret clientPublic} (hp : old.phase = .keyReading secret)
      (hkey : parsePeerPublic bytes = .ok clientPublic) :
      Shakes old (.received (some (.binary bytes)) now random)
        { old with phase := .keySending secret clientPublic }
  | plain {secret w} (hp : old.phase = .upgrading) (hecdh : setup.server.isEcdh = false) :
      Shakes old (.upgraded true secret w) { old with
        codec := some (setup.server.codec.withMaxFrameBytes setup.server.maxFrameBytes)
        phase := .authReading }
  | exchanged {w secret clientPublic} (hp : old.phase = .keySending secret clientPublic) :
      Shakes old (.sent true w) { old with
        sent := old.sent ++ [.publicKey (setup.ecdh.publicBytes secret)]
        codec := some ((FrameCodec.plaintext.withChacha20Key
          (setup.ecdh.deriveSessionKey secret clientPublic)).withMaxFrameBytes
            setup.server.maxFrameBytes)
        phase := .authReading }
  | presented {bytes now random codec packet credential} (hp : old.phase = .authReading)
      (hc : old.codec = some codec) (hd : codec.decode setup.libs bytes = .ok packet)
      (hbody : packet.body = .authRequest credential) :
      Shakes old (.received (some (.binary bytes)) now random) { old with
        phase := .authHandling credential
        inbox := old.inbox ++ [.binary bytes] }
  | unpresented {message now random} (hp : old.phase = .authReading) :
      Shakes old (.received message now random) { old with
        phase := .ended
        inbox := old.inbox ++ message.toList }
  | asked {w random credential outcome phase} (hp : old.phase = .authHandling credential)
      (hauth : setup.server.authHandler.isSome = true)
      (hphase : phase = .ended ∨ ∃ result bytes, phase = .authReplying result bytes ∧
        outcome = .returns result ∧ ∃ codec, old.codec = some codec ∧
          codec.encode setup.libs random (authResponse codec result) = .ok bytes) :
      Shakes old (.authReturned w random) { old with
        phase := phase
        authCalls := old.authCalls ++ [(credential, outcome)] }
  | accepted {w output bytes} (hp : old.phase = .authReplying (.ok output) bytes) :
      Shakes old (.sent true w) { old with sent := old.sent ++ [.authResponse bytes] }
  | rejected {w e bytes} (hp : old.phase = .authReplying (.error e) bytes) :
      Shakes old (.sent true w) { old with
        sent := old.sent ++ [.authResponse bytes]
        phase := .ended }

/-! ### The reader -/

/-- An event packet as it is queued for a handle of the server. -/
def EventItem (item : ServerOutbound) : Prop :=
  ∃ h ∈ setup.server.handle :: setup.handles, ∃ e eventId random,
    h.outbound setup.libs random (h.eventPacket eventId e) = .ok item

/-- An event packet of a step of user code, from the handle it has. -/
def PushedBy (handle? : Option ServerHandle) (item : ServerOutbound) : Prop :=
  ∃ h, handle? = some h ∧ h ∈ setup.server.handle :: setup.handles ∧ ∃ e eventId random,
    h.outbound setup.libs random (h.eventPacket eventId e) = .ok item

/-- What the reader decides about a packet it has decoded, with the limiter as it finds it. -/
def intakeOf (limiter : Option RateLimiterState) (c : String) (peer : SocketAddr) (now : ℕ)
    (bytes : Bytes) (body : PacketBody) : WscallServer.Intake :=
  (setup.server.intake limiter setup.clock now c peer.ip (UInt64.ofNat bytes.length) body).1

/-- The packet with which the reader itself answers a message. -/
inductive Refusal (limiter : Option RateLimiterState) (c : String) (peer : SocketAddr)
    (codec : FrameCodec) (now : ℕ) : WsMessage → PacketEnvelope → Prop
  | header {bytes code text} (h : fastReject setup.server.maxFrameBytes bytes = some (code, text)) :
      Refusal limiter c peer codec now (.binary bytes)
        (frameErrorPacket 0 code text setup.server.defaultEncryption)
  | limited {bytes p packet} (hfast : fastReject setup.server.maxFrameBytes bytes = none)
      (hd : codec.decode setup.libs bytes = .ok p)
      (h : intakeOf setup limiter c peer now bytes p.body = .answer packet) :
      Refusal limiter c peer codec now (.binary bytes) packet

/-- The connection's task unwinds while it reads. -/
def ReadUnwinds (c : String) (codec : FrameCodec) (now : ℕ) (bytes : Bytes) : Prop :=
  fastReject setup.server.maxFrameBytes bytes = none ∧
    (codec.decode setup.libs bytes = .error .panic ∨
      ∃ p, codec.decode setup.libs bytes = .ok p ∧
        (setup.server.intake s.limiter setup.clock now c (s.conns c).peer.ip
          (UInt64.ofNat bytes.length) p.body).1 = .unwind)

/-- `queue_for` gives up before it waits for room. -/
def Unqueueable (c : String) (random : Except String Nonce) (packet : PacketEnvelope) : Prop :=
  s.clients c = none ∨ ∃ e, setup.server.handle.outbound setup.libs random packet = .error e

/-- What ends the reader loop. -/
inductive Hangs (codec : FrameCodec) : Option WsMessage → Prop
  | ended : Hangs codec none
  | closed : Hangs codec (some .close)
  | undecodable {bytes e} (hfast : fastReject setup.server.maxFrameBytes bytes = none)
      (hd : codec.decode setup.libs bytes = .error (.err e)) : Hangs codec (some (.binary bytes))

/-- Where a message leaves the reader, unless it ends the loop. -/
inductive Reads (c : String) (codec : FrameCodec) (now : ℕ) (random : Except String Nonce) :
    Option WsMessage → Phase → Prop
  | ignored {message : WsMessage} (h : message.Ignored) : Reads c codec now random (some message) .reading
  | inline {bytes p} (hfast : fastReject setup.server.maxFrameBytes bytes = none)
      (hd : codec.decode setup.libs bytes = .ok p)
      (h : intakeOf setup s.limiter c (s.conns c).peer now bytes p.body = .inline) :
      Reads c codec now random (some (.binary bytes)) .reading
  | dropped {message packet} (h : Refusal setup s.limiter c (s.conns c).peer codec now message packet)
      (hno : Unqueueable setup s c random packet) : Reads c codec now random (some message) .reading
  | ping (payload : Bytes) : Reads c codec now random (some (.ping payload)) (.ponging payload)
  | refused {message packet item}
      (h : Refusal setup s.limiter c (s.conns c).peer codec now message packet)
      (hin : (s.clients c).isSome = true)
      (hitem : setup.server.handle.outbound setup.libs random packet = .ok item) :
      Reads c codec now random (some message) (.queueing item)
  | data {bytes p} (hfast : fastReject setup.server.maxFrameBytes bytes = none)
      (hd : codec.decode setup.libs bytes = .ok p)
      (h : intakeOf setup s.limiter c (s.conns c).peer now bytes p.body = .spawn) :
      Reads c codec now random (some (.binary bytes)) (.acquiring p.body)
  | unwound {bytes} (h : ReadUnwinds setup s c codec now bytes) :
      Reads c codec now random (some (.binary bytes)) .ended

/-! ### The handler tasks -/

/-- The record of calls after a task has run `process_packet`. -/
def callsAfter (t : ℕ) (w : W) : List (String × Invocation) :=
  s.calls ++ (execTask setup s (s.tasks t) w).calls.map ((s.tasks t).connectionId, ·)

/-- Why a task ends without having queued anything. -/
inductive Finishes (t : ℕ) : TaskOp W → List (String × Invocation) → Prop
  | silent {w} (ht : (s.tasks t).pc = .spawned)
      (hres : ∀ packet, (execTask setup s (s.tasks t) w).result ≠ some (some packet)) :
      Finishes t (.run w) (callsAfter setup s t w)
  | dropped {random packet} (ht : (s.tasks t).pc = .answering packet)
      (hno : Unqueueable setup s (s.tasks t).connectionId random packet) :
      Finishes t (.queue random) s.calls
  | unsent {item} (ht : (s.tasks t).pc = .sending item)
      (hdead : (s.conns (s.tasks t).connectionId).channel.alive = false) : Finishes t .send s.calls

/-! ### The moves -/

inductive Move : Action W → State → Prop
  | accepted {c peer now limiter phase} (hp : (s.conns c).phase = .absent)
      (hphase : phase = .upgrading ∨ phase = .ended) :
      Move (.conn c (.accept peer now))
        ({ s with limiter := limiter }.setConn c (Conn.new peer phase))
  | shook {c op conn} (h : Shakes setup (s.conns c) op conn)
      (hout : entering setup op (s.conns c).phase = none) : Move (.conn c op) (s.setConn c conn)
  | entered {c op conn w output} (h : Shakes setup (s.conns c) op conn)
      (hin : entering setup op (s.conns c).phase = some (w, output)) :
      Move (.conn c op) (enter setup (s.setConn c conn) c w output)
  | greeted {c random item} (hp : (s.conns c).phase = .notifying)
      (hitem : setup.server.handle.outbound setup.libs random
        (setup.server.handle.eventPacket (s.nextEventId + 1) (systemNotice c)) = .ok item)
      (halive : (s.conns c).channel.alive = true) (hroom : (s.conns c).channel.hasRoom = true) :
      Move (.conn c (.notified random))
        ({ s with nextEventId := s.nextEventId + 1 }.setConn c { s.conns c with
          channel := { (s.conns c).channel with writing := true }.push item
          phase := .reading })
  | ungreeted {c random} (hp : (s.conns c).phase = .notifying) :
      Move (.conn c (.notified random))
        (teardown ({ s with nextEventId := s.nextEventId + 1 }.setConn c { s.conns c with
          channel := { (s.conns c).channel with writing := true } }) c)
  | read {c codec message now random limiter phase} (hp : (s.conns c).phase = .reading)
      (hc : (s.conns c).codec = some codec) (h : Reads setup s c codec now random message phase) :
      Move (.conn c (.received message now random))
        ({ s with limiter := limiter }.setConn c { s.conns c with
          phase := phase
          inbox := (s.conns c).inbox ++ message.toList })
  | hungUp {c codec message now random} (hp : (s.conns c).phase = .reading)
      (hc : (s.conns c).codec = some codec) (h : Hangs setup codec message) :
      Move (.conn c (.received message now random)) (teardown (s.logged c message) c)
  | queued {c item} (hp : (s.conns c).phase.held = some item)
      (halive : (s.conns c).channel.alive = true) (hroom : (s.conns c).channel.hasRoom = true) :
      Move (.conn c .queued) (s.setConn c { s.conns c with
        channel := (s.conns c).channel.push item
        phase := .reading })
  | unqueued {c item} (hp : (s.conns c).phase = .queueing item)
      (hdead : (s.conns c).channel.alive = false) :
      Move (.conn c .queued) (s.setPhase c .reading)
  | unponged {c payload} (hp : (s.conns c).phase = .ponging payload)
      (hdead : (s.conns c).channel.alive = false) : Move (.conn c .queued) (teardown s c)
  | acquired {c t body} (hp : (s.conns c).phase = .acquiring body) (ht : (s.tasks t).pc = .absent)
      (hroom : (s.conns c).inFlight < setup.server.maxInFlight) :
      Move (.conn c (.acquired t)) ((s.setTask t ⟨c, body, .spawned⟩).setConn c { s.conns c with
        inFlight := (s.conns c).inFlight + 1
        phase := .reading })
  | graceOver {c} (hp : (s.conns c).phase = .closing) :
      Move (.conn c .graceOver) (s.setConn c { s.conns c with
        channel := ⟨[], false, false⟩
        phase := .ended })
  | ticked {c} (hw : (s.conns c).channel.writing = true) :
      Move (.writer c (.tick true)) (s.pushWire c .ping)
  | stopped {c op} (hw : (s.conns c).channel.writing = true) (hfail : op.sendOk = false) :
      Move (.writer c op) (s.setConn c { s.conns c with channel := ⟨[], false, false⟩ })
  | wrote {c random item rest codec message goesOn} (hw : (s.conns c).channel.writing = true)
      (hq : (s.conns c).channel.queue = item :: rest) (hc : (s.conns c).codec = some codec)
      (hm : writeItem setup.libs codec random item = (message, goesOn)) :
      Move (.writer c (.next random true)) (s.setConn c { s.conns c with
        sent := (s.conns c).sent ++ message.toList
        channel := if goesOn then { (s.conns c).channel with queue := rest } else ⟨[], false, false⟩ })
  | ran {t w packet} (ht : (s.tasks t).pc = .spawned)
      (hres : (execTask setup s (s.tasks t) w).result = some (some packet)) :
      Move (.task t (.run w)) ({ s with calls := callsAfter setup s t w }.setTask t
        { s.tasks t with pc := .answering packet })
  | encoded {t random packet item} (ht : (s.tasks t).pc = .answering packet)
      (hin : (s.clients (s.tasks t).connectionId).isSome = true)
      (hitem : setup.server.handle.outbound setup.libs random packet = .ok item) :
      Move (.task t (.queue random)) (s.setTask t { s.tasks t with pc := .sending item })
  | answered {t item} (ht : (s.tasks t).pc = .sending item)
      (halive : (s.conns (s.tasks t).connectionId).channel.alive = true)
      (hroom : (s.conns (s.tasks t).connectionId).channel.hasRoom = true) :
      Move (.task t .send) (finishTask (s.setConn (s.tasks t).connectionId
        { s.conns (s.tasks t).connectionId with
          channel := (s.conns (s.tasks t).connectionId).channel.push item }) t (s.tasks t))
  | finished {t op calls} (h : Finishes setup s t op calls) :
      Move (.task t op) (finishTask { s with calls := calls } t (s.tasks t))
  | delivered {k op c item n} (hitem : s.pushes k = some item ∨ PushedBy setup op.handle? item)
      (hin : (s.clients c).isSome = true) (halive : (s.conns c).channel.alive = true)
      (hroom : (s.conns c).channel.hasRoom = true) :
      Move (.push k op) ({ s with nextEventId := n }.setConn c { s.conns c with
        channel := (s.conns c).channel.push item })
  | aside {a limiter n pushes} (ha : a.Aside)
      (hpushes : ∀ k item, pushes k = some item →
        s.pushes k = some item ∨ PushedBy setup a.handle? item) :
      Move a { s with limiter := limiter, nextEventId := n, pushes := pushes }

end Moves

/-! ### What the handshake leaves alone -/

/-- What a step of the handshake does to the wire, the codec and the inbox. -/
structure Shaken (old new : Conn) : Prop where
  peer : new.peer = old.peer
  channel : new.channel = old.channel
  inFlight : new.inFlight = old.inFlight
  sent : new.sent = old.sent ∨ ∃ m : WireMessage, m.Handshake ∧ new.sent = old.sent ++ [m]
  codec : new.codec = old.codec ∨ old.phase.Early
  session : old.phase.Early → new.phase.Early ∨ new.phase = .ended ∨ new.codec.isSome = true

section Handshake

variable {W : Type} {setup : Setup W} {old new : Conn} {op : ConnOp W}

theorem Shakes.handshake (h : Shakes setup old op new) : old.phase.Handshake := by
  cases h with
  | failed hp => exact hp
  | keyed hp | offered hp | plain hp | exchanged hp | presented hp | unpresented hp | asked hp
  | accepted hp | rejected hp =>
    rw [hp]
    trivial

theorem Shakes.next (h : Shakes setup old op new) : new.phase.Handshake ∨ new.phase = .ended := by
  cases h with
  | failed | unpresented | rejected => exact .inr rfl
  | keyed | offered | plain | exchanged | presented => exact .inl trivial
  | asked _ _ hphase =>
    rcases hphase with rfl | ⟨result, bytes, rfl, -⟩
    · exact .inr rfl
    · exact .inl trivial
  | accepted hp =>
    refine .inl ?_
    change old.phase.Handshake
    rw [hp]
    trivial

theorem Shakes.shaken (h : Shakes setup old op new) : Shaken old new := by
  have hlate : ∀ {p : Phase}, old.phase = p → ¬ p.Early → old.phase.Early →
      new.phase.Early ∨ new.phase = .ended ∨ new.codec.isSome = true :=
    fun hp hnot he => absurd (hp ▸ he) hnot
  cases h with
  | failed hp => exact ⟨rfl, rfl, rfl, .inl rfl, .inl rfl, fun _ => .inr (.inl rfl)⟩
  | keyed hp => exact ⟨rfl, rfl, rfl, .inl rfl, .inl rfl, fun _ => .inl trivial⟩
  | offered hp => exact ⟨rfl, rfl, rfl, .inl rfl, .inl rfl, fun _ => .inl trivial⟩
  | plain hp =>
    exact ⟨rfl, rfl, rfl, .inl rfl, .inr (hp ▸ trivial), fun _ => .inr (.inr rfl)⟩
  | exchanged hp =>
    exact ⟨rfl, rfl, rfl, .inr ⟨_, by trivial, rfl⟩, .inr (hp ▸ trivial), fun _ => .inr (.inr rfl)⟩
  | presented hp => exact ⟨rfl, rfl, rfl, .inl rfl, .inl rfl, hlate hp not_false⟩
  | unpresented hp => exact ⟨rfl, rfl, rfl, .inl rfl, .inl rfl, hlate hp not_false⟩
  | asked hp => exact ⟨rfl, rfl, rfl, .inl rfl, .inl rfl, hlate hp not_false⟩
  | accepted hp => exact ⟨rfl, rfl, rfl, .inr ⟨_, by trivial, rfl⟩, .inl rfl, hlate hp not_false⟩
  | rejected hp => exact ⟨rfl, rfl, rfl, .inr ⟨_, by trivial, rfl⟩, .inl rfl, hlate hp not_false⟩

/-- What stands behind an entry into the table: there is no auth handler, or it is about to be
answered that the handler accepted. -/
def Stands (setup : Setup W) (conn : Conn) : Option AuthOutput → Prop
  | none => setup.server.authHandler = none ∧ conn.phase.Early
  | some output => ∃ bytes, conn.phase = .authReplying (.ok output) bytes

theorem Shakes.stands (h : Shakes setup old op new) {w : W} {output : Option AuthOutput}
    (hin : entering setup op old.phase = some (w, output)) :
    new.authCalls = old.authCalls ∧ Stands setup old output := by
  cases h with
  | failed _ _ _ _ hout =>
    rw [hout] at hin
    cases hin
  | plain hp hecdh =>
    have hearly : old.phase.Early := hp ▸ trivial
    rw [hp] at hin
    simp only [entering, hecdh, Bool.false_or, Option.ite_none_left_eq_some, Bool.not_eq_true,
      Option.isSome_eq_false_iff, Option.isNone_iff_eq_none, Option.some.injEq, Prod.mk.injEq] at hin
    obtain ⟨hnone, -, rfl⟩ := hin
    exact ⟨rfl, hnone, hearly⟩
  | exchanged hp =>
    have hearly : old.phase.Early := hp ▸ trivial
    rw [hp] at hin
    simp only [entering, Option.ite_none_left_eq_some, Bool.not_eq_true, Option.isSome_eq_false_iff,
      Option.isNone_iff_eq_none, Option.some.injEq, Prod.mk.injEq] at hin
    obtain ⟨hnone, -, rfl⟩ := hin
    exact ⟨rfl, hnone, hearly⟩
  | @accepted _ _ bytes hp =>
    rw [hp] at hin
    cases hin
    exact ⟨rfl, bytes, hp⟩
  | keyed hp hecdh =>
    rw [hp] at hin
    simp [entering, hecdh] at hin
  | offered hp | presented hp | unpresented hp | asked hp | rejected hp =>
    rw [hp] at hin
    cases hin

/-- Where a connection enters the table it has its codec. -/
theorem Shakes.late (h : Shakes setup old op new) {entry : W × Option AuthOutput}
    (hin : entering setup op old.phase = some entry) : ¬ new.phase.Early ∧ new.phase ≠ .ended := by
  cases h with
  | failed _ _ _ _ hout =>
    rw [hout] at hin
    cases hin
  | keyed hp hecdh =>
    rw [hp] at hin
    simp [entering, hecdh] at hin
  | plain | exchanged => exact ⟨not_false, (by simp)⟩
  | accepted hp =>
    change ¬ old.phase.Early ∧ old.phase ≠ .ended
    rw [hp]
    exact ⟨not_false, (by simp)⟩
  | offered hp | presented hp | unpresented hp | asked hp | rejected hp =>
    rw [hp] at hin
    cases hin

end Handshake

/-! ### Every step is a move -/

section Inversion

variable {W : Type} {setup : Setup W} {s s' : State} {c : String}

theorem setConn_conns (s : State) (c : String) : s.setConn c (s.conns c) = s := by
  simp [State.setConn]

theorem trySend_eq_some {ch ch' : Channel} {item : ServerOutbound} (h : ch.trySend item = some ch') :
    ch.alive = true ∧ ch.hasRoom = true ∧ ch' = ch.push item := by
  unfold Channel.trySend at h
  split at h <;> cases h
  rename_i hok
  simp only [Bool.and_eq_true] at hok
  exact ⟨hok.1, hok.2, rfl⟩

theorem move_accept {peer : SocketAddr} {now : ℕ} (hp : (s.conns c).phase = .absent)
    (hs : stepConn setup s c (.accept peer now) .absent = some s') :
    Move setup s (.conn c (.accept peer now)) s' := by
  unfold stepConn at hs
  dsimp only at hs
  split at hs
  · cases hs
    exact .accepted hp (.inl rfl)
  · generalize RateLimiterState.isIpBanned _ _ _ = checked at hs
    obtain ⟨banned, rl⟩ := checked
    cases hs
    refine .accepted hp ?_
    cases banned
    · exact .inl rfl
    · exact .inr rfl

theorem move_failed {op : ConnOp W} (hp : (s.conns c).phase.Handshake)
    (hread : (s.conns c).phase ≠ .authReading)
    (hcall : ∀ credential, (s.conns c).phase ≠ .authHandling credential)
    (hcodec : agreedCodec setup op (s.conns c).phase = none)
    (hout : entering setup op (s.conns c).phase = none)
    (hsent : handshakeSent setup op (s.conns c).phase = []) :
    Move setup s (.conn c op) (s.setPhase c .ended) :=
  .shook (.failed hp hread hcall hcodec hout hsent) hout

/-- The end of the key exchange, with the record it leaves behind. -/
theorem move_afterKeyExchange {op : ConnOp W} {conn : Conn} {codec : FrameCodec} {w : W}
    (h : Shakes setup (s.conns c) op { conn with codec := some codec, phase := .authReading })
    (hin : entering setup op (s.conns c).phase =
      if setup.server.authHandler.isSome then none else some (w, none)) :
    Move setup s (.conn c op) (afterKeyExchange setup (s.setConn c conn) c w codec) := by
  unfold afterKeyExchange
  simp only [State.setConn_self, State.setConn_setConn]
  cases hh : setup.server.authHandler with
  | some handler => exact .shook h (by rw [hin, hh]; rfl)
  | none => exact .entered h (by rw [hin, hh]; rfl)

theorem move_upgraded {ok : Bool} {secret : Except String Key} {w : W}
    (hp : (s.conns c).phase = .upgrading)
    (hs : stepConn setup s c (.upgraded ok secret w) .upgrading = some s') :
    Move setup s (.conn c (.upgraded ok secret w)) s' := by
  have hfailed : agreedCodec setup (.upgraded ok secret w) .upgrading = none →
      Move setup s (.conn c (.upgraded ok secret w)) (s.setPhase c .ended) := by
    intro hcodec
    refine move_failed (hp ▸ trivial) (by rw [hp]; simp) (by rw [hp]; simp) (hp ▸ hcodec) ?_
      (by rw [hp]; rfl)
    rw [hp]
    cases ok <;> simp_all [entering, agreedCodec]
  unfold stepConn at hs
  dsimp only at hs
  split at hs
  · rename_i hok
    subst hok
    split at hs
    · rename_i hecdh
      split at hs <;> cases hs
      · exact .shook (.keyed hp hecdh) (by rw [hp]; simp [entering, hecdh])
      · exact hfailed (by simp [agreedCodec, hecdh])
    · rename_i hecdh
      cases hs
      have hplain := move_afterKeyExchange (w := w) (.plain hp (Bool.eq_false_iff.mpr hecdh))
        (show entering setup (.upgraded true secret w) (s.conns c).phase = _ by
          rw [hp]; simp [entering, hecdh])
      rwa [setConn_conns] at hplain
  · rename_i hok
    cases hs
    exact hfailed (by simp [agreedCodec, hok])

/-- The client's key. -/
theorem move_clientKey {message : Option WsMessage} {now : ℕ} {random : Except String Nonce}
    {secret : Key} (hp : (s.conns c).phase = .keyReading secret)
    (hs : stepConn setup s c (.received message now random) (.keyReading secret) = some s') :
    Move setup s (.conn c (.received message now random)) s' := by
  have hfailed : Move setup s (.conn c (.received message now random)) (s.setPhase c .ended) :=
    move_failed (hp ▸ trivial) (by rw [hp]; simp) (by rw [hp]; simp) (by rw [hp]; rfl)
      (by rw [hp]; rfl) (by rw [hp]; rfl)
  unfold stepConn at hs
  dsimp only at hs
  split at hs
  · split at hs <;> cases hs
    · exact .shook (.offered hp ‹_›) (by rw [hp]; rfl)
    · exact hfailed
  · cases hs
    exact hfailed

/-- The server's key. -/
theorem move_serverKey {ok : Bool} {w : W} {secret clientPublic : Key}
    (hp : (s.conns c).phase = .keySending secret clientPublic)
    (hs : stepConn setup s c (.sent ok w) (.keySending secret clientPublic) = some s') :
    Move setup s (.conn c (.sent ok w)) s' := by
  unfold stepConn at hs
  dsimp only at hs
  split at hs <;> rename_i hok <;> cases hs
  · subst hok
    exact move_afterKeyExchange (.exchanged hp) (by rw [hp]; simp [entering])
  · rw [Bool.not_eq_true] at hok
    subst hok
    exact move_failed (hp ▸ trivial) (by rw [hp]; simp) (by rw [hp]; simp) (by rw [hp]; rfl)
      (by rw [hp]; rfl) (by rw [hp]; rfl)

/-- A message is logged and the connection goes on in some phase. -/
theorem logged_setPhase (s : State) (c : String) (message : Option WsMessage)
    (limiter : Option RateLimiterState) (phase : Phase) :
    State.setPhase { s.logged c message with limiter := limiter } c phase =
      { s with limiter := limiter }.setConn c { s.conns c with
        phase := phase
        inbox := (s.conns c).inbox ++ message.toList } := by
  simp [State.setPhase, State.logged, State.setConn]

theorem move_authFrame {message : Option WsMessage} {now : ℕ} {random : Except String Nonce}
    (hp : (s.conns c).phase = .authReading)
    (hs : stepConn setup s c (.received message now random) .authReading = some s') :
    Move setup s (.conn c (.received message now random)) s' := by
  have hout : ∀ message : Option WsMessage,
      entering setup (.received message now random) (s.conns c).phase = none := fun _ => by rw [hp]; rfl
  have hphase : ∀ (message : Option WsMessage) (phase : Phase),
      (s.logged c message).setPhase c phase = s.setConn c { s.conns c with
        phase := phase
        inbox := (s.conns c).inbox ++ message.toList } :=
    fun message => logged_setPhase s c message s.limiter
  unfold stepConn at hs
  dsimp only at hs
  obtain ⟨codec, hc, rfl⟩ := Option.map_eq_some_iff.mp hs
  unfold readAuth
  split
  · split
    · rw [hphase]
      exact .shook (.presented hp hc ‹_› rfl) (hout _)
    · rw [hphase]
      exact .shook (.unpresented hp) (hout _)
  · rw [hphase]
    exact .shook (.unpresented hp) (hout _)

theorem move_authReturned {w : W} {random : Except String Nonce} {credential : String}
    (hp : (s.conns c).phase = .authHandling credential)
    (hs : stepConn setup s c (.authReturned w random) (.authHandling credential) = some s') :
    Move setup s (.conn c (.authReturned w random)) s' := by
  have hout : entering setup (.authReturned w random) (s.conns c).phase = none := by rw [hp]; rfl
  unfold stepConn at hs
  dsimp only at hs
  split at hs
  · rename_i handler codec hh hc
    have hauth : setup.server.authHandler.isSome = true := by rw [hh]; rfl
    split at hs
    · rename_i result hret
      split at hs <;> cases hs <;>
        simp only [State.setPhase, State.setConn_self, State.setConn_setConn]
      · exact .shook (.asked hp hauth (.inr ⟨result, _, rfl, hret, codec, hc, ‹_›⟩)) hout
      · exact .shook (.asked hp hauth (.inl rfl)) hout
    · cases hs
      simp only [State.setPhase, State.setConn_self, State.setConn_setConn]
      exact .shook (.asked hp hauth (.inl rfl)) hout
  · cases hs

theorem move_authResponse {ok : Bool} {w : W} {result : Except ApiError AuthOutput} {bytes : Bytes}
    (hp : (s.conns c).phase = .authReplying result bytes)
    (hs : stepConn setup s c (.sent ok w) (.authReplying result bytes) = some s') :
    Move setup s (.conn c (.sent ok w)) s' := by
  unfold stepConn at hs
  dsimp only at hs
  split at hs
  · rename_i hok
    subst hok
    split at hs <;> cases hs
    · exact .entered (.accepted hp) (by rw [hp]; rfl)
    · simp only [State.pushWire, State.setPhase, State.setConn_self, State.setConn_setConn]
      exact .shook (.rejected hp) (by rw [hp]; rfl)
  · rename_i hok
    cases hs
    rw [Bool.not_eq_true] at hok
    subst hok
    exact move_failed (hp ▸ trivial) (by rw [hp]; simp) (by rw [hp]; simp) (by rw [hp]; rfl)
      (by rw [hp]; rfl) (by rw [hp]; rfl)

theorem move_greeting {random : Except String Nonce} (hp : (s.conns c).phase = .notifying)
    (hs : stepConn setup s c (.notified random) .notifying = some s') :
    Move setup s (.conn c (.notified random)) s' := by
  unfold stepConn at hs
  dsimp only at hs
  split at hs
  · cases hs
    exact .ungreeted hp
  · split at hs
    · cases hs
      exact .ungreeted hp
    · rename_i item hitem
      split at hs
      · cases hs
        exact .ungreeted hp
      · rename_i channel hsend
        cases hs
        obtain ⟨halive, hroom, rfl⟩ := trySend_eq_some hsend
        rw [State.setConn_setConn]
        exact .greeted hp hitem halive hroom

theorem logged_of_reading (hp : (s.conns c).phase = .reading) (message : Option WsMessage)
    (limiter : Option RateLimiterState) :
    { s.logged c message with limiter := limiter } =
      { s with limiter := limiter }.setConn c { s.conns c with
        phase := .reading
        inbox := (s.conns c).inbox ++ message.toList } := by
  simp [State.logged, State.setConn, ← hp]

theorem move_startQueue (hp : (s.conns c).phase = .reading) {codec : FrameCodec}
    (hc : (s.conns c).codec = some codec) {message : WsMessage} {packet : PacketEnvelope} {now : ℕ}
    (h : Refusal setup s.limiter c (s.conns c).peer codec now message packet)
    (limiter : Option RateLimiterState) (random : Except String Nonce) :
    Move setup s (.conn c (.received (some message) now random))
      (startQueue setup { s.logged c (some message) with limiter := limiter } c random packet) := by
  unfold startQueue
  split
  · rename_i hnone
    have hno : Unqueueable setup s c random packet := .inl hnone
    rw [logged_setPhase]
    exact .read hp hc (.dropped h hno)
  · rename_i entry hentry
    have hin : (s.clients c).isSome = true := Option.isSome_iff_exists.mpr ⟨entry, hentry⟩
    split
    · rw [logged_setPhase]
      exact .read hp hc (.refused h hin ‹_›)
    · rw [logged_setPhase]
      exact .read hp hc (.dropped h (.inr ⟨_, ‹_›⟩))

theorem move_readBinary (hp : (s.conns c).phase = .reading) {codec : FrameCodec}
    (hc : (s.conns c).codec = some codec) (bytes : Bytes) (now : ℕ) (random : Except String Nonce) :
    Move setup s (.conn c (.received (some (.binary bytes)) now random))
      (readBinary setup (s.logged c (some (.binary bytes))) c codec bytes now random) := by
  have hpeer : ((s.logged c (some (.binary bytes))).conns c).peer = (s.conns c).peer := by
    simp [State.logged]
  unfold readBinary
  split
  · exact move_startQueue hp hc (.header ‹_›) _ _
  · rename_i hfast
    split
    · exact .hungUp hp hc (.undecodable hfast ‹_›)
    · rename_i hpanic
      have hphase := logged_setPhase s c (some (.binary bytes)) s.limiter .ended
      change (s.logged c (some (.binary bytes))).setPhase c .ended = _ at hphase
      rw [hphase]
      exact .read hp hc (.unwound ⟨hfast, .inl hpanic⟩)
    · rename_i p hd
      have hlimiter : (s.logged c (some (.binary bytes))).limiter = s.limiter := rfl
      rw [hpeer, hlimiter]
      have hintake : intakeOf setup s.limiter c (s.conns c).peer now bytes p.body =
          (setup.server.intake s.limiter setup.clock now c (s.conns c).peer.ip
            (UInt64.ofNat bytes.length) p.body).1 := rfl
      generalize hin : setup.server.intake s.limiter setup.clock now c (s.conns c).peer.ip
        (UInt64.ofNat bytes.length) p.body = verdict at hintake ⊢
      obtain ⟨intake, limiter⟩ := verdict
      cases intake with
      | answer packet => exact move_startQueue hp hc (.limited hfast hd hintake) limiter _
      | spawn =>
        dsimp only
        rw [logged_setPhase]
        exact .read hp hc (.data hfast hd hintake)
      | inline =>
        dsimp only
        rw [logged_of_reading hp]
        exact .read hp hc (.inline hfast hd hintake)
      | unwind =>
        dsimp only
        rw [logged_setPhase]
        exact .read hp hc (.unwound ⟨hfast, .inr ⟨p, hd, by rw [hin]⟩⟩)

theorem move_received {message : Option WsMessage} {now : ℕ} {random : Except String Nonce}
    (hp : (s.conns c).phase = .reading)
    (hs : stepConn setup s c (.received message now random) .reading = some s') :
    Move setup s (.conn c (.received message now random)) s' := by
  unfold stepConn at hs
  dsimp only at hs
  obtain ⟨codec, hc, rfl⟩ := Option.map_eq_some_iff.mp hs
  have hphase : ∀ phase, (s.logged c message).setPhase c phase =
      { s with limiter := s.limiter }.setConn c { s.conns c with
        phase := phase
        inbox := (s.conns c).inbox ++ message.toList } :=
    logged_setPhase s c message s.limiter
  have hstay : ∀ message : WsMessage, message.Ignored →
      Move setup s (.conn c (.received (some message) now random)) (s.logged c (some message)) := by
    intro message hignored
    have hlogged := logged_of_reading hp (some message) s.limiter
    change s.logged c _ = _ at hlogged
    rw [hlogged]
    exact .read hp hc (.ignored hignored)
  cases message with
  | none => exact .hungUp hp hc .ended
  | some message =>
    cases message with
    | binary bytes => exact move_readBinary hp hc bytes now random
    | close => exact .hungUp hp hc .closed
    | ping payload =>
      rw [readMessage, hphase]
      exact .read hp hc (.ping payload)
    | text | pong | frame => exact hstay _ trivial

/-- The reader queues what it holds. -/
theorem move_queueing {item : ServerOutbound} (hp : (s.conns c).phase = .queueing item)
    (hs : stepConn setup s c .queued (.queueing item) = some s') :
    Move setup s (.conn c .queued) s' := by
  unfold stepConn at hs
  dsimp only at hs
  split at hs
  · split at hs <;> cases hs
    exact .queued (by rw [hp]; rfl) ‹_› ‹_›
  · rename_i hdead
    cases hs
    exact .unqueued hp (Bool.eq_false_iff.mpr hdead)

theorem move_ponging {payload : Bytes} (hp : (s.conns c).phase = .ponging payload)
    (hs : stepConn setup s c .queued (.ponging payload) = some s') :
    Move setup s (.conn c .queued) s' := by
  unfold stepConn at hs
  dsimp only at hs
  split at hs
  · split at hs <;> cases hs
    exact .queued (by rw [hp]; rfl) ‹_› ‹_›
  · rename_i hdead
    cases hs
    exact .unponged hp (Bool.eq_false_iff.mpr hdead)

theorem move_acquiring {t : ℕ} {body : PacketBody} (hp : (s.conns c).phase = .acquiring body)
    (hs : stepConn setup s c (.acquired t) (.acquiring body) = some s') :
    Move setup s (.conn c (.acquired t)) s' := by
  unfold stepConn at hs
  dsimp only at hs
  split at hs
  · split at hs <;> cases hs
    exact .acquired hp ‹_› ‹_›
  · cases hs

theorem move_stepConn {op : ConnOp W} (hs : stepConn setup s c op (s.conns c).phase = some s') :
    Move setup s (.conn c op) s' := by
  generalize hp : (s.conns c).phase = p at hs
  cases op with
  | accept peer now =>
    cases p with
    | absent => exact move_accept hp hs
    | _ => cases hs
  | upgraded ok secret w =>
    cases p with
    | upgrading => exact move_upgraded hp hs
    | _ => cases hs
  | received message now random =>
    cases p with
    | keyReading secret => exact move_clientKey hp hs
    | authReading => exact move_authFrame hp hs
    | reading => exact move_received hp hs
    | _ => cases hs
  | sent ok w =>
    cases p with
    | keySending secret clientPublic => exact move_serverKey hp hs
    | authReplying result bytes => exact move_authResponse hp hs
    | _ => cases hs
  | authReturned w random =>
    cases p with
    | authHandling credential => exact move_authReturned hp hs
    | _ => cases hs
  | notified random =>
    cases p with
    | notifying => exact move_greeting hp hs
    | _ => cases hs
  | queued =>
    cases p with
    | queueing item => exact move_queueing hp hs
    | ponging payload => exact move_ponging hp hs
    | _ => cases hs
  | acquired t =>
    cases p with
    | acquiring body => exact move_acquiring hp hs
    | _ => cases hs
  | graceOver =>
    cases p with
    | closing =>
      cases hs
      exact .graceOver hp
    | _ => cases hs

theorem move_stepWriter {op : WriterOp} (hs : stepWriter setup s c op = some s') :
    Move setup s (.writer c op) s' := by
  unfold stepWriter at hs
  dsimp only at hs
  split at hs
  · rename_i hw
    split at hs
    · rename_i sendOk
      cases sendOk <;> cases hs
      · exact .stopped hw rfl
      · exact .ticked hw
    · rename_i random sendOk
      split at hs
      · rename_i item rest codec hq hc
        split at hs <;> cases hs
        · rename_i hok
          subst hok
          exact .wrote hw hq hc rfl
        · rename_i hok
          exact .stopped hw (Bool.eq_false_iff.mpr hok)
      · cases hs
  · cases hs

theorem move_stepTask {t : ℕ} {op : TaskOp W}
    (hs : stepTask setup s t (s.tasks t) op (s.tasks t).pc = some s') :
    Move setup s (.task t op) s' := by
  generalize hpc : (s.tasks t).pc = pc at hs
  unfold stepTask at hs
  split at hs
  · -- `process_packet`
    dsimp only at hs
    split at hs <;> cases hs
    · exact .ran hpc ‹_›
    · rename_i hnone
      exact .finished (.silent hpc hnone)
  · -- `queue_for`
    rename_i random packet
    split at hs
    · rename_i hnone
      cases hs
      have hno : Unqueueable setup s (s.tasks t).connectionId random packet := .inl hnone
      exact .finished (.dropped hpc hno)
    · rename_i entry hentry
      have hin : (s.clients (s.tasks t).connectionId).isSome = true :=
        Option.isSome_iff_exists.mpr ⟨entry, hentry⟩
      split at hs <;> cases hs
      · exact .encoded hpc hin ‹_›
      · exact .finished (.dropped hpc (.inr ⟨_, ‹_›⟩))
  · -- the send
    dsimp only at hs
    split at hs
    · split at hs <;> cases hs
      exact .answered hpc ‹_› ‹_›
    · rename_i hdead
      cases hs
      exact .finished (.unsent hpc (Bool.eq_false_iff.mpr hdead))
  · cases hs

theorem move_tryDeliver (k : ℕ) (op : PushOp) {item : ServerOutbound}
    (hitem : s.pushes k = some item ∨ PushedBy setup op.handle? item) (n : UInt64) :
    Move setup s (.push k op) (tryDeliver { s with nextEventId := n } c item) := by
  have haside : Move setup s (.push k op) { s with nextEventId := n } :=
    .aside trivial fun _ _ h => .inl h
  unfold tryDeliver
  split
  · exact haside
  · rename_i entry hentry
    have hin : (s.clients c).isSome = true := by
      rw [show s.clients c = some entry from hentry]
      rfl
    dsimp only
    split
    · rename_i channel hsend
      obtain ⟨halive, hroom, rfl⟩ := trySend_eq_some hsend
      exact .delivered hitem hin halive hroom
    · exact haside

theorem move_stepPush {k : ℕ} {op : PushOp} (hs : stepPush setup s k op (s.pushes k) = some s') :
    Move setup s (.push k op) s' := by
  generalize hk : s.pushes k = pending at hs
  unfold stepPush at hs
  split at hs
  · rename_i h e random
    split at hs
    · rename_i hmem
      dsimp only at hs
      split at hs <;> cases hs
      · rename_i item hitem
        refine .aside trivial fun j item' hj => ?_
        by_cases hjk : j = k
        · subst hjk
          rw [Function.update_self] at hj
          cases hj
          exact .inr ⟨h, rfl, hmem, e, _, random, hitem⟩
        · rw [Function.update_of_ne hjk] at hj
          exact .inl hj
      · exact .aside trivial fun _ _ h => .inl h
    · cases hs
  · cases hs
    exact move_tryDeliver k _ (.inl hk) s.nextEventId
  · cases hs
    refine .aside trivial fun j item' hj => ?_
    by_cases hjk : j = k
    · subst hjk
      simp at hj
    · rw [Function.update_of_ne hjk] at hj
      exact .inl hj
  · split at hs
    · rename_i h d e random hmem
      dsimp only at hs
      split at hs <;> cases hs
      · exact move_tryDeliver k _ (.inr ⟨h, rfl, hmem, e, _, random, ‹_›⟩) _
      · exact .aside trivial fun _ _ h => .inl h
    · cases hs
  · cases hs

theorem move_of_step {a : Action W} (hs : step setup a s = some s') : Move setup s a s' := by
  cases a with
  | conn c op => exact move_stepConn hs
  | writer c op => exact move_stepWriter hs
  | task t op => exact move_stepTask hs
  | push k op => exact move_stepPush hs
  | cleanup now =>
    cases hs
    exact .aside trivial fun _ _ h => .inl h

end Inversion

/-! ### What moves say about items and tasks -/

section Facts

variable {W : Type} {setup : Setup W} {s : State} {c : String}

theorem PushedBy.eventItem {handle? : Option ServerHandle} {item : ServerOutbound}
    (h : PushedBy setup handle? item) : EventItem setup item := by
  obtain ⟨handle, -, hmem, hitem⟩ := h
  exact ⟨handle, hmem, hitem⟩

theorem Reads.ne_absent {codec : FrameCodec} {now : ℕ} {random : Except String Nonce}
    {message : Option WsMessage} {phase : Phase}
    (h : Reads setup s c codec now random message phase) : phase ≠ .absent := by
  cases h <;> simp

theorem Finishes.running {t : ℕ} {op : TaskOp W} {calls : List (String × Invocation)}
    (h : Finishes setup s t op calls) : (s.tasks t).pc.Running := by
  cases h with
  | silent ht | dropped ht | unsent ht =>
    rw [ht]
    trivial

theorem isDataMessage_of_spawn {limiter : Option RateLimiterState} {peer : SocketAddr} {now : ℕ}
    {bytes : Bytes} {body : PacketBody} (h : intakeOf setup limiter c peer now bytes body = .spawn) :
    WscallServer.isDataMessage body = true := by
  unfold intakeOf WscallServer.intake at h
  split at h
  · assumption
  · cases h

end Facts

end Wscall.Server
