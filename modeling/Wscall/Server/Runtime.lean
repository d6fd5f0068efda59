import Wscall.Server.Dispatch
import Wscall.Server.Outbound

/-!
# A running server (`server_runtime.rs:622-1156`)

A task for each connection, its writer, the tasks spawned for its packets, and user code
that pushes events through handles share the table of live clients. A step is what one of
them does between two awaits. What the network, the clocks, the random source and the
user's callbacks contribute is part of the action. Ghost fields keep the messages read
since the key exchange, what the auth handler returned, and the calls of other callbacks.
-/

namespace Wscall.Server
open RustStd Protocol

inductive WsMessage where
  | binary (bytes : Bytes)
  | text
  | ping (payload : Bytes)
  | pong
  | close
  | frame

/-- X25519 and the session key derivation. -/
structure Ecdh where
  publicBytes : Key → Key
  deriveSessionKey : Key → Key → Key

def parsePeerPublic (bytes : Bytes) : Checked ProtocolError Key :=
  if h : bytes.length = 32 then .ok ⟨bytes.toArray, by simpa using h⟩
  else fail (.invalidEcdhPublicKey 32 bytes.length)

/-- A listening server, the libraries under it, and the handles user code took. -/
structure Setup (W : Type) where
  libs : Libs
  ecdh : Ecdh
  clock : Clock
  server : WscallServer W
  handles : List ServerHandle

structure ClientEntry where
  authContext : Option Map

inductive Phase where
  | absent
  | upgrading
  | keyReading (secret : Key)
  | keySending (secret clientPublic : Key)
  | authReading
  | authHandling (credential : String)
  | authReplying (result : Except ApiError AuthOutput) (bytes : Bytes)
  | notifying
  | reading
  | queueing (item : ServerOutbound)
  | acquiring (body : PacketBody)
  | ponging (payload : Bytes)
  | closing
  | ended

structure Channel where
  queue : List ServerOutbound
  /-- The receiver has not been dropped. -/
  alive : Bool
  writing : Bool

def Channel.capacity : ℕ := 256

def Channel.push (ch : Channel) (item : ServerOutbound) : Channel :=
  { ch with queue := ch.queue ++ [item] }

def Channel.hasRoom (ch : Channel) : Bool := ch.queue.length < capacity

/-- `try_send`; `none` when the queue is full or closed. -/
def Channel.trySend (ch : Channel) (item : ServerOutbound) : Option Channel :=
  if ch.alive && ch.hasRoom then some (ch.push item) else none

structure Conn where
  peer : SocketAddr
  phase : Phase
  /-- The session codec, from the key exchange on. -/
  codec : Option FrameCodec
  channel : Channel
  /-- Running handler tasks. -/
  inFlight : ℕ
  sent : List WireMessage
  inbox : List WsMessage
  authCalls : List (String × Callback (Except ApiError AuthOutput))

def Conn.new (peer : SocketAddr) (phase : Phase) : Conn :=
  ⟨peer, phase, none, ⟨[], false, false⟩, 0, [], [], []⟩

inductive TaskPc where
  | absent
  | spawned
  | answering (packet : PacketEnvelope)
  | sending (item : ServerOutbound)
  | finished

structure HandlerTask where
  connectionId : String
  body : PacketBody
  pc : TaskPc

structure State where
  clients : String → Option ClientEntry
  conns : String → Conn
  tasks : ℕ → HandlerTask
  /-- Broadcasts under way, with the item they hand out. -/
  pushes : ℕ → Option ServerOutbound
  nextEventId : UInt64
  limiter : Option RateLimiterState
  /-- Calls of `on_connected` handlers. -/
  connected : List ServerConnectionContext
  /-- Calls of other callbacks, with the connection whose packet they were made for. -/
  calls : List (String × Invocation)

def State.init {W : Type} (setup : Setup W) : State where
  clients _ := none
  conns _ := Conn.new ⟨.v4 0, 0⟩ .absent
  tasks _ := ⟨"", .authRequest "", .absent⟩
  pushes _ := none
  nextEventId := 0
  limiter := setup.server.rateLimiter.map RateLimiter.build
  connected := []
  calls := []

def State.setConn (s : State) (c : String) (conn : Conn) : State :=
  { s with conns := Function.update s.conns c conn }

def State.setPhase (s : State) (c : String) (phase : Phase) : State :=
  s.setConn c { s.conns c with phase := phase }

@[simp] theorem State.setConn_self (s : State) (c : String) (conn : Conn) :
    (s.setConn c conn).conns c = conn := Function.update_self ..

theorem State.setConn_of_ne (s : State) {c d : String} (h : d ≠ c) (conn : Conn) :
    (s.setConn c conn).conns d = s.conns d := Function.update_of_ne h ..

@[simp] theorem State.setConn_setConn (s : State) (c : String) (conn conn' : Conn) :
    (s.setConn c conn).setConn c conn' = s.setConn c conn' := by
  simp [State.setConn]

def State.setTask (s : State) (t : ℕ) (task : HandlerTask) : State :=
  { s with tasks := Function.update s.tasks t task }

/-! ### The connection's task -/

/-- The header checks before `decode`, with the code and text of the 413. -/
def fastReject (maxFrameBytes : ℕ) (bytes : Bytes) : Option (String × String) :=
  match bytes with
  | a :: b :: c :: d :: _ :: _ =>
    let declared := (fromBeBytes a b c d).toNat
    let size := bytes.length
    let actual := size - 4
    if declared > maxFrameBytes ∨ declared ≠ actual then
      some ("frame_too_large", s!"declared frame_len {declared} is invalid (actual payload {actual}, limit {maxFrameBytes})")
    else if size > maxFrameBytes then
      some ("frame_too_large", s!"frame size {size} exceeds limit {maxFrameBytes}")
    else none
  | _ => some ("frame_too_short", "frame must be at least 5 bytes")

def authResponse (codec : FrameCodec) (result : Except ApiError AuthOutput) : PacketEnvelope :=
  match result with
  | .ok output =>
    let secs := output.sessionTimeout.map fun d => UInt64.ofNat (d / 10 ^ 9)
    .withEncryption (.authResponse true secs none) codec.wireEncryption
  | .error e => .withEncryption (.authResponse false none (some e.intoPayload)) codec.wireEncryption

/-- The loop of `notify_connected` and `notify_disconnected`: all handlers are called before any
future is polled. A call is logged with the place of its handler. -/
def notifyFrom {W α : Type} (w : W) (ctx : α) : ℕ → List (W → α → Callback Unit) → Exec (ℕ × α) Unit
  | _, [] => pure ()
  | i, handler :: handlers => do
    let _ ← Exec.catchUnwind (i, ctx) (handler w ctx)
    notifyFrom w ctx (i + 1) handlers

def notifyConnected {W : Type} (w : W) (ctx : ServerConnectionContext)
    (handlers : List (ConnectionHandler W)) : Exec (ℕ × ServerConnectionContext) Unit :=
  notifyFrom w ctx 0 handlers

/-- The greeting every connection gets. -/
def systemNotice (connectionId : String) : ServerEvent where
  name := "system.notice"
  data := (Value.ofTree (.object [("message", .string "connected"),
    ("connection_id", .string connectionId)])).asObject.getD .empty
  attachments := []

section Steps

variable {W : Type} (setup : Setup W) (s : State) (c : String)

/-- An empty context counts as no context. -/
def storedContext (output : Option AuthOutput) : Option Map :=
  output.bind fun o => if o.context.isEmpty then none else some o.context

/-- What the `on_connected` handlers see. -/
def connectedContext (output : Option AuthOutput) : ServerConnectionContext :=
  ⟨c, some (s.conns c).peer, setup.server.handle, (storedContext output).isSome,
    storedContext output⟩

/-- After the handshake: the table entry, then the `on_connected` handlers. One that panics
in the call takes the task down and leaves the entry. -/
def enter (w : W) (output : Option AuthOutput) : State :=
  let conn := s.conns c
  let run := notifyConnected w (connectedContext setup s c output) setup.server.connectionHandlers
  let entered := { conn with
    phase := if run.result.isSome then .notifying else .ended
    channel := ⟨[], run.result.isSome, false⟩ }
  { s.setConn c entered with
    clients := Function.update s.clients c (some ⟨storedContext output⟩)
    connected := s.connected ++ run.calls.map Prod.snd }

/-- The session codec is there: the auth phase, if a handler is configured. -/
def afterKeyExchange (w : W) (codec : FrameCodec) : State :=
  let s := s.setConn c { s.conns c with codec := some codec, phase := .authReading }
  match setup.server.authHandler with
  | some _ => s
  | none => enter setup s c w none

/-- Out of the table; the close item is dropped when there is no room. -/
def teardown : State :=
  let conn := s.conns c
  let closing := { conn with
    phase := .closing
    channel := (conn.channel.trySend .close).getD conn.channel }
  { s.setConn c closing with clients := Function.update s.clients c none }

/-- `let _ = self.queue_for(..).await` up to the await. -/
def startQueue (random : Except String Nonce) (packet : PacketEnvelope) : State :=
  match s.clients c with
  | none => s.setPhase c .reading
  | some _ =>
    match setup.server.handle.outbound setup.libs random packet with
    | .ok item => s.setPhase c (.queueing item)
    | .error _ => s.setPhase c .reading

/-- A binary message in the reader loop. A decode that panics takes the task down. -/
def readBinary (codec : FrameCodec) (bytes : Bytes) (now : ℕ) (random : Except String Nonce) :
    State :=
  match fastReject setup.server.maxFrameBytes bytes with
  | some (code, message) =>
    startQueue setup s c random (frameErrorPacket 0 code message setup.server.defaultEncryption)
  | none =>
    match codec.decode setup.libs bytes with
    | .error (.err _) => teardown s c
    | .error .panic => s.setPhase c .ended
    | .ok packet =>
      let (intake, limiter) := setup.server.intake s.limiter setup.clock now c (s.conns c).peer.ip
        (UInt64.ofNat bytes.length) packet.body
      let s := { s with limiter := limiter }
      match intake with
      | .answer packet => startQueue setup s c random packet
      | .spawn => s.setPhase c (.acquiring packet.body)
      | .inline => s
      | .unwind => s.setPhase c .ended

/-- What the reader loop does with what the stream yields; `none` stands for the timeout,
the end of the stream and its errors. -/
def readMessage (codec : FrameCodec) (message : Option WsMessage) (now : ℕ)
    (random : Except String Nonce) : State :=
  match message with
  | none => teardown s c
  | some (.binary bytes) => readBinary setup s c codec bytes now random
  | some .close => teardown s c
  | some (.ping payload) => s.setPhase c (.ponging payload)
  | some _ => s

/-- A message of the auth phase. -/
def readAuth (codec : FrameCodec) (message : Option WsMessage) : State :=
  match message with
  | some (.binary bytes) =>
    match codec.decode setup.libs bytes with
    | .ok ⟨_, _, .authRequest credential⟩ => s.setPhase c (.authHandling credential)
    | _ => s.setPhase c .ended
  | _ => s.setPhase c .ended

def State.logged (message : Option WsMessage) : State :=
  s.setConn c { s.conns c with inbox := (s.conns c).inbox ++ message.toList }

def State.pushWire (message : WireMessage) : State :=
  s.setConn c { s.conns c with sent := (s.conns c).sent ++ [message] }

end Steps

inductive ConnOp (W : Type) where
  | accept (peer : SocketAddr) (now : ℕ)
  | upgraded (ok : Bool) (secret : Except String Key) (w : W)
  | received (message : Option WsMessage) (now : ℕ) (random : Except String Nonce)
  | sent (ok : Bool) (w : W)
  | authReturned (w : W) (random : Except String Nonce)
  | notified (random : Except String Nonce)
  | queued
  | acquired (task : ℕ)
  | graceOver

/-- `serve_connection`. -/
def stepConn {W : Type} (setup : Setup W) (s : State) (c : String) : ConnOp W → Phase → Option State
  | .accept peer now, .absent =>
    match s.limiter with
    | none => some (s.setConn c (Conn.new peer .upgrading))
    | some rl =>
      let (banned, rl) := rl.isIpBanned now peer.ip
      some ({ s with limiter := some rl }.setConn c
        (Conn.new peer (if banned then .ended else .upgrading)))
  | .upgraded ok secret w, .upgrading =>
    if ok then
      if setup.server.isEcdh then
        match secret with
        | .ok secret => some (s.setPhase c (.keyReading secret))
        | .error _ => some (s.setPhase c .ended)
      else
        some (afterKeyExchange setup s c w
          (setup.server.codec.withMaxFrameBytes setup.server.maxFrameBytes))
    else some (s.setPhase c .ended)
  | .received message _ _, .keyReading secret =>
    match message with
    | some (.binary bytes) =>
      match parsePeerPublic bytes with
      | .ok clientPublic => some (s.setPhase c (.keySending secret clientPublic))
      | .error _ => some (s.setPhase c .ended)
    | _ => some (s.setPhase c .ended)
  | .sent ok w, .keySending secret clientPublic =>
    if ok then
      let key := setup.ecdh.deriveSessionKey secret clientPublic
      some (afterKeyExchange setup (s.pushWire c (.publicKey (setup.ecdh.publicBytes secret))) c w
        ((FrameCodec.plaintext.withChacha20Key key).withMaxFrameBytes setup.server.maxFrameBytes))
    else some (s.setPhase c .ended)
  | .received message _ _, .authReading =>
    (s.conns c).codec.map fun codec => readAuth setup (s.logged c message) c codec message
  | .authReturned w random, .authHandling credential =>
    match setup.server.authHandler, (s.conns c).codec with
    | some handler, some codec =>
      let conn := s.conns c
      let outcome := handler w ⟨credential, some conn.peer, c⟩
      let s := s.setConn c { conn with authCalls := conn.authCalls ++ [(credential, outcome)] }
      match outcome with
      | .returns result =>
        match codec.encode setup.libs random (authResponse codec result) with
        | .ok bytes => some (s.setPhase c (.authReplying result bytes))
        | .error _ => some (s.setPhase c .ended)
      | _ => some (s.setPhase c .ended)
    | _, _ => none
  | .sent ok w, .authReplying result bytes =>
    if ok then
      let s := s.pushWire c (.authResponse bytes)
      match result with
      | .ok output => some (enter setup s c w (some output))
      | .error _ => some (s.setPhase c .ended)
    else some (s.setPhase c .ended)
  -- the writer is spawned, then the reader greets
  | .notified random, .notifying =>
    let conn := s.conns c
    let eventId := s.nextEventId + 1
    let channel := { conn.channel with writing := true }
    let s := { s with nextEventId := eventId }.setConn c { conn with channel := channel }
    match s.clients c with
    | none => some (teardown s c)
    | some _ =>
      match setup.server.handle.outbound setup.libs random
          (setup.server.handle.eventPacket eventId (systemNotice c)) with
      | .error _ => some (teardown s c)
      | .ok item =>
        match channel.trySend item with
        | none => some (teardown s c)
        | some channel => some (s.setConn c { conn with channel := channel, phase := .reading })
  | .received message now random, .reading =>
    (s.conns c).codec.map fun codec =>
      readMessage setup (s.logged c message) c codec message now random
  | .queued, .queueing item =>
    let conn := s.conns c
    if conn.channel.alive then
      if conn.channel.hasRoom then
        some (s.setConn c { conn with channel := conn.channel.push item, phase := .reading })
      else none
    else some (s.setPhase c .reading)
  | .queued, .ponging payload =>
    let conn := s.conns c
    if conn.channel.alive then
      if conn.channel.hasRoom then
        some (s.setConn c { conn with channel := conn.channel.push (.pong payload), phase := .reading })
      else none
    else some (teardown s c)
  | .acquired t, .acquiring body =>
    let conn := s.conns c
    match (s.tasks t).pc with
    | .absent =>
      if conn.inFlight < setup.server.maxInFlight then
        some ((s.setTask t ⟨c, body, .spawned⟩).setConn c
          { conn with inFlight := conn.inFlight + 1, phase := .reading })
      else none
    | _ => none
  -- `writer.abort()`
  | .graceOver, .closing =>
    some (s.setConn c { s.conns c with channel := ⟨[], false, false⟩, phase := .ended })
  | _, _ => none

/-! ### The other tasks -/

inductive WriterOp where
  | next (random : Except String Nonce) (sendOk : Bool)
  | tick (sendOk : Bool)

/-- The writer task; it takes its receiver with it when it ends. -/
def stepWriter {W : Type} (setup : Setup W) (s : State) (c : String) (op : WriterOp) : Option State :=
  let conn := s.conns c
  let stopped := s.setConn c { conn with channel := ⟨[], false, false⟩ }
  if conn.channel.writing then
    match op with
    | .tick sendOk => some (if sendOk then s.pushWire c .ping else stopped)
    | .next random sendOk =>
      match conn.channel.queue, conn.codec with
      | item :: rest, some codec =>
        let (message, goesOn) := writeItem setup.libs codec random item
        if sendOk then
          some (s.setConn c { conn with
            sent := conn.sent ++ message.toList
            channel := if goesOn then { conn.channel with queue := rest } else ⟨[], false, false⟩ })
        else some stopped
      | _, _ => none
  else none

inductive TaskOp (W : Type) where
  | run (w : W)
  | queue (random : Except String Nonce)
  | send

def lookupAuthContext (s : State) (c : String) : Option Map := (s.clients c).bind (·.authContext)

/-- A task's `process_packet`, with the context looked up when it starts. -/
def execTask {W : Type} (setup : Setup W) (s : State) (task : HandlerTask) (w : W) :
    Exec Invocation (Option PacketEnvelope) :=
  let c := task.connectionId
  setup.server.processPacket w c (some (s.conns c).peer) (lookupAuthContext s c) task.body

def finishTask (s : State) (t : ℕ) (task : HandlerTask) : State :=
  let conn := s.conns task.connectionId
  (s.setTask t { task with pc := .finished }).setConn task.connectionId
    { conn with inFlight := conn.inFlight - 1 }

/-- A spawned task. From the lookup on it only holds the context it found, so its callbacks
are one step. -/
def stepTask {W : Type} (setup : Setup W) (s : State) (t : ℕ) (task : HandlerTask) :
    TaskOp W → TaskPc → Option State
  | .run w, .spawned =>
    let exec := execTask setup s task w
    let s := { s with calls := s.calls ++ exec.calls.map (task.connectionId, ·) }
    match exec.result with
    | some (some packet) => some (s.setTask t { task with pc := .answering packet })
    | _ => some (finishTask s t task)
  | .queue random, .answering packet =>
    match s.clients task.connectionId with
    | none => some (finishTask s t task)
    | some _ =>
      match setup.server.handle.outbound setup.libs random packet with
      | .ok item => some (s.setTask t { task with pc := .sending item })
      | .error _ => some (finishTask s t task)
  | .send, .sending item =>
    let c := task.connectionId
    let conn := s.conns c
    if conn.channel.alive then
      if conn.channel.hasRoom then
        some (finishTask (s.setConn c { conn with channel := conn.channel.push item }) t task)
      else none
    else some (finishTask s t task)
  | _, _ => none

inductive PushOp where
  | broadcast (h : ServerHandle) (e : ServerEvent) (random : Except String Nonce)
  /-- The loop over the table reaches the entry of a connection. -/
  | deliver (c : String)
  | done
  | sendEventTo (h : ServerHandle) (c : String) (e : ServerEvent) (random : Except String Nonce)

def PushOp.handle? : PushOp → Option ServerHandle
  | .broadcast h _ _ => some h
  | .sendEventTo h _ _ _ => some h
  | _ => none

def tryDeliver (s : State) (c : String) (item : ServerOutbound) : State :=
  match s.clients c with
  | none => s
  | some _ =>
    let conn := s.conns c
    match conn.channel.trySend item with
    | some channel => s.setConn c { conn with channel := channel }
    | none => s

/-- User code with a handle: one it took, or one a context gave it. -/
def stepPush {W : Type} (setup : Setup W) (s : State) (k : ℕ) :
    PushOp → Option ServerOutbound → Option State
  | .broadcast h e random, none =>
    if h ∈ setup.server.handle :: setup.handles then
      let eventId := s.nextEventId + 1
      let s := { s with nextEventId := eventId }
      match h.outbound setup.libs random (h.eventPacket eventId e) with
      | .ok item => some { s with pushes := Function.update s.pushes k (some item) }
      | .error _ => some s
    else none
  | .deliver c, some item => some (tryDeliver s c item)
  | .done, some _ => some { s with pushes := Function.update s.pushes k none }
  | .sendEventTo h c e random, none =>
    if h ∈ setup.server.handle :: setup.handles then
      let eventId := s.nextEventId + 1
      let s := { s with nextEventId := eventId }
      match h.outbound setup.libs random (h.eventPacket eventId e) with
      | .ok item => some (tryDeliver s c item)
      | .error _ => some s
    else none
  | _, _ => none

inductive Action (W : Type) where
  | conn (c : String) (op : ConnOp W)
  | writer (c : String) (op : WriterOp)
  | task (t : ℕ) (op : TaskOp W)
  | push (k : ℕ) (op : PushOp)
  | cleanup (now : ℕ)

def Action.handle? {W : Type} : Action W → Option ServerHandle
  | .push _ op => op.handle?
  | _ => none

def step {W : Type} (setup : Setup W) : Action W → State → Option State
  | .conn c op, s => stepConn setup s c op (s.conns c).phase
  | .writer c op, s => stepWriter setup s c op
  | .task t op, s => stepTask setup s t (s.tasks t) op (s.tasks t).pc
  | .push k op, s => stepPush setup s k op (s.pushes k)
  | .cleanup now, s =>
    some { s with limiter := s.limiter.bind fun rl => (rl.cleanup now).orElse fun _ => some rl }

end Wscall.Server
