import Wscall.Client.Opening
import Wscall.Server.Delivery
import Wscall.Server.FrameLimit
import Wscall.Server.Opening
import Wscall.Session.Wire

/-!
# A client and its server

The machine of a client and the machine of a server, with the sockets between them: what the
client gives a socket the server takes out of it in order, and the other way round. The messages of
the key exchange and of the auth phase go the same way as the frames. The server has other clients as
well, and the two ends otherwise move as they like.
-/

namespace Wscall.Session
open RustStd Protocol Client

/-- A client's configuration, a server, and which connections of the server are the client's. -/
structure Link (W : Type) where
  useEcdh : Bool
  credential : Option String
  autoReconnect : Bool
  failovers : ℕ
  codec : FrameCodec
  defaultEncryption : EncryptionKind
  setup : Server.Setup W
  generation : String → Option ℕ
  injective : ∀ c d g, generation c = some g → generation d = some g → c = d
  /-- The client's keypair for each connection. -/
  secret : ℕ → Key
  /-- What the random source gives for the auth request of a connection. -/
  nonce : ℕ → Except String Nonce

structure State where
  client : Traffic.State
  journal : Traffic.Journal
  server : Server.State
  /-- The session keys the client has derived. -/
  keys : ℕ → Option Key
  /-- What the client's supervisor has sent on a connection: its key, its auth request. -/
  opening : ℕ → List Bytes
  /-- How many of the client's messages the server has taken. -/
  read : ℕ → ℕ
  /-- How many of the server's messages the client has taken. -/
  fetched : ℕ → ℕ
  /-- How many of those were for the supervisor. -/
  greeted : ℕ → ℕ

inductive Action (W : Type) where
  | client (a : Traffic.Action)
  /-- The client's supervisor sends its key. -/
  | offer
  /-- The client's supervisor sends its auth request. -/
  | present
  | server (a : Server.Action W)
  /-- The server's end of a connection takes the client's next message. -/
  | uplink (c : String) (now : ℕ) (random : Except String Nonce)
  /-- The client's end of a connection takes the server's next message. -/
  | downlink (c : String) (task : ℕ)

def messageBytes : Server.WsMessage → Option Bytes
  | .binary bytes => some bytes
  | _ => none

/-- What a message of the server is to the client. -/
def binary : Server.WireMessage → Option Bytes
  | .publicKey key => some key.toList
  | .authResponse bytes | .frame bytes => some bytes
  | _ => none

def supervisor (op : Lifecycle.SupervisorOp) : Traffic.Action := .lifecycle (.supervisor op) ""

/-- The client takes a message out of a socket, or its supervisor gives it one. -/
def viaSocket : Traffic.Action → Bool
  | .lifecycle (.supervisor op) _ =>
    match op with
    | .ecdhSent ok | .authSent ok => ok
    | .ecdhReceived message => message.isSome
    | .authReceived reply => reply.isSome
    | _ => false
  | .reader _ (.packet _ _) => true
  | _ => false

section Machine

variable {W : Type} (L : Link W) (s : State)

/-- The client with the session keys it has. No task that uses the key of a connection is there before
the key is. -/
def Link.config (keys : ℕ → Option Key) : Traffic.Config where
  lifecycle := ⟨L.useEcdh, L.credential.isSome, L.autoReconnect, L.failovers⟩
  libs := L.setup.libs
  codec := L.codec
  defaultEncryption := L.defaultEncryption
  sessionKey g := (keys g).getD (Vector.replicate 32 0)

def Link.sessionCodec (keys : ℕ → Option Key) (g : ℕ) : FrameCodec := (L.config keys).sessionCodec g

def Link.publicKey (g : ℕ) : Key := L.setup.ecdh.publicBytes (L.secret g)

/-- The session key the client computes from the message it takes for the server's key
(`client_runtime.rs:553-566`). -/
def Link.derived (g : ℕ) (message : Server.WireMessage) : Option Key :=
  match binary message with
  | some bytes =>
    match Server.parsePeerPublic bytes with
    | .ok serverPublic => some (L.setup.ecdh.deriveSessionKey (L.secret g) serverPublic)
    | .error _ => none
  | none => none

/-- The frame of the client's auth phase (`client_runtime.rs:575-584`). -/
def Link.hello (keys : ℕ → Option Key) (g : ℕ) : Option Bytes :=
  match L.credential with
  | none => none
  | some credential =>
    match (L.sessionCodec keys g).encode L.setup.libs (L.nonce g) (.new (.authRequest credential)) with
    | .ok frame => some frame
    | .error _ => none

/-- The packet the client finds in a message, if there is one. -/
def Link.decoded (keys : ℕ → Option Key) (g : ℕ) (message : Server.WireMessage) : Option PacketBody :=
  match binary message with
  | some bytes =>
    match (L.sessionCodec keys g).decode L.setup.libs bytes with
    | .ok packet => some packet.body
    | .error _ => none
  | none => none

def State.init : State where
  client := Traffic.State.init
  journal := .init
  server := Server.State.init L.setup
  keys _ := none
  opening _ := []
  read _ := 0
  fetched _ := 0
  greeted _ := 0

/-- The binary messages on a connection of the client, in the order they go out. -/
def State.stream (g : ℕ) : List Bytes := s.opening g ++ (s.client.written g).map Prod.snd

def State.send (g : ℕ) (message : Bytes) : State :=
  { s with opening := Function.update s.opening g (s.opening g ++ [message]) }

def State.greet (g : ℕ) : State :=
  { s with greeted := Function.update s.greeted g (s.greeted g + 1) }

/-- Binary messages on a connection of the client come from the client. -/
def Link.admits : Server.Action W → Bool
  | .conn c (.received (some (.binary _)) _ _) => (L.generation c).isNone
  | _ => true

def State.moveClient (a : Traffic.Action) : Option State :=
  (Traffic.step (L.config s.keys) a s.client).map fun client =>
    { s with client := client, journal := s.journal.next s.client a }

def State.moveServer (a : Server.Action W) : Option State :=
  (Server.step L.setup a s.server).map fun server => { s with server := server }

/-- The supervisor takes the message while it opens the connection, later the reader. The reader skips
what is not binary and what does not decode. -/
def State.fetch (g task : ℕ) (message : Server.WireMessage) : Option State :=
  if s.client.client.phase = .ecdhReading g then
    (s.moveClient L (supervisor (.ecdhReceived (binary message)))).map fun s =>
      { s.greet g with keys := Function.update s.keys g (L.derived g message) }
  else if s.client.client.phase = .authReading g then
    (s.moveClient L (supervisor (.authReceived (L.decoded s.keys g message)))).map (·.greet g)
  else if s.client.client.tasks g .reader = .running then
    match L.decoded s.keys g message with
    | some body => s.moveClient L (.reader g (.packet body task))
    | none => some s
  else none

def step : Action W → State → Option State
  | .client a, s => if viaSocket a then none else s.moveClient L a
  | .offer, s =>
    match s.client.client.phase with
    | .ecdhSending g =>
      (s.moveClient L (supervisor (.ecdhSent true))).map (·.send g (L.publicKey g).toList)
    | _ => none
  | .present, s =>
    match s.client.client.phase with
    | .authSending g => do
      let frame ← L.hello s.keys g
      let s ← s.moveClient L (supervisor (.authSent true))
      return s.send g frame
    | _ => none
  | .server a, s => if L.admits a then s.moveServer L a else none
  | .uplink c now random, s => do
    let g ← L.generation c
    let message ← (s.stream g)[s.read g]?
    let s ← s.moveServer L (.conn c (.received (some (.binary message)) now random))
    return { s with read := Function.update s.read g (s.read g + 1) }
  | .downlink c task, s => do
    let g ← L.generation c
    let message ← (s.server.conns c).sent[s.fetched g]?
    let s ← s.fetch L g task message
    return { s with fetched := Function.update s.fetched g (s.fetched g + 1) }

/-- The steps of the server in a step of the two. -/
def serverMoves : Action W → State → List (Server.Action W)
  | .server a, _ => [a]
  | .uplink c now random, s =>
    match L.generation c with
    | some g => ((s.stream g)[s.read g]?.map fun message =>
        Server.Action.conn c (.received (some (.binary message)) now random)).toList
    | none => []
  | _, _ => []

/-- The run of the server in a run of the two. -/
def serverRun (actions : List (Action W)) : List (Server.Action W) :=
  Machine.movesAlong (step L) (serverMoves L) actions (State.init L)

end Machine

/-! ### What a step is -/

section Turns

variable {W : Type} {L : Link W} {s s' : State}

inductive Turn (L : Link W) (s : State) : Action W → State → Prop
  | client {a client} (ha : viaSocket a = false)
      (h : Traffic.step (L.config s.keys) a s.client = some client) :
      Turn L s (.client a) { s with client := client, journal := s.journal.next s.client a }
  | offered {g client} (hp : s.client.client.phase = .ecdhSending g)
      (h : Traffic.step (L.config s.keys) (supervisor (.ecdhSent true)) s.client = some client) :
      Turn L s .offer ({ s with client := client }.send g (L.publicKey g).toList)
  | presented {g frame client} (hp : s.client.client.phase = .authSending g)
      (hframe : L.hello s.keys g = some frame)
      (h : Traffic.step (L.config s.keys) (supervisor (.authSent true)) s.client = some client) :
      Turn L s .present ({ s with client := client }.send g frame)
  | server {a server} (ha : L.admits a = true) (h : Server.step L.setup a s.server = some server) :
      Turn L s (.server a) { s with server := server }
  | uplink {c now random g message server} (hg : L.generation c = some g)
      (hmessage : (s.stream g)[s.read g]? = some message)
      (h : Server.step L.setup (.conn c (.received (some (.binary message)) now random)) s.server =
        some server) :
      Turn L s (.uplink c now random)
        { s with server := server, read := Function.update s.read g (s.read g + 1) }
  | keyed {c task g message client} (hg : L.generation c = some g)
      (hmessage : (s.server.conns c).sent[s.fetched g]? = some message)
      (hp : s.client.client.phase = .ecdhReading g)
      (h : Traffic.step (L.config s.keys) (supervisor (.ecdhReceived (binary message))) s.client =
        some client) :
      Turn L s (.downlink c task) { s with
        client := client
        keys := Function.update s.keys g (L.derived g message)
        greeted := Function.update s.greeted g (s.greeted g + 1)
        fetched := Function.update s.fetched g (s.fetched g + 1) }
  | judged {c task g message client} (hg : L.generation c = some g)
      (hmessage : (s.server.conns c).sent[s.fetched g]? = some message)
      (hp : s.client.client.phase = .authReading g)
      (h : Traffic.step (L.config s.keys) (supervisor (.authReceived (L.decoded s.keys g message)))
        s.client = some client) :
      Turn L s (.downlink c task) { s with
        client := client
        greeted := Function.update s.greeted g (s.greeted g + 1)
        fetched := Function.update s.fetched g (s.fetched g + 1) }
  | downlink {c task g message body client} (hg : L.generation c = some g)
      (hmessage : (s.server.conns c).sent[s.fetched g]? = some message)
      (hpc : s.client.client.tasks g .reader = .running)
      (hbody : L.decoded s.keys g message = some body)
      (h : Traffic.step (L.config s.keys) (.reader g (.packet body task)) s.client = some client) :
      Turn L s (.downlink c task) { s with
        client := client
        journal := s.journal.next s.client (.reader g (.packet body task))
        fetched := Function.update s.fetched g (s.fetched g + 1) }
  | skipped {c task g message} (hg : L.generation c = some g)
      (hmessage : (s.server.conns c).sent[s.fetched g]? = some message)
      (hpc : s.client.client.tasks g .reader = .running)
      (hbody : L.decoded s.keys g message = none) : Turn L s (.downlink c task)
      { s with fetched := Function.update s.fetched g (s.fetched g + 1) }

theorem moveClient_eq_some {a : Traffic.Action} (h : s.moveClient L a = some s') :
    ∃ client, Traffic.step (L.config s.keys) a s.client = some client ∧
      s' = { s with client := client, journal := s.journal.next s.client a } := by
  obtain ⟨client, hclient, rfl⟩ := Option.map_eq_some_iff.mp h
  exact ⟨client, hclient, rfl⟩

theorem turn_of_fetch {c : String} {g task : ℕ} {message : Server.WireMessage}
    (hg : L.generation c = some g) (hmessage : (s.server.conns c).sent[s.fetched g]? = some message)
    (h : s.fetch L g task message = some s') : Turn L s (.downlink c task)
      { s' with fetched := Function.update s'.fetched g (s'.fetched g + 1) } := by
  unfold State.fetch at h
  split_ifs at h with hkey hauth hpc
  · obtain ⟨s₁, hs₁, rfl⟩ := Option.map_eq_some_iff.mp h
    obtain ⟨client, hclient, rfl⟩ := moveClient_eq_some hs₁
    exact .keyed hg hmessage hkey hclient
  · obtain ⟨s₁, hs₁, rfl⟩ := Option.map_eq_some_iff.mp h
    obtain ⟨client, hclient, rfl⟩ := moveClient_eq_some hs₁
    exact .judged hg hmessage hauth hclient
  · split at h
    · obtain ⟨client, hclient, rfl⟩ := moveClient_eq_some h
      exact .downlink hg hmessage hpc ‹_› hclient
    · cases h
      exact .skipped hg hmessage hpc ‹_›

theorem turn_of_step {a : Action W} (h : step L a s = some s') : Turn L s a s' := by
  cases a with
  | client a =>
    simp only [step] at h
    split_ifs at h with ha
    obtain ⟨client, hclient, rfl⟩ := moveClient_eq_some h
    exact .client (Bool.eq_false_iff.mpr ha) hclient
  | offer =>
    simp only [step] at h
    split at h
    · obtain ⟨s₁, hs₁, rfl⟩ := Option.map_eq_some_iff.mp h
      obtain ⟨client, hclient, rfl⟩ := moveClient_eq_some hs₁
      exact .offered ‹_› hclient
    · cases h
  | present =>
    simp only [step] at h
    split at h
    · obtain ⟨frame, hframe, h⟩ := Option.bind_eq_some_iff.mp h
      obtain ⟨s₁, hs₁, h⟩ := Option.bind_eq_some_iff.mp h
      obtain ⟨client, hclient, rfl⟩ := moveClient_eq_some hs₁
      cases h
      exact .presented ‹_› hframe hclient
    · cases h
  | server a =>
    simp only [step] at h
    split_ifs at h with ha
    obtain ⟨server, hserver, rfl⟩ := Option.map_eq_some_iff.mp h
    exact .server ha hserver
  | uplink c now random =>
    obtain ⟨g, hg, h⟩ := Option.bind_eq_some_iff.mp h
    obtain ⟨message, hmessage, h⟩ := Option.bind_eq_some_iff.mp h
    obtain ⟨s₁, hs₁, h⟩ := Option.bind_eq_some_iff.mp h
    obtain ⟨server, hserver, rfl⟩ := Option.map_eq_some_iff.mp hs₁
    cases h
    exact .uplink hg hmessage hserver
  | downlink c task =>
    obtain ⟨g, hg, h⟩ := Option.bind_eq_some_iff.mp h
    obtain ⟨message, hmessage, h⟩ := Option.bind_eq_some_iff.mp h
    obtain ⟨s₁, hs₁, h⟩ := Option.bind_eq_some_iff.mp h
    cases h
    exact turn_of_fetch hg hmessage hs₁

theorem serverMoves_of_step {a : Action W} (h : step L a s = some s') :
    Machine.run (Server.step L.setup) (serverMoves L a s) s.server = some s'.server := by
  cases turn_of_step h with
  | server ha hmove => simp [serverMoves, Machine.run, hmove]
  | uplink hg hmessage hmove => simp [serverMoves, Machine.run, hg, hmessage, hmove]
  | _ => rfl

theorem run_serverRun {actions : List (Action W)}
    (h : Machine.run (step L) actions (State.init L) = some s) :
    Machine.run (Server.step L.setup) (serverRun L actions) (Server.State.init L.setup) = some s.server :=
  Machine.run_movesAlong State.server (fun _ _ _ => serverMoves_of_step) h

end Turns

/-! ### Codecs and keys -/

section Codecs

variable {W : Type} {L : Link W} {keys keys' : ℕ → Option Key} {g : ℕ}

theorem sessionCodec_congr (h : keys' g = keys g) : L.sessionCodec keys' g = L.sessionCodec keys g := by
  have hkey : (L.config keys').sessionKey g = (L.config keys).sessionKey g := by
    simp only [Link.config, h]
  unfold Link.sessionCodec Traffic.Config.sessionCodec
  rw [hkey]
  rfl

theorem decoded_congr (h : keys' g = keys g) : L.decoded keys' g = L.decoded keys g := by
  funext message
  simp only [Link.decoded, sessionCodec_congr h]

theorem sessionCodec_plain (h : L.useEcdh = false) : L.sessionCodec keys g = L.codec := by
  simp [Link.sessionCodec, Traffic.Config.sessionCodec, Link.config, h]

theorem sessionCodec_keyed (h : L.useEcdh = true) {key : Key} (hkey : keys g = some key) :
    L.sessionCodec keys g = FrameCodec.plaintext.withChacha20Key key := by
  simp [Link.sessionCodec, Traffic.Config.sessionCodec, Link.config, h, hkey]

theorem parsePeerPublic_toList (key : Key) : Server.parsePeerPublic key.toList = .ok key := by
  unfold Server.parsePeerPublic
  rw [dif_pos (by simp)]
  simp [Vector.toList]

theorem derived_publicKey (g : ℕ) (key : Key) :
    L.derived g (.publicKey key) = some (L.setup.ecdh.deriveSessionKey (L.secret g) key) := by
  simp only [Link.derived, binary, parsePeerPublic_toList]

theorem derived_isSome {message : Server.WireMessage} {bytes : Bytes} (h : binary message = some bytes)
    (hlen : bytes.length = 32) : (L.derived g message).isSome = true := by
  simp only [Link.derived, h, Server.parsePeerPublic, dif_pos hlen]
  rfl

theorem hello_eq_some {frame : Bytes} (h : L.hello keys g = some frame) : ∃ credential,
    (L.sessionCodec keys g).encode L.setup.libs (L.nonce g) (.new (.authRequest credential)) =
      .ok frame := by
  unfold Link.hello at h
  split at h
  · cases h
  · split at h <;> cases h
    exact ⟨_, ‹_›⟩

theorem decoded_eq_some {message : Server.WireMessage} {body : PacketBody}
    (h : L.decoded keys g message = some body) : ∃ bytes packet, binary message = some bytes ∧
      (L.sessionCodec keys g).decode L.setup.libs bytes = .ok packet ∧ packet.body = body := by
  unfold Link.decoded at h
  split at h
  · split at h <;> cases h
    exact ⟨_, _, ‹_›, ‹_›, rfl⟩
  · cases h

end Codecs

/-! ### One call over ECDH -/

def requestText : Bytes :=
  asBytes "\x7b\"k\":0,\"i\":1,\"r\":\"echo\",\"p\":null,\"m\":\x7b\"client_name\":\"rust-demo\"\x7d\x7d"

def greetingText : Bytes :=
  asBytes "\x7b\"k\":1,\"i\":1,\"n\":\"system.notice\",\"d\":\x7b\"connection_id\":\"c\"," ++
    asBytes "\"message\":\"connected\"\x7d,\"m\":\x7b\"source\":\"server\"\x7d,\"e\":true\x7d"

def responseText : Bytes := asBytes "\x7b\"k\":2,\"i\":1,\"o\":true,\"s\":200,\"d\":null\x7d"

/-- serde_json on the three bodies of the call. -/
def callJson : SerdeJson where
  nestingLimit := 127
  toWriter
    | .object [("k", .number (.posInt 0)), ("i", .number (.posInt 1)), ("r", .string "echo"), ("p", .null),
        ("m", .object [("client_name", .string "rust-demo")])] => .ok requestText
    | .object [("k", .number (.posInt 1)), ("i", .number (.posInt 1)), ("n", .string "system.notice"),
        ("d", .object [("connection_id", .string "c"), ("message", .string "connected")]),
        ("m", .object [("source", .string "server")]), ("e", .bool true)] => .ok greetingText
    | .object [("k", .number (.posInt 2)), ("i", .number (.posInt 1)), ("o", .bool true),
        ("s", .number (.posInt 200)), ("d", .null)] => .ok responseText
    | _ => .error .serde
  fromSlice text :=
    if text = requestText then
      .ok (.ofTree (.object [("k", .number (.posInt 0)), ("i", .number (.posInt 1)), ("r", .string "echo"),
        ("p", .null), ("m", .object [("client_name", .string "rust-demo")])]))
    else if text = greetingText then
      .ok (.ofTree (.object [("k", .number (.posInt 1)), ("i", .number (.posInt 1)),
        ("n", .string "system.notice"),
        ("d", .object [("connection_id", .string "c"), ("message", .string "connected")]),
        ("m", .object [("source", .string "server")]), ("e", .bool true)]))
    else if text = responseText then
      .ok (.ofTree (.object [("k", .number (.posInt 2)), ("i", .number (.posInt 1)), ("o", .bool true),
        ("s", .number (.posInt 200)), ("d", .null)]))
    else .error .serde

/-- A stand-in for X25519. -/
def xorEcdh : Server.Ecdh := ⟨id, Vector.zipWith (· ^^^ ·)⟩

theorem xorEcdh_exchange (a b : Key) : xorEcdh.deriveSessionKey a (xorEcdh.publicBytes b) =
    xorEcdh.deriveSessionKey b (xorEcdh.publicBytes a) := by
  ext i hi
  simp [xorEcdh, UInt8.xor_comm]

def callLibs : Libs := ⟨callJson, Server.tagged, Server.tagged⟩

/-- An ECDH client and an ECDH server with one route; the client's first connection is the
server's `c`. -/
def callLink : Link Unit where
  useEcdh := true
  credential := none
  autoReconnect := false
  failovers := 0
  codec := FrameCodec.plaintext
  defaultEncryption := .none
  setup := ⟨callLibs, xorEcdh, none, { (Server.WscallServer.new (W := Unit)).withEcdh with
    routes := fun route =>
      if route = "echo" then some fun _ ctx => .returns (.ok ctx.params) else none }, []⟩
  generation c := if c = "c" then some 1 else none
  injective c d g hc hd := by
    split_ifs at hc hd with h h'
    rw [h, h']
  secret _ := Vector.replicate 32 1
  nonce _ := .error "unused"

def echoCall : CallId := ⟨.api, 0⟩

def supervised (ops : List Lifecycle.SupervisorOp) : List (Action Unit) :=
  ops.map fun op => .client (supervisor op)

/-- The key exchange, then the call. -/
def callRun : List (Action Unit) :=
  supervised [.top, .connectResult true] ++
  [.offer, .server (.conn "c" (.accept ⟨.v4 1, 1⟩ 0)),
    .server (.conn "c" (.upgraded true (.ok (Vector.replicate 32 2)) ())), .uplink "c" 0 (.error "unused"),
    .server (.conn "c" (.sent true ())), .downlink "c" 0,
    .server (.conn "c" (.notified (.error "unused")))] ++
  supervised [.publish, .lockHandlers, .spawnTasks] ++
  [.client (.call echoCall (.start (.api "echo" .null []))), .client (.call echoCall .sent),
    .client (.writer 1 (.receive (.ok Server.zeroNonce))), .uplink "c" 0 (.error "unused"),
    .server (.conn "c" (.acquired 0)), .server (.task 0 (.run ())),
    .server (.task 0 (.queue (.error "unused"))), .server (.task 0 .send),
    .server (.writer "c" (.next (.ok Server.zeroNonce) true)),
    .server (.writer "c" (.next (.ok Server.zeroNonce) true)), .downlink "c" 0, .downlink "c" 0,
    .client (.call echoCall .receive)]

end Wscall.Session
