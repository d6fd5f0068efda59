import Wscall.Server.Moves

/-!
# What holds in every state of a running server

The invariant is local: what a connection's phase promises is about its own record, and
the shared tables name only connections that were let in. It is stated for any `Policy`:
a property of queue items, which the server's own items have and what user code pushes
has to have, and one of callback invocations.
-/

namespace Wscall.Server
open RustStd Protocol

def WsMessage.binary? : WsMessage → Option Bytes
  | .binary bytes => some bytes
  | _ => none

def firstBinary (inbox : List WsMessage) : Option Bytes := inbox.findSome? WsMessage.binary?

theorem firstBinary_append {inbox : List WsMessage} {bytes : Bytes} (h : firstBinary inbox = some bytes)
    (more : List WsMessage) : firstBinary (inbox ++ more) = some bytes := by
  rw [firstBinary, List.findSome?_append, ← firstBinary, h]
  rfl

def Phase.Exchanging : Phase → Prop
  | .keyReading _ | .keySending _ _ => True
  | _ => False

/-- Before the auth handler is called. -/
def Phase.Unasked : Phase → Prop
  | .absent | .upgrading | .keyReading _ | .keySending _ _ | .authReading | .authHandling _ => True
  | _ => False

/-- From the accepting reply to the end of the teardown. -/
def Phase.Live : Phase → Prop
  | .authReplying (.ok _) _ | .notifying | .reading | .queueing _ | .acquiring _ | .ponging _
  | .closing => True
  | _ => False

theorem Phase.Early.unasked {p : Phase} (h : p.Early) : p.Unasked := by
  cases p <;> trivial

theorem Phase.not_unasked {p : Phase} (h : p.Live ∨ p = .ended) : ¬ p.Unasked := by
  rcases h with h | rfl
  · cases p <;> first | exact h.elim | exact not_false
  · exact not_false

/-- From the table entry on, with an item under way that has the property. -/
def Phase.Steady (Q : ServerOutbound → Prop) : Phase → Prop
  | .queueing item => Q item
  | .notifying | .reading | .acquiring _ | .ponging _ | .closing | .ended => True
  | _ => False

theorem Phase.Steady.live_or_ended {Q : ServerOutbound → Prop} {p : Phase} (h : p.Steady Q) :
    p.Live ∨ p = .ended := by
  cases p <;> first | exact h.elim | exact .inl trivial | exact .inr rfl

theorem Phase.Steady.queueing {Q : ServerOutbound → Prop} {p : Phase} (h : p.Steady Q)
    {item : ServerOutbound} (hp : p = .queueing item) : Q item := by
  subst hp
  exact h

section Definitions

variable {W : Type} (setup : Setup W) (Q : ServerOutbound → Prop)

/-- The first binary message decodes, under the session codec, to an auth request with
this credential. -/
def Presented (conn : Conn) (credential : String) : Prop :=
  ∃ codec bytes packet, conn.codec = some codec ∧ firstBinary conn.inbox = some bytes ∧
    codec.decode setup.libs bytes = .ok packet ∧ packet.body = .authRequest credential

/-- The auth handler returned `Ok` for the credential that was presented. -/
def Authenticated (conn : Conn) : Prop :=
  ∃ credential output, Presented setup conn credential ∧
    (credential, .returns (.ok output)) ∈ conn.authCalls

/-- Without an auth handler everyone is let in. -/
def Admitted (conn : Conn) : Prop :=
  setup.server.authHandler.isSome → Authenticated setup conn

/-- The codecs a session can have: the negotiated key under ECDH, the server's codec
otherwise, with the server's limit. -/
def SessionCodec (codec : FrameCodec) : Prop :=
  if setup.server.isEcdh then
    ∃ secret clientPublic, codec =
      (FrameCodec.plaintext.withChacha20Key
        (setup.ecdh.deriveSessionKey secret clientPublic)).withMaxFrameBytes setup.server.maxFrameBytes
  else codec = setup.server.codec.withMaxFrameBytes setup.server.maxFrameBytes

/-- The context that belongs to what the auth handler returned. -/
def ContextOf (conn : Conn) (authContext : Option Map) : Prop :=
  ∀ credential output, (credential, .returns (.ok output)) ∈ conn.authCalls →
    authContext = storedContext (some output)

structure ConnOk (conn : Conn) : Prop where
  early : conn.phase.Early → conn.codec = none ∧ conn.inbox = [] ∧
    (conn.phase.Exchanging → setup.server.isEcdh = true)
  waiting : conn.phase = .authReading → conn.inbox = []
  unasked : conn.phase.Unasked → conn.authCalls = []
  handling : ∀ credential, conn.phase = .authHandling credential → Presented setup conn credential
  replying : ∀ output bytes, conn.phase = .authReplying (.ok output) bytes →
    ContextOf conn (storedContext (some output))
  live : conn.phase.Live → Admitted setup conn
  queued : conn.channel.queue ≠ [] → Admitted setup conn
  session : ∀ codec, conn.codec = some codec → SessionCodec setup codec
  items : ∀ item ∈ conn.channel.queue, Q item
  queueing : ∀ item, conn.phase = .queueing item → Q item
  written : ∀ bytes, .frame bytes ∈ conn.sent → ∃ codec random item, conn.codec = some codec ∧
    Q item ∧ writeItem setup.libs codec random item = (some (.frame bytes), true)

structure Policy where
  item : ServerOutbound → Prop
  call : Conn → Invocation → Prop
  /-- The only part of a record that later steps of the handshake could still change. -/
  stable : ∀ {old new : Conn} {call' : Invocation}, new.authCalls = old.authCalls → call old call' →
    call new call'

structure Sound (P : Policy) (s : State) : Prop where
  conns : ∀ c, ConnOk setup P.item (s.conns c)
  admitted : ∀ c, (s.clients c).isSome → Admitted setup (s.conns c)
  contexts : ∀ c entry, s.clients c = some entry → ContextOf (s.conns c) entry.authContext
  tasks : ∀ t, (s.tasks t).pc ≠ .absent → Admitted setup (s.conns (s.tasks t).connectionId)
  sending : ∀ t item, (s.tasks t).pc = .sending item → P.item item
  pushes : ∀ k item, s.pushes k = some item → P.item item
  connected : ∀ ctx ∈ s.connected, Admitted setup (s.conns ctx.connectionId)
  calls : ∀ call ∈ s.calls, Admitted setup (s.conns call.1) ∧ P.call (s.conns call.1) call.2

/-- Whatever goes out through the handle has the property. -/
def HandleItems (h : ServerHandle) : Prop :=
  ∀ random packet item, h.outbound setup.libs random packet = .ok item → Q item

/-- The items the server itself queues have the property. -/
structure OwnItems : Prop where
  outbound : HandleItems setup Q setup.server.handle
  pong : ∀ payload, Q (.pong payload)
  close : Q .close

end Definitions

section Rules

variable {W : Type} {setup : Setup W} {Q : ServerOutbound → Prop} {P : Policy}

theorem SessionCodec.maxFrameBytes {codec : FrameCodec} (h : SessionCodec setup codec) :
    codec.maxFrameBytes = setup.server.maxFrameBytes := by
  unfold SessionCodec at h
  split at h
  · obtain ⟨secret, clientPublic, rfl⟩ := h
    rfl
  · rw [h]
    rfl

theorem connOk_new (peer : SocketAddr) {phase : Phase}
    (h : phase = .absent ∨ phase = .upgrading ∨ phase = .ended) :
    ConnOk setup Q (Conn.new peer phase) where
  early _ := ⟨rfl, rfl, fun he => by rcases h with rfl | rfl | rfl <;> exact he.elim⟩
  waiting _ := rfl
  unasked _ := rfl
  handling _ he := by rcases h with rfl | rfl | rfl <;> cases he
  replying _ _ _ _ _ hmem := by cases hmem
  live hl := by rcases h with rfl | rfl | rfl <;> cases hl
  queued hq := absurd rfl hq
  session _ hc := by cases hc
  items _ hmem := by cases hmem
  queueing _ he := by rcases h with rfl | rfl | rfl <;> cases he
  written _ hmem := by cases hmem

theorem sound_init : Sound setup P (State.init setup) where
  conns _ := connOk_new _ (.inl rfl)
  admitted _ h := by cases h
  contexts _ _ h := by cases h
  tasks _ h := absurd rfl h
  sending _ _ h := by cases h
  pushes _ _ h := by cases h
  connected _ h := by cases h
  calls _ h := by cases h

/-! ### One connection's record -/

/-- The later record of a connection: what was received and returned stays. -/
structure Conn.Extends (old new : Conn) : Prop where
  codec : ∀ codec, old.codec = some codec → new.codec = some codec
  inbox : old.inbox <+: new.inbox
  authCalls : old.authCalls = [] ∨ new.authCalls = old.authCalls

theorem Conn.Extends.of_eq {old new : Conn} (hc : new.codec = old.codec) (hi : new.inbox = old.inbox)
    (ha : new.authCalls = old.authCalls) : old.Extends new :=
  ⟨fun _ h => hc.trans h, hi ▸ List.prefix_rfl, .inr ha⟩

theorem Presented.mono {old new : Conn} {credential : String} (h : Presented setup old credential)
    (hext : old.Extends new) : Presented setup new credential := by
  obtain ⟨codec, bytes, packet, hc, hb, hd⟩ := h
  obtain ⟨more, hmore⟩ := hext.inbox
  exact ⟨codec, bytes, packet, hext.codec codec hc, hmore ▸ firstBinary_append hb more, hd⟩

theorem Admitted.mono {old new : Conn} (h : Admitted setup old) (hext : old.Extends new) :
    Admitted setup new := by
  intro hauth
  obtain ⟨credential, output, hp, hmem⟩ := h hauth
  refine ⟨credential, output, hp.mono hext, ?_⟩
  rcases hext.authCalls with hnil | heq
  · simp [hnil] at hmem
  · rwa [heq]

/-- A connection goes on where it was let in, with the history it had. -/
theorem ConnOk.of_live {old new : Conn} (h : ConnOk setup Q old) (ha : Admitted setup new)
    (hp : new.phase.Steady Q) (hc : new.codec = old.codec) (hs : new.sent = old.sent)
    (hq : ∀ item ∈ new.channel.queue, Q item) : ConnOk setup Q new := by
  have hasked := Phase.not_unasked hp.live_or_ended
  refine ⟨fun he => ?_, fun he => ?_, fun he => ?_, fun _ he => ?_, fun output bytes he => ?_,
    fun _ => ha, fun _ => ha, fun codec hcodec => h.session codec (hc ▸ hcodec), hq,
    fun _ he => hp.queueing he, ?_⟩
  · exact absurd he.unasked hasked
  · exact absurd (he ▸ trivial) hasked
  · exact absurd he hasked
  · exact absurd (he ▸ trivial) hasked
  · rw [he] at hp
    exact hp.elim
  · rw [hs, hc]
    exact h.written

theorem ConnOk.of_ended {old new : Conn} (h : ConnOk setup Q old) (hext : old.Extends new)
    (hp : new.phase = .ended) (hc : new.codec = old.codec) (hs : new.sent = old.sent)
    (hq : new.channel = old.channel) : ConnOk setup Q new := by
  refine ⟨fun he => ?_, fun he => ?_, fun he => ?_, fun _ he => ?_, fun _ _ he => ?_, fun he => ?_,
    fun hne => (h.queued (hq ▸ hne)).mono hext, fun codec hcodec => h.session codec (hc ▸ hcodec),
    hq ▸ h.items, fun _ he => ?_, ?_⟩
  case refine_8 =>
    rw [hs, hc]
    exact h.written
  all_goals
    rw [hp] at he
    cases he

/-! ### The shared state -/

section Shared

variable {s : State} {c : String}

theorem ContextOf.mono {old new : Conn} {authContext : Option Map} (h : ContextOf old authContext)
    (heq : new.authCalls = old.authCalls) : ContextOf new authContext := by
  simpa only [ContextOf, heq] using h

theorem Sound.setConn (h : Sound setup P s) {conn : Conn} (hok : ConnOk setup P.item conn)
    (hext : (s.conns c).Extends conn)
    (hcalls : conn.authCalls = (s.conns c).authCalls ∨ ¬ Admitted setup (s.conns c)) :
    Sound setup P (s.setConn c conn) := by
  -- the auth handler returns to a connection only while it has not been let in
  have hmono : ∀ d, Admitted setup (s.conns d) → Admitted setup ((s.setConn c conn).conns d) := by
    intro d hd
    by_cases hdc : d = c
    · subst hdc
      simpa using hd.mono hext
    · simpa [State.setConn_of_ne s hdc] using hd
  refine ⟨fun d => ?_, fun d hd => hmono d (h.admitted d hd), fun d entry hd => ?_,
    fun t ht => hmono _ (h.tasks t ht), h.sending, h.pushes,
    fun ctx hctx => hmono _ (h.connected ctx hctx),
    fun call hcall => ⟨hmono _ (h.calls call hcall).1, ?_⟩⟩
  · by_cases hdc : d = c
    · subst hdc
      simpa using hok
    · simpa [State.setConn_of_ne s hdc] using h.conns d
  · by_cases hdc : d = c
    · subst hdc
      rcases hcalls with heq | hout
      · simpa using (h.contexts d entry hd).mono heq
      · exact absurd (h.admitted d (Option.isSome_iff_exists.mpr ⟨entry, hd⟩)) hout
    · simpa [State.setConn_of_ne s hdc] using h.contexts d entry hd
  · by_cases hdc : call.1 = c
    · subst hdc
      rcases hcalls with heq | hout
      · simpa using P.stable heq (h.calls call hcall).2
      · exact absurd (h.calls call hcall).1 hout
    · simpa [State.setConn_of_ne s hdc] using (h.calls call hcall).2

theorem Sound.setTask (h : Sound setup P s) (t : ℕ) (task : HandlerTask)
    (ha : Admitted setup (s.conns task.connectionId)) (hq : ∀ item, task.pc = .sending item → P.item item) :
    Sound setup P (s.setTask t task) := by
  refine ⟨h.conns, h.admitted, h.contexts, fun u hu => ?_, fun u item hu => ?_, h.pushes,
    h.connected, h.calls⟩
  · by_cases hut : u = t
    · subst hut
      simpa [State.setTask] using ha
    · simp only [State.setTask, Function.update_of_ne hut] at hu ⊢
      exact h.tasks u hu
  · by_cases hut : u = t
    · subst hut
      exact hq item (by simpa [State.setTask] using hu)
    · exact h.sending u item (by simpa [State.setTask, hut] using hu)

theorem Sound.setLimiter (h : Sound setup P s) (limiter : Option RateLimiterState) :
    Sound setup P { s with limiter := limiter } :=
  ⟨h.1, h.2, h.3, h.4, h.5, h.6, h.7, h.8⟩

theorem Sound.setEventId (h : Sound setup P s) (n : UInt64) :
    Sound setup P { s with nextEventId := n } :=
  ⟨h.1, h.2, h.3, h.4, h.5, h.6, h.7, h.8⟩

theorem Sound.setClients (h : Sound setup P s) (clients : String → Option ClientEntry)
    (hnew : ∀ d entry, clients d = some entry → s.clients d = some entry ∨
      Admitted setup (s.conns d) ∧ ContextOf (s.conns d) entry.authContext) :
    Sound setup P { s with clients := clients } := by
  refine ⟨h.1, fun d hd => ?_, fun d entry hd => ?_, h.4, h.5, h.6, h.7, h.8⟩
  · obtain ⟨entry, hentry⟩ := Option.isSome_iff_exists.mp hd
    rcases hnew d entry hentry with hold | hlet
    · exact h.admitted d (by simp [hold])
    · exact hlet.1
  · rcases hnew d entry hd with hold | hlet
    · exact h.contexts d entry hold
    · exact hlet.2

theorem Sound.setConnected (h : Sound setup P s) (connected : List ServerConnectionContext)
    (hnew : ∀ ctx ∈ connected, Admitted setup (s.conns ctx.connectionId)) :
    Sound setup P { s with connected := connected } :=
  ⟨h.1, h.2, h.3, h.4, h.5, h.6, hnew, h.8⟩

theorem Sound.setLive (h : Sound setup P s) (ha : Admitted setup (s.conns c)) (phase : Phase)
    (hp : phase.Steady P.item) {channel : Channel} (hq : ∀ item ∈ channel.queue, P.item item) (n : ℕ) :
    Sound setup P
      (s.setConn c { s.conns c with phase := phase, channel := channel, inFlight := n }) := by
  have hext : (s.conns c).Extends { s.conns c with phase := phase, channel := channel, inFlight := n } :=
    .of_eq rfl rfl rfl
  exact h.setConn ((h.conns c).of_live (ha.mono hext) hp rfl rfl hq) hext (.inl rfl)

theorem mem_push {ch : Channel} {item : ServerOutbound} (hch : ∀ i ∈ ch.queue, P.item i)
    (hq : P.item item) :
    ∀ i ∈ (ch.push item).queue, P.item i := by
  intro i hi
  rcases List.mem_append.mp hi with hi | hi
  · exact hch i hi
  · cases List.mem_singleton.mp hi
    exact hq

theorem mem_trySend {ch ch' : Channel} {item : ServerOutbound} (hch : ∀ i ∈ ch.queue, P.item i)
    (hq : P.item item) (h : ch.trySend item = some ch') : ∀ i ∈ ch'.queue, P.item i := by
  unfold Channel.trySend at h
  split at h
  · cases h
    exact mem_push hch hq
  · cases h

theorem Sound.teardown (h : Sound setup P s) (own : OwnItems setup P.item)
    (ha : Admitted setup (s.conns c)) : Sound setup P (Wscall.Server.teardown s c) := by
  have hq : ∀ i ∈ (((s.conns c).channel.trySend .close).getD (s.conns c).channel).queue, P.item i := by
    cases ht : (s.conns c).channel.trySend .close with
    | none => exact (h.conns c).items
    | some ch => exact mem_trySend (h.conns c).items own.close ht
  refine (h.setLive ha .closing trivial hq (s.conns c).inFlight).setClients
    (Function.update s.clients c none) fun d entry hd => .inl ?_
  by_cases hdc : d = c
  · subst hdc
    simp at hd
  · rwa [Function.update_of_ne hdc] at hd

theorem mem_notifyFrom {α : Type} {w : W} {ctx : α} {handlers : List (W → α → Callback Unit)} {i : ℕ}
    {call : ℕ × α} (h : call ∈ (notifyFrom w ctx i handlers).calls) : call.2 = ctx := by
  induction handlers generalizing i with
  | nil => cases h
  | cons handler handlers ih =>
    rcases Exec.mem_calls_bind h with h | ⟨_, -, h⟩
    · rw [Exec.catchUnwind_calls, List.mem_singleton] at h
      rw [h]
    · exact ih h

theorem mem_notifyConnected {w : W} {ctx ctx' : ServerConnectionContext}
    {handlers : List (ConnectionHandler W)}
    (h : ctx' ∈ (notifyConnected w ctx handlers).calls.map Prod.snd) : ctx' = ctx := by
  obtain ⟨call, hcall, rfl⟩ := List.mem_map.mp h
  exact mem_notifyFrom hcall

theorem Sound.enter (h : Sound setup P s) (ha : Admitted setup (s.conns c)) (w : W)
    {output : Option AuthOutput} (hctx : ContextOf (s.conns c) (storedContext output)) :
    Sound setup P (Wscall.Server.enter setup s c w output) := by
  unfold Wscall.Server.enter
  generalize hrun : notifyConnected w (connectedContext setup s c output)
    setup.server.connectionHandlers = run
  have hp : Phase.Steady P.item (if run.result.isSome then .notifying else .ended) := by
    cases run.result <;> exact trivial
  have hq : ∀ i ∈ (Channel.mk [] run.result.isSome false).queue, P.item i := by simp
  have hset := h.setLive (c := c) ha _ hp hq (s.conns c).inFlight
  have hself : Admitted setup ((s.setConn c { s.conns c with
      phase := if run.result.isSome then .notifying else .ended
      channel := ⟨[], run.result.isSome, false⟩ }).conns c) := by
    rw [State.setConn_self]
    exact ha.mono (.of_eq rfl rfl rfl)
  have htable := hset.setClients (Function.update s.clients c (some ⟨storedContext output⟩)) (by
    intro d entry hd
    by_cases hdc : d = c
    · subst hdc
      rw [Function.update_self] at hd
      cases hd
      refine .inr ⟨hself, ?_⟩
      rw [State.setConn_self]
      exact hctx.mono rfl
    · rw [Function.update_of_ne hdc] at hd
      exact .inl hd)
  refine htable.setConnected (s.connected ++ run.calls.map Prod.snd) fun ctx hmem => ?_
  rcases List.mem_append.mp hmem with hmem | hmem
  · exact hset.connected ctx hmem
  · rw [← hrun] at hmem
    rw [mem_notifyConnected hmem]
    exact hself

/-! ### The handshake -/

theorem Sound.setPhase (h : Sound setup P s) (ha : Admitted setup (s.conns c)) {phase : Phase}
    (hp : phase.Steady P.item) : Sound setup P (s.setPhase c phase) :=
  h.setLive ha phase hp (h.conns c).items (s.conns c).inFlight

theorem extends_logged (conn : Conn) (message : Option WsMessage) (phase : Phase) :
    conn.Extends { conn with phase := phase, inbox := conn.inbox ++ message.toList } :=
  ⟨fun _ h => h, List.prefix_append _ _, .inr rfl⟩

theorem ConnOk.toEarly {conn : Conn} (h : ConnOk setup Q conn) (he : conn.phase.Early) {phase : Phase}
    (hp : phase.Early) (hx : phase.Exchanging → setup.server.isEcdh = true) :
    ConnOk setup Q { conn with phase := phase } := by
  obtain ⟨hcodec, hinbox, -⟩ := h.early he
  refine ⟨fun _ => ⟨hcodec, hinbox, hx⟩, fun heq => ?_, fun _ => h.unasked he.unasked,
    fun _ heq => ?_, fun _ _ heq => ?_, fun hl => ?_, h.queued, h.session, h.items,
    fun _ heq => ?_, h.written⟩
  · exact hinbox
  · dsimp only at heq
    subst heq
    exact hp.elim
  · dsimp only at heq
    subst heq
    exact hp.elim
  · exact absurd hp.unasked (Phase.not_unasked (.inl hl))
  · dsimp only at heq
    subst heq
    exact hp.elim

/-- The end of the key exchange. -/
theorem ConnOk.agreed {conn : Conn} (h : ConnOk setup Q conn) (he : conn.phase.Early)
    {codec : FrameCodec} (hl : SessionCodec setup codec) {sent : List WireMessage}
    (hs : ∀ bytes, .frame bytes ∈ sent → .frame bytes ∈ conn.sent) :
    ConnOk setup Q { conn with sent := sent, codec := some codec, phase := .authReading } where
  early := False.elim
  waiting _ := (h.early he).2.1
  unasked _ := h.unasked he.unasked
  handling := by intro _ heq; cases heq
  replying := by intro _ _ heq; cases heq
  live := False.elim
  queued hq := (h.queued hq).mono
    ⟨fun _ hc => by simp [(h.early he).1] at hc, List.prefix_rfl, .inr rfl⟩
  session := by
    intro codec' hc
    cases hc
    exact hl
  items := h.items
  queueing := by intro _ heq; cases heq
  written := by
    intro bytes hmem
    obtain ⟨codec', -, -, hc, -⟩ := h.written bytes (hs bytes hmem)
    simp [(h.early he).1] at hc

theorem ConnOk.presented {conn : Conn} (h : ConnOk setup Q conn) (hp : conn.phase = .authReading)
    {codec : FrameCodec} (hc : conn.codec = some codec) {bytes : Bytes} {packet : PacketEnvelope}
    (hd : codec.decode setup.libs bytes = .ok packet) {credential : String}
    (hbody : packet.body = .authRequest credential) :
    ConnOk setup Q { conn with
      phase := .authHandling credential
      inbox := conn.inbox ++ [.binary bytes] } where
  early := False.elim
  waiting := by intro he; cases he
  unasked _ := h.unasked (hp ▸ trivial)
  handling := by
    intro credential' he
    cases he
    exact ⟨codec, bytes, packet, hc, by simp [h.waiting hp, firstBinary, WsMessage.binary?], hd, hbody⟩
  replying := by intro output bytes he; cases he
  live := False.elim
  queued hq := (h.queued hq).mono (extends_logged conn (some (.binary bytes)) (.authHandling credential))
  session := h.session
  items := h.items
  queueing := by intro item he; cases he
  written := h.written

/-- An accepted connection has been asked before. -/
theorem ConnOk.not_admitted {conn : Conn} (h : ConnOk setup Q conn) (hp : conn.phase.Unasked)
    (hauth : setup.server.authHandler.isSome = true) : ¬ Admitted setup conn := by
  intro ha
  obtain ⟨_, _, -, hmem⟩ := ha hauth
  simp [h.unasked hp] at hmem

theorem ConnOk.asked {conn : Conn} (h : ConnOk setup Q conn) {credential : String}
    (hp : conn.phase = .authHandling credential) {outcome : Callback (Except ApiError AuthOutput)}
    {phase : Phase}
    (hphase : phase = .ended ∨
      ∃ result bytes, phase = .authReplying result bytes ∧ outcome = .returns result) :
    ConnOk setup Q { conn with
      phase := phase
      authCalls := conn.authCalls ++ [(credential, outcome)] } := by
  have hnil : conn.authCalls = [] := h.unasked (hp ▸ trivial)
  have hext : conn.Extends { conn with
      phase := phase
      authCalls := conn.authCalls ++ [(credential, outcome)] } :=
    ⟨fun _ h => h, List.prefix_rfl, .inl hnil⟩
  have hasked : ¬ phase.Unasked := by
    rcases hphase with rfl | ⟨_, _, rfl, -⟩ <;> exact not_false
  refine ⟨fun he => absurd he.unasked hasked, fun he => ?_, fun he => absurd he hasked,
    fun _ he => ?_, fun output bytes he => ?_, fun hl => ?_, fun hq => (h.queued hq).mono hext,
    h.session, h.items, fun item he => ?_, h.written⟩
  · exact absurd ((show phase = .authReading from he) ▸ trivial) hasked
  · exact absurd ((show phase = .authHandling _ from he) ▸ trivial) hasked
  · rcases hphase with rfl | ⟨result, bytes', rfl, rfl⟩
    · cases he
    · cases he
      intro credential' output' hmem
      simp only [hnil, List.nil_append, List.mem_singleton, Prod.mk.injEq, Callback.returns.injEq,
        Except.ok.injEq] at hmem
      rw [hmem.2]
  · rcases hphase with rfl | ⟨result, bytes', rfl, rfl⟩
    · exact hl.elim
    · cases result with
      | error e => exact hl.elim
      | ok output =>
        intro _
        exact ⟨credential, output, (h.handling credential hp).mono hext, by simp⟩
  · rcases hphase with rfl | ⟨_, _, rfl, -⟩ <;> cases he

/-- A message of the server other than a frame. -/
theorem ConnOk.wired {conn : Conn} (h : ConnOk setup Q conn) {message : WireMessage}
    (hm : ∀ bytes, message ≠ .frame bytes) :
    ConnOk setup Q { conn with sent := conn.sent ++ [message] } := by
  refine ⟨h.1, h.2, h.3, h.4, h.5, h.6, h.7, h.8, h.9, h.10, fun bytes hmem => ?_⟩
  rcases List.mem_append.mp hmem with hmem | hmem
  · exact h.written bytes hmem
  · exact absurd (List.mem_singleton.mp hmem).symm (hm bytes)

theorem ConnOk.shakes {old new : Conn} {op : ConnOp W} (h : ConnOk setup Q old)
    (hs : Shakes setup old op new) : ConnOk setup Q new := by
  cases hs with
  | failed => exact h.of_ended (.of_eq rfl rfl rfl) rfl rfl rfl rfl
  | keyed hp hecdh => exact h.toEarly (hp ▸ trivial) trivial fun _ => hecdh
  | offered hp =>
    have hecdh := (h.early (hp ▸ trivial)).2.2 (hp ▸ trivial)
    exact h.toEarly (hp ▸ trivial) trivial fun _ => hecdh
  | plain hp hecdh =>
    refine h.agreed (hp ▸ trivial) ?_ fun _ hmem => hmem
    rw [SessionCodec, hecdh]
    rfl
  | exchanged hp =>
    have hecdh := (h.early (hp ▸ trivial)).2.2 (hp ▸ trivial)
    refine h.agreed (hp ▸ trivial) ?_ fun bytes hmem => ?_
    · rw [SessionCodec, if_pos hecdh]
      exact ⟨_, _, rfl⟩
    · simpa using hmem
  | presented hp hc hd hbody => exact h.presented hp hc hd hbody
  | @unpresented message _ _ hp =>
    exact h.of_ended (extends_logged old message .ended) rfl rfl rfl rfl
  | asked hp _ hphase =>
    refine h.asked hp (hphase.imp_right ?_)
    rintro ⟨result, bytes, hreply, hret, -⟩
    exact ⟨result, bytes, hreply, hret⟩
  | accepted => exact h.wired (by simp)
  | rejected =>
    have hwired := fun bytes => h.wired (show ∀ bytes', WireMessage.authResponse bytes ≠ .frame bytes' by simp)
    exact (hwired _).of_ended (.of_eq rfl rfl rfl) rfl rfl rfl rfl

theorem ConnOk.extends_shakes {old new : Conn} {op : ConnOp W} (h : ConnOk setup Q old)
    (hs : Shakes setup old op new) : old.Extends new := by
  have hnone : old.phase.Early → ∀ codec codec', old.codec = some codec → codec' = some codec := by
    intro he codec codec' hc
    rw [(h.early he).1] at hc
    cases hc
  cases hs with
  | failed | keyed | offered | accepted | rejected => exact .of_eq rfl rfl rfl
  | plain hp => exact ⟨fun codec => hnone (hp ▸ trivial) codec _, List.prefix_rfl, .inr rfl⟩
  | exchanged hp => exact ⟨fun codec => hnone (hp ▸ trivial) codec _, List.prefix_rfl, .inr rfl⟩
  | presented | unpresented => exact ⟨fun _ hc => hc, List.prefix_append .., .inr rfl⟩
  | asked hp => exact ⟨fun _ hc => hc, List.prefix_rfl, .inl (h.unasked (hp ▸ trivial))⟩

theorem Sound.shook (h : Sound setup P s) {op : ConnOp W} {conn : Conn}
    (hs : Shakes setup (s.conns c) op conn) : Sound setup P (s.setConn c conn) := by
  refine h.setConn ((h.conns c).shakes hs) ((h.conns c).extends_shakes hs) ?_
  cases hs with
  | asked hp hauth => exact .inr ((h.conns c).not_admitted (hp ▸ trivial) hauth)
  | _ => exact .inl rfl

/-- Who enters the table has been let in, with the context that is stored. -/
theorem Sound.entered (h : Sound setup P s) {op : ConnOp W} {conn : Conn} {w : W}
    {output : Option AuthOutput} (hs : Shakes setup (s.conns c) op conn)
    (hin : entering setup op (s.conns c).phase = some (w, output)) :
    Sound setup P (Wscall.Server.enter setup (s.setConn c conn) c w output) := by
  have hconn := h.conns c
  obtain ⟨hcalls, hstands⟩ := hs.stands hin
  refine (h.shook hs).enter ?_ w ?_ <;> rw [State.setConn_self]
  · cases output with
    | none =>
      intro hauth
      rw [hstands.1] at hauth
      cases hauth
    | some output =>
      obtain ⟨bytes, hp⟩ := hstands
      exact (hconn.live (hp ▸ trivial)).mono (hconn.extends_shakes hs)
  · cases output with
    | none =>
      intro credential output hmem
      rw [hcalls, hconn.unasked hstands.2.unasked] at hmem
      cases hmem
    | some output =>
      obtain ⟨bytes, hp⟩ := hstands
      exact (hconn.replying output bytes hp).mono hcalls

/-! ### The other moves -/

theorem Sound.accept (h : Sound setup P s) (hp : (s.conns c).phase = .absent) (peer : SocketAddr)
    {phase : Phase} (hphase : phase = .upgrading ∨ phase = .ended) :
    Sound setup P (s.setConn c (Conn.new peer phase)) := by
  have hconn := h.conns c
  have hearly : (s.conns c).phase.Early := hp ▸ trivial
  obtain ⟨hcodec, hinbox, -⟩ := hconn.early hearly
  refine h.setConn (connOk_new peer (.inr hphase)) ⟨fun _ hc => ?_, ?_, ?_⟩ (.inl ?_)
  · simp [hcodec] at hc
  · simp [hinbox]
  · exact .inl (hconn.unasked hearly.unasked)
  · exact (hconn.unasked hearly.unasked).symm

theorem Reads.steady {codec : FrameCodec} {now : ℕ} {random : Except String Nonce}
    {message : Option WsMessage} {phase : Phase} (own : OwnItems setup Q)
    (h : Reads setup s c codec now random message phase) : phase.Steady Q := by
  cases h with
  | refused _ _ hitem => exact own.outbound _ _ _ hitem
  | _ => trivial

/-- A message is logged and the reader goes on. -/
theorem Sound.read (h : Sound setup P s) (hp : (s.conns c).phase = .reading)
    (message : Option WsMessage) {phase : Phase} (hphase : phase.Steady P.item) :
    Sound setup P (s.setConn c { s.conns c with
      phase := phase
      inbox := (s.conns c).inbox ++ message.toList }) := by
  have hext := extends_logged (s.conns c) message phase
  have hlive : Admitted setup (s.conns c) := (h.conns c).live (hp ▸ trivial)
  exact h.setConn ((h.conns c).of_live (hlive.mono hext) hphase rfl rfl (h.conns c).items) hext
    (.inl rfl)

theorem Sound.greeted (h : Sound setup P s) (own : OwnItems setup P.item)
    (hp : (s.conns c).phase = .notifying) {random : Except String Nonce} {packet : PacketEnvelope}
    {item : ServerOutbound}
    (hitem : setup.server.handle.outbound setup.libs random packet = .ok item) :
    Sound setup P (s.setConn c { s.conns c with
      channel := { (s.conns c).channel with writing := true }.push item
      phase := .reading }) := by
  have hitems : ∀ i ∈ ({ (s.conns c).channel with writing := true } : Channel).queue, P.item i :=
    (h.conns c).items
  exact h.setLive ((h.conns c).live (hp ▸ trivial)) .reading trivial
    (mem_push hitems (own.outbound _ _ _ hitem)) _

/-- The teardown of a live connection, perhaps with its writer just started. -/
theorem Sound.closed (h : Sound setup P s) (own : OwnItems setup P.item) {conn : Conn}
    (hlive : Admitted setup (s.conns c)) (hok : ConnOk setup P.item conn)
    (hext : (s.conns c).Extends conn) (hcalls : conn.authCalls = (s.conns c).authCalls) :
    Sound setup P (Wscall.Server.teardown (s.setConn c conn) c) := by
  refine (h.setConn hok hext (.inl hcalls)).teardown own ?_
  rw [State.setConn_self]
  exact hlive.mono hext

theorem Sound.held (h : Sound setup P s) (own : OwnItems setup P.item) {item : ServerOutbound}
    (hp : (s.conns c).phase.held = some item) :
    Sound setup P (s.setConn c { s.conns c with
      channel := (s.conns c).channel.push item
      phase := .reading }) := by
  have hconn := h.conns c
  have hboth : Admitted setup (s.conns c) ∧ P.item item := by
    generalize hphase : (s.conns c).phase = p at hp
    cases p with
    | queueing item' =>
      cases hp
      exact ⟨hconn.live (hphase ▸ trivial), hconn.queueing item hphase⟩
    | ponging payload =>
      cases hp
      exact ⟨hconn.live (hphase ▸ trivial), own.pong payload⟩
    | _ => cases hp
  exact h.setLive hboth.1 .reading trivial (mem_push hconn.items hboth.2) _

theorem Sound.setChannel (h : Sound setup P s) {channel : Channel}
    (ha : channel.queue ≠ [] → Admitted setup (s.conns c)) (hq : ∀ i ∈ channel.queue, P.item i)
    {sent : List WireMessage}
    (hw : ∀ bytes, .frame bytes ∈ sent → ∃ codec random item, (s.conns c).codec = some codec ∧
      P.item item ∧ writeItem setup.libs codec random item = (some (.frame bytes), true)) :
    Sound setup P (s.setConn c { s.conns c with channel := channel, sent := sent }) := by
  have hconn := h.conns c
  exact h.setConn ⟨hconn.1, hconn.2, hconn.3, hconn.4, hconn.5, hconn.6,
    fun hne => (ha hne).mono (.of_eq rfl rfl rfl), hconn.8, hq, hconn.10, hw⟩ (.of_eq rfl rfl rfl)
    (.inl rfl)

theorem writeItem_frame {libs : Libs} {codec : FrameCodec} {random : Except String Nonce}
    {item : ServerOutbound} {bytes : Bytes} {goesOn : Bool}
    (h : writeItem libs codec random item = (some (.frame bytes), goesOn)) : goesOn = true := by
  unfold writeItem at h
  split at h
  · exact (congrArg Prod.snd h).symm
  · split at h
    · exact (congrArg Prod.snd h).symm
    · cases congrArg Prod.fst h
  · cases congrArg Prod.fst h
  · cases congrArg Prod.fst h

theorem Sound.wrote (h : Sound setup P s) {codec : FrameCodec} {random : Except String Nonce}
    {item : ServerOutbound} {rest : List ServerOutbound} {message : Option WireMessage} {goesOn : Bool}
    (hqueue : (s.conns c).channel.queue = item :: rest) (hc : (s.conns c).codec = some codec)
    (hw : writeItem setup.libs codec random item = (message, goesOn)) :
    Sound setup P (s.setConn c { s.conns c with
      sent := (s.conns c).sent ++ message.toList
      channel := if goesOn then { (s.conns c).channel with queue := rest } else ⟨[], false, false⟩ }) := by
  have hconn := h.conns c
  have hitem : P.item item := hconn.items item (by simp [hqueue])
  refine h.setChannel (fun _ => hconn.queued (by simp [hqueue])) (fun i hi => ?_) (fun bytes hmem => ?_)
  · split at hi
    · exact hconn.items i (by simp_all)
    · cases hi
  · rcases List.mem_append.mp hmem with hmem | hmem
    · exact hconn.written bytes hmem
    · rw [Option.mem_toList] at hmem
      cases hmem
      cases writeItem_frame hw
      exact ⟨codec, random, item, hc, hitem, hw⟩

theorem Sound.finishTask (h : Sound setup P s) {t : ℕ} {task : HandlerTask}
    (ha : Admitted setup (s.conns task.connectionId)) :
    Sound setup P (Wscall.Server.finishTask s t task) := by
  have htask := h.setTask t { task with pc := .finished } ha (fun _ he => by cases he)
  have hconn := h.conns task.connectionId
  exact htask.setConn ⟨hconn.1, hconn.2, hconn.3, hconn.4, hconn.5, hconn.6, hconn.7, hconn.8,
    hconn.9, hconn.10, hconn.11⟩ (.of_eq rfl rfl rfl) (.inl rfl)

/-- After the callbacks of a task. -/
theorem Sound.ran (h : Sound setup P s) {t : ℕ} {w : W}
    (ha : Admitted setup (s.conns (s.tasks t).connectionId))
    (hrun : ∀ call ∈ (execTask setup s (s.tasks t) w).calls,
      P.call (s.conns (s.tasks t).connectionId) call) :
    Sound setup P { s with calls := callsAfter setup s t w } := by
  refine ⟨h.1, h.2, h.3, h.4, h.5, h.6, h.7, fun call hcall => ?_⟩
  rcases List.mem_append.mp hcall with hcall | hcall
  · exact h.calls call hcall
  · obtain ⟨call', hmem, rfl⟩ := List.mem_map.mp hcall
    exact ⟨ha, hrun call' hmem⟩

theorem Sound.pushed (h : Sound setup P s) {item : ServerOutbound} (ha : Admitted setup (s.conns c))
    (hq : P.item item) :
    Sound setup P (s.setConn c { s.conns c with channel := (s.conns c).channel.push item }) :=
  h.setChannel (fun _ => ha) (mem_push (h.conns c).items hq) (h.conns c).written

theorem Sound.setPushes (h : Sound setup P s) {limiter : Option RateLimiterState} {n : UInt64}
    {pushes : ℕ → Option ServerOutbound} (hq : ∀ k item, pushes k = some item → P.item item) :
    Sound setup P { s with limiter := limiter, nextEventId := n, pushes := pushes } :=
  ⟨h.1, h.2, h.3, h.4, h.5, hq, h.7, h.8⟩

/-! ### Every move -/

theorem Sound.move (h : Sound setup P s) (own : OwnItems setup P.item) {a : Action W} {s' : State}
    (hop : ∀ handle, a.handle? = some handle → HandleItems setup P.item handle)
    (hrun : ∀ t w, a = .task t (.run w) → ∀ call ∈ (execTask setup s (s.tasks t) w).calls,
      P.call (s.conns (s.tasks t).connectionId) call)
    (hm : Move setup s a s') : Sound setup P s' := by
  have hlive : ∀ {c p}, (s.conns c).phase = p → p.Live → Admitted setup (s.conns c) :=
    fun hp hl => (h.conns _).live (hp ▸ hl)
  have htask : ∀ {t pc}, (s.tasks t).pc = pc → pc ≠ .absent →
      Admitted setup (s.conns (s.tasks t).connectionId) := fun hpc hne => h.tasks _ (hpc ▸ hne)
  have hpushed : ∀ {handle? item}, (∀ handle, handle? = some handle → HandleItems setup P.item handle) →
      PushedBy setup handle? item → P.item item := by
    intro handle? item hitems hby
    obtain ⟨handle, heq, -, e, eventId, random, hitem⟩ := hby
    exact hitems handle heq _ _ _ hitem
  cases hm with
  | @accepted c peer now limiter phase hp hphase => exact (h.setLimiter limiter).accept hp peer hphase
  | shook hs => exact h.shook hs
  | entered hs hin => exact h.entered hs hin
  | greeted hp hitem => exact (h.setEventId (s.nextEventId + 1)).greeted own hp hitem
  | @ungreeted c random hp =>
    have ha := hlive hp trivial
    refine (h.setEventId (s.nextEventId + 1)).closed own ha ?_ (.of_eq rfl rfl rfl) rfl
    exact (h.conns c).of_live (ha.mono (.of_eq rfl rfl rfl)) (hp ▸ trivial) rfl rfl (h.conns c).items
  | @read c codec message now random limiter phase hp hc hreads =>
    exact (h.setLimiter limiter).read hp message (hreads.steady own)
  | @hungUp c codec message now random hp hc =>
    have ha := hlive hp trivial
    have hext := extends_logged (s.conns c) message (s.conns c).phase
    refine h.closed own ha ?_ hext rfl
    exact (h.conns c).of_live (ha.mono hext) (hp ▸ trivial) rfl rfl (h.conns c).items
  | queued hp => exact h.held own hp
  | unqueued hp => exact h.setPhase (hlive hp trivial) trivial
  | unponged hp => exact h.teardown own (hlive hp trivial)
  | @acquired c t body hp =>
    have ha := hlive hp trivial
    have hset := h.setTask t ⟨c, body, .spawned⟩ ha (fun _ he => by cases he)
    exact hset.setLive ha .reading trivial (h.conns c).items _
  | graceOver hp => exact h.setLive (hlive hp trivial) .ended trivial (by simp) _
  | @ticked c hw =>
    have hping : ∀ bytes, WireMessage.ping ≠ .frame bytes := by simp
    exact h.setConn ((h.conns c).wired hping) (.of_eq rfl rfl rfl) (.inl rfl)
  | stopped => exact h.setChannel (fun hne => absurd rfl hne) (by simp) (h.conns _).written
  | wrote hw hq hc hmsg => exact h.wrote hq hc hmsg
  | @ran t w packet ht hres =>
    have ha := htask ht (by simp)
    exact (h.ran ha (hrun t w rfl)).setTask t _ ha (fun _ he => by cases he)
  | @encoded t random packet item ht hin hitem =>
    refine h.setTask t _ (htask ht (by simp)) fun item' he => ?_
    cases he
    exact own.outbound _ _ _ hitem
  | @answered t item ht halive hroom =>
    have ha := htask ht (by simp)
    refine (h.pushed ha (h.sending t item ht)).finishTask ?_
    rw [State.setConn_self]
    exact ha.mono (.of_eq rfl rfl rfl)
  | @finished t op calls hf =>
    cases hf with
    | @silent w ht =>
      have ha := htask ht (by simp)
      exact (h.ran ha (hrun t w rfl)).finishTask ha
    | dropped ht => exact h.finishTask (htask ht (by simp))
    | unsent ht => exact h.finishTask (htask ht (by simp))
  | @delivered k op c item n hitem hin halive hroom =>
    refine (h.setEventId n).pushed (h.admitted c hin) ?_
    rcases hitem with hitem | hitem
    · exact h.pushes k item hitem
    · exact hpushed hop hitem
  | aside ha hpushes =>
    refine h.setPushes fun k item hk => ?_
    rcases hpushes k item hk with hold | hnew
    · exact h.pushes k item hold
    · exact hpushed hop hnew

theorem Sound.step (h : Sound setup P s) (own : OwnItems setup P.item) {a : Action W} {s' : State}
    (hop : ∀ handle, a.handle? = some handle → HandleItems setup P.item handle)
    (hrun : ∀ t w, a = .task t (.run w) → ∀ call ∈ (execTask setup s (s.tasks t) w).calls,
      P.call (s.conns (s.tasks t).connectionId) call)
    (hs : step setup a s = some s') : Sound setup P s' := h.move own hop hrun (move_of_step hs)

end Shared

end Rules

end Wscall.Server
