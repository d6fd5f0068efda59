import Wscall.Server.EventAcks
import Wscall.Server.Settling

/-!
# Requests and events in a running server

What is queued for one request or one event, whatever else the server does in between.
-/

namespace Wscall.Server
open RustStd Protocol

section Exchange

variable {W : Type}

/-- A connection's reader takes a binary message in a state of a server, and the server goes on. -/
structure Exchange (setup : Setup W) (c : String) (codec : FrameCodec) (bytes : Bytes) (now : ℕ)
    (random : Except String Nonce) (s : State) (y : State × Course W) : Prop where
  reachable : Reachable setup s
  reading : (s.conns c).phase = .reading
  session : (s.conns c).codec = some codec
  run : ∃ s₁ actions, step setup (.conn c (.received (some (.binary bytes)) now random)) s = some s₁ ∧
    Machine.run (tracked setup c) actions (s₁, Course.start c s s₁ random) = some y

variable {setup : Setup W} {c : String} {codec : FrameCodec} {bytes : Bytes} {now : ℕ}
  {random : Except String Nonce} {s : State} {y : State × Course W} {body : PacketBody}
  {intake : WscallServer.Intake}

theorem Exchange.follows (h : Exchange setup c codec bytes now random s y)
    (ht : Takes setup s c codec now bytes body intake) : Follows setup c body intake y := by
  obtain ⟨s₁, actions, hs, hrun⟩ := h.run
  exact (follows_start h.reachable h.reading h.session ht hs).run hrun

theorem Exchange.maxFrameBytes (h : Exchange setup c codec bytes now random s y) :
    codec.maxFrameBytes = setup.server.maxFrameBytes := by
  obtain ⟨actions, hrun⟩ := h.reachable
  exact (((sound_run hrun).conns c).session codec h.session).maxFrameBytes

theorem Exchange.takes_data (h : Exchange setup c codec bytes now random s y) {p : PacketEnvelope}
    (hd : codec.decode setup.libs bytes = .ok p)
    (hdata : WscallServer.isDataMessage p.body = true) :
    Takes setup s c codec now bytes p.body
      (intakeOf setup s.limiter c (s.conns c).peer now bytes p.body) := by
  have hfast := fastReject_of_decode hd
  rw [h.maxFrameBytes] at hfast
  exact .data hfast hd hdata

theorem Follows.ended (h : Follows setup c body intake y) (hs : y.2.holder.Settled) :
    y.2.Ended setup c body intake := by
  cases h.place with
  | refused hh | waiting hh | spawned hh | answering hh | sending hh =>
    rw [hh] at hs
    exact hs.elim
  | ended hend => exact hend

theorem start_holder_ne (s s₁ : State) (t : ℕ) :
    (Course.start c s s₁ random : Course W).holder ≠ .task t := by
  unfold Course.start
  dsimp only
  split <;> simp

theorem start_ran (s s₁ : State) (x : State × W) :
    (Course.start c s s₁ random : Course W).ran ≠ some x := by
  unfold Course.start
  dsimp only
  split <;> simp

/-- Without permits a message that is not refused stays with the reader. -/
theorem Exchange.stuck (h : Exchange setup c codec bytes now random s y)
    (ht : Takes setup s c codec now bytes body .spawn) (hcap : setup.server.maxInFlight = 0) :
    y.2.holder = .reader ∧ y.2.ran = none ∧ y.2.queued = [] := by
  have hfollows := h.follows ht
  obtain ⟨s₁, actions, hs, hrun⟩ := h.run
  have hstart : (Course.start c s s₁ random : Course W).holder = .reader ∧
      (s₁.conns c).phase = .acquiring body := by
    cases (follows_start h.reachable h.reading h.session ht hs).place with
    | waiting hh hp => exact ⟨hh, hp⟩
    | spawned hh | answering hh | sending hh => exact absurd hh (start_holder_ne s s₁ _)
    | ended hend =>
      cases hend with
      | silent hran | answered hran => exact absurd hran (start_ran s s₁ _)
  have hstays : y.2.holder = .reader ∧ (y.1.conns c).phase = .acquiring body := by
    refine Machine.run_invariant (I := fun x : State × Course W =>
      x.2.holder = .reader ∧ (x.1.conns c).phase = .acquiring body) (fun a x x' hx hstep => ?_) hrun
      hstart
    obtain ⟨hstep, hnext⟩ := Machine.noting_eq_some hstep
    have ha : ∀ op, a ≠ .conn c op := by
      rintro op rfl
      obtain ⟨t, -, hroom, -⟩ := acquiring_of_step hx.2 hstep
      omega
    rw [hnext, Course.next_of_reader hx.1 ha]
    exact ⟨hx.1, (unread_of_move (move_of_step hstep) ha).phase.trans hx.2⟩
  cases hfollows.place with
  | waiting hh _ hran hfresh => exact ⟨hh, hran, hfresh.queued⟩
  | spawned hh | answering hh | sending hh =>
    rw [hstays.1] at hh
    cases hh
  | ended _ hship =>
    have hsettled := hship.settled
    rw [hstays.1] at hsettled
    exact hsettled.elim

/-- The limiter's verdict on a message, as it is read. -/
def verdictOn (setup : Setup W) (s : State) (c : String) (now : ℕ) (bytes : Bytes) : Option Verdict :=
  (WscallServer.checkLimits s.limiter setup.clock now c (s.conns c).peer.ip
    (UInt64.ofNat bytes.length)).1

/-- The packet comes of the message and can be queued: `process_packet` returned it, or the
limiter refused the message and it is the refusal. -/
def Course.Responds (setup : Setup W) (c : String) (body : PacketBody) (refusal : PacketEnvelope)
    (verdict : Option Verdict) (packet : PacketEnvelope) (k : Course W) : Prop :=
  match verdict with
  | none => False
  | some .allowed => (∃ s w, k.ran = some (s, w) ∧
      (execTask setup s ⟨c, body, .spawned⟩ w).result = some (some packet)) ∧ k.Queues setup c packet
  | some _ => packet = refusal ∧ k.Queues setup c packet

theorem Course.Ended.responds {refusal : PacketEnvelope} {verdict : Option Verdict} {k : Course W}
    (h : k.Ended setup c body (WscallServer.byVerdict refusal verdict)) :
    (verdict ≠ some .allowed → k.ran = none) ∧
      ((k.queued = [] ∧ ∀ packet, ¬ k.Responds setup c body refusal verdict packet) ∨
        ∃ item random packet, k.queued = [item] ∧
          setup.server.handle.outbound setup.libs random packet = .ok item ∧
          k.Responds setup c body refusal verdict packet) := by
  generalize hi : WscallServer.byVerdict refusal verdict = intake at h
  cases h with
  | unwound hran hqueued =>
    rcases verdict with _ | _ | _ | _ <;> cases hi
    exact ⟨fun _ => hran, .inl ⟨hqueued, fun _ hno => hno⟩⟩
  | @silent s w hran hres hqueued =>
    rcases verdict with _ | _ | _ | _ <;> cases hi
    refine ⟨fun hne => absurd rfl hne, .inl ⟨hqueued, ?_⟩⟩
    rintro packet ⟨⟨s', w', hran', hres'⟩, -⟩
    rw [hran] at hran'
    cases hran'
    exact hres packet hres'
  | @answered s w packet hran hres hdelivers =>
    rcases verdict with _ | _ | _ | _ <;> cases hi
    refine ⟨fun hne => absurd rfl hne, ?_⟩
    rcases hdelivers.queued_or with ⟨hqueued, hno⟩ | ⟨item, random, hqueued, hitem, hq⟩
    · refine .inl ⟨hqueued, ?_⟩
      rintro packet' ⟨⟨s', w', hran', hres'⟩, hq⟩
      rw [hran] at hran'
      cases hran'
      rw [hres] at hres'
      cases hres'
      exact hno hq
    · exact .inr ⟨item, random, packet, hqueued, hitem, ⟨s, w, hran, hres⟩, hq⟩
  | refused hran hdelivers =>
    rcases verdict with _ | _ | _ | _ <;> cases hi
    all_goals
      refine ⟨fun _ => hran, ?_⟩
      rcases hdelivers.queued_or with ⟨hqueued, hno⟩ | ⟨item, random, hqueued, hitem, hq⟩
      · refine .inl ⟨hqueued, ?_⟩
        rintro packet ⟨rfl, hq⟩
        exact hno hq
      · exact .inr ⟨item, random, refusal, hqueued, hitem, rfl, hq⟩

end Exchange

/-! ### Requests -/

section Request

variable {W : Type} (setup : Setup W) (c : String) (r : ApiRequestInput)

/-- One item was queued, a response to the request. If the limiter refused the request it is the
503, and no callback ran. -/
def Course.AnsweredOnce (verdict : Option Verdict) (k : Course W) : Prop :=
  ∃ item packet random, k.queued = [item] ∧
    setup.server.handle.outbound setup.libs random packet = .ok item ∧
    WscallServer.RespondsTo r.requestId packet ∧
    (verdict ≠ some .allowed → k.ran = none ∧
      packet = serviceBusyPacket r.requestId setup.server.defaultEncryption)

/-- The limiter does not panic. If it refuses the request, the 503 can be queued; otherwise the
filters, the route handler and the exception handler bring the request to a result, and the
response can be queued. -/
def Course.Answerable (verdict : Option Verdict) (k : Course W) : Prop :=
  match verdict with
  | none => False
  | some .allowed => ∃ s w result packet, k.ran = some (s, w) ∧
      setup.server.Settles w setup.server.filters
        (setup.server.apiContext c (some (s.conns c).peer) (lookupAuthContext s c) r) result ∧
      setup.server.Answers w c r result packet ∧ k.Queues setup c packet
  | some _ => k.Queues setup c (serviceBusyPacket r.requestId setup.server.defaultEncryption)

variable {setup c r} {k : Course W} {verdict : Option Verdict}

theorem Course.answerable_iff : k.Answerable setup c r verdict ↔
    ∃ packet, k.Responds setup c r.body
      (serviceBusyPacket r.requestId setup.server.defaultEncryption) verdict packet := by
  have hrun : ∀ s w packet, (execTask setup s ⟨c, r.body, .spawned⟩ w).result = some (some packet) ↔
      ∃ result, setup.server.Settles w setup.server.filters
        (setup.server.apiContext c (some (s.conns c).peer) (lookupAuthContext s c) r) result ∧
        setup.server.Answers w c r result packet :=
    fun _ _ _ => WscallServer.processPacket_request_iff
  unfold Course.Answerable Course.Responds
  rcases verdict with _ | _ | _ | _
  · simp
  · constructor
    · rintro ⟨s, w, result, packet, hran, hs, ha, hq⟩
      exact ⟨packet, ⟨s, w, hran, (hrun s w packet).mpr ⟨result, hs, ha⟩⟩, hq⟩
    · rintro ⟨packet, ⟨s, w, hran, hres⟩, hq⟩
      obtain ⟨result, hs, ha⟩ := (hrun s w packet).mp hres
      exact ⟨s, w, result, packet, hran, hs, ha, hq⟩
  · simp
  · simp

theorem Course.Responds.respondsTo {packet : PacketEnvelope}
    (h : k.Responds setup c r.body (serviceBusyPacket r.requestId setup.server.defaultEncryption)
      verdict packet) : WscallServer.RespondsTo r.requestId packet ∧ (verdict ≠ some .allowed →
        packet = serviceBusyPacket r.requestId setup.server.defaultEncryption) := by
  unfold Course.Responds at h
  rcases verdict with _ | _ | _ | _
  · exact h.elim
  · obtain ⟨⟨s, w, -, hres⟩, -⟩ := h
    obtain ⟨result, -, ha⟩ := WscallServer.processPacket_request_iff.mp hres
    exact ⟨ha.respondsTo, fun hne => absurd rfl hne⟩
  · obtain ⟨rfl, -⟩ := h
    exact ⟨⟨_, _, _, _, _, rfl⟩, fun _ => rfl⟩
  · obtain ⟨rfl, -⟩ := h
    exact ⟨⟨_, _, _, _, _, rfl⟩, fun _ => rfl⟩

theorem Course.Ended.answeredOnce_iff
    (h : k.Ended setup c r.body (WscallServer.byVerdict
      (serviceBusyPacket r.requestId setup.server.defaultEncryption) verdict)) :
    k.AnsweredOnce setup r verdict ↔ k.Answerable setup c r verdict := by
  rw [Course.answerable_iff]
  obtain ⟨hran, hcases⟩ := h.responds
  constructor
  · rintro ⟨item, -, -, hqueued, -⟩
    rcases hcases with ⟨hnone, -⟩ | ⟨-, -, packet, -, -, hresponds⟩
    · rw [hnone] at hqueued
      cases hqueued
    · exact ⟨packet, hresponds⟩
  · rintro ⟨packet, hresponds⟩
    rcases hcases with ⟨-, hno⟩ | ⟨item, random, packet', hqueued, hitem, hresponds'⟩
    · exact absurd hresponds (hno packet)
    · obtain ⟨hto, hbusy⟩ := hresponds'.respondsTo
      exact ⟨item, packet', random, hqueued, hitem, hto, fun hne => ⟨hran hne, hbusy hne⟩⟩

end Request

/-! A connection to a plaintext server, and a message on it. -/

/-- serde_json on the bodies of these sessions: the greeting, the answer to a request and the
acknowledgement of an event for which there is no handler. -/
def exchangeJson : SerdeJson where
  nestingLimit := 127
  toWriter
    | .object [("k", .number (.posInt 1)), ("i", .number (.posInt 1)), ("n", .string "system.notice"),
        ("d", .object [("connection_id", .string "c"), ("message", .string "connected")]),
        ("m", .object [("source", .string "server")]), ("e", .bool true)] =>
      .ok (asBytes "\x7b\"k\":1,\"i\":1,\"n\":\"system.notice\",\"d\":\x7b\"connection_id\":\"c\",\"message\":\"connected\"\x7d,\"m\":\x7b\"source\":\"server\"\x7d,\"e\":true\x7d")
    | .object [("k", .number (.posInt 2)), ("i", .number (.posInt 7)), ("o", .bool true),
        ("s", .number (.posInt 200)), ("d", .null)] =>
      .ok (asBytes "\x7b\"k\":2,\"i\":7,\"o\":true,\"s\":200,\"d\":null\x7d")
    | .object [("k", .number (.posInt 3)), ("i", .number (.posInt 7)), ("o", .bool false),
        ("rc", .object []), ("er", .object [("code", .string "not_found"),
          ("message", .string "event handler not found"), ("status", .number (.posInt 404))])] =>
      .ok (asBytes "\x7b\"k\":3,\"i\":7,\"o\":false,\"rc\":\x7b\x7d,\"er\":\x7b\"code\":\"not_found\",\"message\":\"event handler not found\",\"status\":404\x7d\x7d")
    | _ => .error .serde
  fromSlice text :=
    if text = asBytes "\x7b\"k\":0,\"i\":7,\"r\":\"echo\",\"p\":null\x7d" then
      .ok (.ofTree (.object [("k", .number (.posInt 0)), ("i", .number (.posInt 7)),
        ("r", .string "echo"), ("p", .null)]))
    else if text = asBytes "\x7b\"k\":1,\"i\":7,\"n\":\"tick\",\"d\":\x7b\x7d,\"e\":false\x7d" then
      .ok (.ofTree (.object [("k", .number (.posInt 1)), ("i", .number (.posInt 7)),
        ("n", .string "tick"), ("d", .object []), ("e", .bool false)]))
    else .error .serde

def plainSetup (server : WscallServer Unit) : Setup Unit :=
  ⟨⟨exchangeJson, tagged, tagged⟩, ⟨id, fun secret _ => secret⟩, none, server, []⟩

/-- From the TCP connection to the reader loop. -/
def openRun : List (Action Unit) :=
  [.conn "c" (.accept ⟨.v4 1, 1⟩ 0), .conn "c" (.upgraded true (.error "unused") ()),
    .conn "c" (.notified (.error "unused"))]

/-- The reader gets a permit, and the handler runs, answers and hands the answer over. -/
def answerRun : List (Action Unit) :=
  [.conn "c" (.acquired 0), .task 0 (.run ()), .task 0 (.queue (.error "unused")), .task 0 .send]

/-- The state in which a message on the connection is read, and what comes of it. -/
def exchanged (setup : Setup Unit) (opening : List (Action Unit)) (bytes : Bytes)
    (after : List (Action Unit)) : Option (State × State × Course Unit) := do
  let s ← Machine.run (step setup) opening (State.init setup)
  let s₁ ← step setup (.conn "c" (.received (some (.binary bytes)) 0 (.error "unused"))) s
  let y ← Machine.run (tracked setup "c") after (s₁, Course.start "c" s s₁ (.error "unused"))
  return (s, y)

def Phase.isReading : Phase → Bool
  | .reading => true
  | _ => false

theorem exists_exchange (setup : Setup Unit) (opening : List (Action Unit)) (bytes : Bytes)
    (after : List (Action Unit)) (codec : FrameCodec) (P : State × Course Unit → Bool)
    (h : (exchanged setup opening bytes after).any (fun x => (x.1.conns "c").phase.isReading &&
      decide ((x.1.conns "c").codec = some codec) && P x.2) = true) :
    ∃ s s' k, Exchange setup "c" codec bytes 0 (.error "unused") s (s', k) ∧ P (s', k) = true := by
  obtain ⟨⟨s, s', k⟩, hx, hp⟩ := (Option.any_eq_true ..).mp h
  simp only [Bool.and_eq_true, decide_eq_true_eq] at hp
  obtain ⟨⟨hreading, hc⟩, hP⟩ := hp
  simp only [exchanged, Option.bind_eq_bind, Option.bind_eq_some_iff, Option.pure_def,
    Option.some.injEq, Prod.mk.injEq] at hx
  obtain ⟨s₀, hs₀, s₁, hs₁, y, hy, rfl, rfl⟩ := hx
  refine ⟨s₀, s', k, ⟨⟨opening, hs₀⟩, ?_, hc, s₁, after, hs₁, hy⟩, hP⟩
  generalize (s₀.conns "c").phase = p at hreading
  cases p with
  | reading => rfl
  | _ => cases hreading

/-- The session codec of a plaintext server with the default limit. -/
def plainCodec : FrameCodec := FrameCodec.plaintext.withMaxFrameBytes FrameCodec.defaultMaxFrameBytes

/-- The body of a message. -/
def bodyOf (bytes : Bytes) : Option PacketBody :=
  match plainCodec.decode ⟨exchangeJson, tagged, tagged⟩ bytes with
  | .ok p => some p.body
  | .error _ => none

theorem decode_of_bodyOf {bytes : Bytes} {body : PacketBody} (h : bodyOf bytes = some body) :
    ∃ p, plainCodec.decode ⟨exchangeJson, tagged, tagged⟩ bytes = .ok p ∧ p.body = body := by
  unfold bodyOf at h
  split at h
  · cases h
    exact ⟨_, ‹_›, rfl⟩
  · cases h

def echoServer : WscallServer Unit :=
  { WscallServer.new with
    routes := fun route => if route = "echo" then some fun _ ctx => .returns (.ok ctx.params) else none }

def echoInput : ApiRequestInput := ⟨7, "echo", .null, [], .null⟩

theorem bodyOf_echo : bodyOf echoFrame = some echoInput.body := by rfl

section Event

variable {W : Type} (setup : Setup W) (c : String) (e : EventEmitInput)

/-- The item is an acknowledgement of the event. -/
def CarriesAck (eventId : UInt64) (item : ServerOutbound) : Prop :=
  ∃ random packet, setup.server.handle.outbound setup.libs random packet = .ok item ∧
    packet.acks eventId = true

/-- One acknowledgement was queued if it was asked for, and none otherwise. -/
def Course.AcksAsAsked (expectAck : Bool) (k : Course W) : Prop :=
  if expectAck then ∃ item, k.queued = [item] ∧ CarriesAck setup e.eventId item
  else ∀ item ∈ k.queued, ¬ CarriesAck setup e.eventId item

/-- The limiter does not panic. If it refuses the event, the acknowledgement with the empty receipt
can be queued; otherwise the event handler and the exception handler bring the event to a result,
and its acknowledgement can be queued. -/
def Course.Acknowledges (verdict : Option Verdict) (k : Course W) : Prop :=
  match verdict with
  | none => False
  | some .allowed => ∃ s w result, k.ran = some (s, w) ∧
      setup.server.EventSettles w c (some (s.conns c).peer) (lookupAuthContext s c) e result ∧
      k.Queues setup c (eventAck e.eventId result setup.server.defaultEncryption)
  | some _ => k.Queues setup c (silentAckPacket e.eventId setup.server.defaultEncryption)

variable {setup c e} {k : Course W} {verdict : Option Verdict} {expectAck : Bool}

theorem Course.acknowledges_iff (expectAck : Bool) : k.Acknowledges setup c e verdict ↔
    ∃ packet, k.Responds setup c (e.body expectAck)
      (silentAckPacket e.eventId setup.server.defaultEncryption) verdict packet := by
  have hrun : ∀ s w packet,
      (execTask setup s ⟨c, e.body expectAck, .spawned⟩ w).result = some (some packet) ↔
        ∃ result, setup.server.EventSettles w c (some (s.conns c).peer) (lookupAuthContext s c) e
            result ∧
          packet = eventAck e.eventId result setup.server.defaultEncryption :=
    fun _ _ _ => WscallServer.processPacket_event_iff expectAck
  unfold Course.Acknowledges Course.Responds
  rcases verdict with _ | _ | _ | _
  · simp
  · constructor
    · rintro ⟨s, w, result, hran, hs, hq⟩
      exact ⟨_, ⟨s, w, hran, (hrun s w _).mpr ⟨result, hs, rfl⟩⟩, hq⟩
    · rintro ⟨packet, ⟨s, w, hran, hres⟩, hq⟩
      obtain ⟨result, hs, rfl⟩ := (hrun s w packet).mp hres
      exact ⟨s, w, result, hran, hs, hq⟩
  · simp
  · simp

theorem Course.Responds.acks {packet : PacketEnvelope}
    (h : k.Responds setup c (e.body expectAck)
      (silentAckPacket e.eventId setup.server.defaultEncryption) verdict packet) :
    packet.acks e.eventId = true := by
  unfold Course.Responds at h
  rcases verdict with _ | _ | _ | _
  · exact h.elim
  · obtain ⟨⟨s, w, -, hres⟩, -⟩ := h
    obtain ⟨result, -, rfl⟩ := (WscallServer.processPacket_event_iff expectAck).mp hres
    exact WscallServer.eventAck_acks ..
  · obtain ⟨rfl, -⟩ := h
    exact WscallServer.eventAck_acks ..
  · obtain ⟨rfl, -⟩ := h
    exact WscallServer.eventAck_acks ..

theorem Course.Ended.acksAsAsked_iff
    (h : k.Ended setup c (e.body expectAck) (WscallServer.byVerdict
      (silentAckPacket e.eventId setup.server.defaultEncryption) verdict)) :
    k.AcksAsAsked setup e expectAck ↔ (expectAck = true ↔ k.Acknowledges setup c e verdict) := by
  have hacks : ∀ item random packet,
      setup.server.handle.outbound setup.libs random packet = .ok item →
      k.Responds setup c (e.body expectAck)
        (silentAckPacket e.eventId setup.server.defaultEncryption) verdict packet →
      CarriesAck setup e.eventId item :=
    fun item random packet hitem hresponds => ⟨random, packet, hitem, hresponds.acks⟩
  obtain ⟨-, hcases⟩ := h.responds
  rw [Course.acknowledges_iff expectAck]
  rcases hcases with ⟨hnone, hno⟩ | ⟨item, random, packet, hqueued, hitem, hresponds⟩
  · have hnobody : ¬ ∃ packet, k.Responds setup c (e.body expectAck)
        (silentAckPacket e.eventId setup.server.defaultEncryption) verdict packet := by
      rintro ⟨packet, hresponds⟩
      exact hno packet hresponds
    cases expectAck <;> simp [Course.AcksAsAsked, hnone, hnobody]
  · have hcarries := hacks item random packet hitem hresponds
    have hsome : ∃ packet, k.Responds setup c (e.body expectAck)
        (silentAckPacket e.eventId setup.server.defaultEncryption) verdict packet :=
      ⟨packet, hresponds⟩
    cases expectAck <;> simp [Course.AcksAsAsked, hqueued, hcarries, hsome]

end Event

def tickFrame : Bytes :=
  FrameCodec.frame .event
    (FrameCodec.composite (asBytes "\x7b\"k\":1,\"i\":7,\"n\":\"tick\",\"d\":\x7b\x7d,\"e\":false\x7d") [])

def tickInput : EventEmitInput := ⟨7, "tick", .empty, [], .null⟩

theorem bodyOf_tick : bodyOf tickFrame = some (tickInput.body false) := by rfl

/-- A client whose handler panics. -/
def panickyClient : Client.EventClient Unit := ⟨fun _ => [fun _ _ => .panics], .none⟩

theorem tick_acknowledged :
    ∃ s s' k, Exchange (plainSetup WscallServer.new) "c" plainCodec tickFrame 0 (.error "unused") s
      (s', k) ∧ k.holder.Settled ∧ k.queued.length = 1 := by
  obtain ⟨s, s', k, h, hP⟩ := exists_exchange (plainSetup WscallServer.new) openRun tickFrame
    answerRun plainCodec
    (fun y => decide y.2.holder.Settled && y.2.queued.length == 1) (by decide +kernel)
  simp only [Bool.and_eq_true, decide_eq_true_eq, beq_iff_eq] at hP
  exact ⟨s, s', k, h, hP.1, hP.2⟩

end Wscall.Server
