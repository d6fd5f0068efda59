import Wscall.Server.Identity
import Wscall.Server.Steps

/-!
# From the queue to the wire (`server_runtime.rs:757-797`)

Any number of producers share a connection's queue with its one writer. What the peer gets is
compared with what was accepted into the queue over the whole run.
-/

namespace Wscall.Server
open RustStd Protocol

/-- What only the writer task sends, apart from its heartbeat. -/
def WireMessage.isItem : WireMessage → Bool
  | .frame _ | .pong _ | .close => true
  | _ => false

/-- There is no queue yet. -/
def Phase.Outside (p : Phase) : Prop := p = .absent ∨ p.Handshake

def Conn.items (conn : Conn) : List WireMessage := conn.sent.filter WireMessage.isItem

section Observation

variable {W : Type} (setup : Setup W)

/-- What a step put on the queue of a connection. The writer puts nothing there. -/
def appended (c : String) (s s' : State) : Action W → List ServerOutbound
  | .writer _ _ => []
  | _ => (s'.conns c).channel.queue.drop (s.conns c).channel.queue.length

/-- Everything that was put on the queue of a connection, oldest first. -/
def enqueued (c : String) : List (Action W) → State → List ServerOutbound
  | [], _ => []
  | a :: actions, s =>
    match step setup a s with
    | some s' => appended c s s' a ++ enqueued c actions s'
    | none => []

/-- What the writer of a session sends for the items it took. -/
def writes (libs : Libs) (codec : Option FrameCodec)
    (taken : List (ServerOutbound × Except String Nonce)) : List WireMessage :=
  match codec with
  | some codec => writerLoop libs codec taken
  | none => []

end Observation

theorem getElem?_of_isPrefix {α : Type} {xs ys : List α} (h : xs <+: ys) {i : ℕ} {x : α}
    (hx : xs[i]? = some x) : ys[i]? = some x := by
  obtain ⟨more, rfl⟩ := h
  obtain ⟨hlt, -⟩ := List.getElem?_eq_some_iff.mp hx
  rw [List.getElem?_append_left hlt, hx]

/-! ### What a step does to one queue -/

/-- The phases a step may lead to, as far as the queue is concerned. -/
structure PhaseMove (old new : Conn) : Prop where
  outside : new.phase.Outside → old.phase.Outside
  notifying : new.phase = .notifying →
    old.phase = .notifying ∧ new.channel.writing = old.channel.writing
  /-- The writer is spawned after the notification. -/
  writing : new.channel.writing = true → old.channel.writing = true ∨ old.phase = .notifying
  stays : old.channel.writing = true → new.channel.writing = true
  leaves : old.phase = .notifying → new.phase = .notifying ∨ new.channel.writing = true

/-- The queue before and after, and the items that came. -/
inductive ChannelMove (libs : Libs) (old new : Conn) : List ServerOutbound → Prop
  | fresh (hold : old.phase = .absent) (hphase : new.phase ≠ .notifying)
      (hq : new.channel = ⟨[], false, false⟩) (hs : new.sent = []) : ChannelMove libs old new []
  | kept (h : PhaseMove old new) (hcodec : new.codec = old.codec ∨ old.phase.Outside)
      (hq : new.channel.queue = old.channel.queue) (ha : new.channel.alive = old.channel.alive)
      (hs : new.items = old.items) : ChannelMove libs old new []
  | opened {alive} (hold : old.phase.Outside) (hphase : ¬ new.phase.Outside)
      (hn : new.phase = .notifying ↔ alive = true)
      (hq : new.channel = ⟨[], alive, false⟩) (hs : new.items = old.items) : ChannelMove libs old new []
  | pushed {item} (h : PhaseMove old new) (hcodec : new.codec = old.codec)
      (halive : old.channel.alive = true) (hroom : old.channel.hasRoom = true)
      (hq : new.channel.queue = old.channel.queue ++ [item]) (ha : new.channel.alive = true)
      (hs : new.sent = old.sent) : ChannelMove libs old new [item]
  | dropped (hphase : new.phase.Outside → old.phase.Outside)
      (hn : new.phase = .notifying → old.phase = .notifying ∧ old.channel.writing = true)
      (hcodec : new.codec = old.codec) (hq : new.channel = ⟨[], false, false⟩)
      (hs : new.sent = old.sent) : ChannelMove libs old new []
  | wrote {codec random item rest message goesOn} (hphase : new.phase = old.phase)
      (hw : old.channel.writing = true) (hold : old.channel.queue = item :: rest)
      (hc : old.codec = some codec) (hcodec : new.codec = old.codec)
      (hm : writeItem libs codec random item = (message, goesOn))
      (hq : new.channel =
        if goesOn then { old.channel with queue := rest } else ⟨[], false, false⟩)
      (hs : new.sent = old.sent ++ message.toList) : ChannelMove libs old new []

section Steps

variable {W : Type} {setup : Setup W} {s s' : State} {a : Action W} {c : String}

theorem ChannelMove.refl (libs : Libs) (conn : Conn) : ChannelMove libs conn conn [] :=
  .kept ⟨id, fun h => ⟨h, rfl⟩, .inl, id, .inl⟩ (.inl rfl) rfl rfl rfl

theorem appended_eq (ha : ∀ d op, a ≠ .writer d op) {items : List ServerOutbound}
    (hq : (s'.conns c).channel.queue = (s.conns c).channel.queue ++ items) :
    appended c s s' a = items := by
  cases a with
  | writer d op => exact absurd rfl (ha d op)
  | _ => simp only [appended, hq, List.drop_left]

theorem appended_nil (hq : (s'.conns c).channel.queue.length ≤ (s.conns c).channel.queue.length) :
    appended c s s' a = [] := by
  cases a with
  | writer d op => rfl
  | _ => simp only [appended, List.drop_eq_nil_of_le hq]

theorem items_shaken {old new : Conn} (h : Shaken old new) : new.items = old.items := by
  rcases h.sent with hs | ⟨m, hm, hs⟩
  · simp only [Conn.items, hs]
  · cases m <;> first | exact hm.elim | simp [Conn.items, hs, WireMessage.isItem]

theorem trySend_close (ch : Channel) : ch.trySend .close = none ∨
    ch.alive = true ∧ ch.hasRoom = true ∧ ch.trySend .close = some (ch.push .close) := by
  unfold Channel.trySend
  split
  · rename_i hok
    simp only [Bool.and_eq_true] at hok
    exact .inr ⟨hok.1, hok.2, rfl⟩
  · exact .inl rfl

/-- The queue of a connection over one step. -/
def Observes (libs : Libs) (s s' : State) (a : Action W) (c : String) : Prop :=
  ChannelMove libs (s.conns c) (s'.conns c) (appended c s s' a)

theorem observes_of_eq {libs : Libs} (h : s'.conns c = s.conns c) : Observes libs s s' a c := by
  rw [Observes, h, appended_nil (by rw [h])]
  exact .refl ..

/-- A step concerns the queue of one connection. -/
theorem observes_conn {libs : Libs} (c : String) (hne : ∀ d, d ≠ c → s'.conns d = s.conns d)
    (h : Observes libs s s' a c) (d : String) : Observes libs s s' a d := by
  by_cases hdc : d = c
  · exact hdc ▸ h
  · exact observes_of_eq (hne d hdc)

theorem Phase.not_outside {p : Phase} (hne : p ≠ .absent) (hnot : ¬ p.Handshake) : ¬ p.Outside := by
  rintro (h | h)
  · exact hne h
  · exact hnot h

theorem Phase.Outside.not_served {p : Phase} (h : p.Outside) : ¬ p.Served := by
  rcases h with rfl | h
  · exact not_false
  · exact h.not_served

theorem observes_keeps {libs : Libs} (hq : (s'.conns c).channel = (s.conns c).channel)
    (hphase : (s'.conns c).phase.Outside → (s.conns c).phase.Outside)
    (hn : (s'.conns c).phase = .notifying ↔ (s.conns c).phase = .notifying)
    (hcodec : (s'.conns c).codec = (s.conns c).codec ∨ (s.conns c).phase.Outside)
    (hs : (s'.conns c).items = (s.conns c).items) : Observes libs s s' a c := by
  rw [Observes, appended_nil (by rw [hq])]
  refine .kept ⟨hphase, fun h => ⟨hn.mp h, by rw [hq]⟩, ?_, ?_, fun h => .inl (hn.mpr h)⟩ hcodec
    (by rw [hq]) (by rw [hq]) hs
  · rw [hq]
    exact .inl
  · rw [hq]
    exact id

theorem observes_push {libs : Libs} (ha : ∀ d op, a ≠ .writer d op) (item : ServerOutbound)
    (halive : (s.conns c).channel.alive = true) (hroom : (s.conns c).channel.hasRoom = true)
    (h : PhaseMove (s.conns c) (s'.conns c))
    (hq : (s'.conns c).channel.queue = (s.conns c).channel.queue ++ [item])
    (halive' : (s'.conns c).channel.alive = true)
    (hcodec : (s'.conns c).codec = (s.conns c).codec) (hs : (s'.conns c).sent = (s.conns c).sent) :
    Observes libs s s' a c := by
  rw [Observes, appended_eq ha hq]
  exact .pushed h hcodec halive hroom hq halive' hs

/-- A phase in which the connection has its writer, or has just got it. -/
theorem phaseMove_of_started {old new : Conn} (hp : new.phase ≠ .absent ∧ ¬ new.phase.Handshake)
    (hn : new.phase ≠ .notifying)
    (hw : old.phase = .notifying ∧ new.channel.writing = true ∨
      old.phase ≠ .notifying ∧ new.channel.writing = old.channel.writing) : PhaseMove old new := by
  refine ⟨fun h => absurd h (Phase.not_outside hp.1 hp.2), fun h => absurd h hn, fun h => ?_,
    fun h => ?_, fun h => ?_⟩
  · rcases hw with ⟨hold, -⟩ | ⟨-, hw⟩
    · exact .inr hold
    · exact .inl (hw ▸ h)
  · rcases hw with ⟨-, hw⟩ | ⟨-, hw⟩
    · exact hw
    · exact hw.trans h
  · rcases hw with ⟨-, hw⟩ | ⟨hold, -⟩
    · exact .inr hw
    · exact absurd h hold

/-- The teardown of a record that has the queue of the old one, perhaps with its writer just
started. -/
theorem observes_teardown {libs : Libs} {s₁ : State} (ha : ∀ d op, a ≠ .writer d op)
    (hq : (s₁.conns c).channel.queue = (s.conns c).channel.queue)
    (halive : (s₁.conns c).channel.alive = (s.conns c).channel.alive)
    (hw : (s.conns c).phase = .notifying ∧ (s₁.conns c).channel.writing = true ∨
      (s.conns c).phase ≠ .notifying ∧ (s₁.conns c).channel.writing = (s.conns c).channel.writing)
    (hcodec : (s₁.conns c).codec = (s.conns c).codec) (hs : (s₁.conns c).sent = (s.conns c).sent) :
    Observes libs s (teardown s₁ c) a c := by
  have hphase : ((teardown s₁ c).conns c).phase = .closing := by simp [teardown]
  have hcodec' : ((teardown s₁ c).conns c).codec = (s.conns c).codec := by simp [teardown, hcodec]
  have hsent : ((teardown s₁ c).conns c).sent = (s.conns c).sent := by simp [teardown, hs]
  have hmove : ((s.conns c).phase = .notifying ∧ ((teardown s₁ c).conns c).channel.writing = true ∨
      (s.conns c).phase ≠ .notifying ∧
        ((teardown s₁ c).conns c).channel.writing = (s.conns c).channel.writing) →
      PhaseMove (s.conns c) ((teardown s₁ c).conns c) :=
    phaseMove_of_started (by rw [hphase]; exact ⟨(by simp), not_false⟩) (by rw [hphase]; simp)
  rcases trySend_close (s₁.conns c).channel with hnone | ⟨hal, hroom, hsome⟩
  · have hch : ((teardown s₁ c).conns c).channel = (s₁.conns c).channel := by
      simp [teardown, hnone]
    rw [hch] at hmove
    rw [Observes, appended_nil (by rw [hch, hq])]
    exact .kept (hmove hw) (.inl hcodec') (by rw [hch, hq]) (by rw [hch, halive])
      (by rw [Conn.items, hsent, Conn.items])
  · have hch : ((teardown s₁ c).conns c).channel = (s₁.conns c).channel.push .close := by
      simp [teardown, hsome]
    rw [hch] at hmove
    refine observes_push ha .close (halive ▸ hal) ?_ (hmove hw) ?_ ?_ hcodec' hsent
    · simpa only [Channel.hasRoom, hq] using hroom
    · rw [hch, Channel.push, hq]
    · rw [hch]
      exact hal

/-! One lemma for each kind of move, for the connection it concerns. -/

theorem observes_accepted (hp : (s.conns c).phase = .absent) {peer : SocketAddr} {now : ℕ}
    {limiter : Option RateLimiterState} {phase : Phase} (hphase : phase = .upgrading ∨ phase = .ended) :
    Observes setup.libs s ({ s with limiter := limiter }.setConn c (Conn.new peer phase))
      (.conn c (.accept peer now) : Action W) c := by
  rw [Observes, appended_nil (by simp [Conn.new])]
  refine .fresh hp ?_ (by simp [Conn.new]) (by simp [Conn.new])
  rw [State.setConn_self]
  rcases hphase with rfl | rfl <;> simp [Conn.new]

theorem observes_shook {op : ConnOp W} {conn : Conn} (h : Shakes setup (s.conns c) op conn) :
    Observes setup.libs s (s.setConn c conn) (.conn c op) c := by
  have hp := h.handshake
  apply observes_keeps <;> rw [State.setConn_self]
  · exact h.shaken.channel
  · exact fun _ => .inr hp
  · refine ⟨fun hn => ?_, fun hn => ?_⟩
    · have hnext := h.next
      rw [hn] at hnext
      rcases hnext with hnext | hnext <;> cases hnext
    · rw [hn] at hp
      cases hp
  · exact .inr (.inr hp)
  · exact items_shaken h.shaken

theorem observes_entered {op : ConnOp W} {conn : Conn} (h : Shakes setup (s.conns c) op conn) (w : W)
    (output : Option AuthOutput) :
    Observes setup.libs s (enter setup (s.setConn c conn) c w output) (.conn c op) c := by
  have hq : ((enter setup (s.setConn c conn) c w output).conns c).channel =
      ⟨[], (notifyConnected w (connectedContext setup (s.setConn c conn) c output)
        setup.server.connectionHandlers).result.isSome, false⟩ := by
    simp only [enter, State.setConn_self]
  rw [Observes, appended_nil (by simp [enter])]
  refine .opened (.inr h.handshake) ?_ ?_ hq ?_ <;> simp only [enter, State.setConn_self]
  · split <;> exact Phase.not_outside (by simp) not_false
  · split
    · rename_i hok
      exact ⟨fun _ => hok, fun _ => rfl⟩
    · rename_i hnot
      exact ⟨(by simp), fun hok => absurd hok hnot⟩
  · have hitems := items_shaken h.shaken
    exact hitems

theorem observes_greeted (hp : (s.conns c).phase = .notifying) {random : Except String Nonce}
    {item : ServerOutbound} {n : UInt64} (halive : (s.conns c).channel.alive = true)
    (hroom : (s.conns c).channel.hasRoom = true) :
    Observes setup.libs s ({ s with nextEventId := n }.setConn c { s.conns c with
      channel := { (s.conns c).channel with writing := true }.push item
      phase := .reading }) (.conn c (.notified random) : Action W) c := by
  refine observes_push (by simp) item halive hroom ?_ ?_ ?_ ?_ ?_ <;> rw [State.setConn_self]
  · exact phaseMove_of_started ⟨(by simp), not_false⟩ (by simp) (.inl ⟨hp, rfl⟩)
  · rfl
  · exact halive

theorem observes_ungreeted (hp : (s.conns c).phase = .notifying) {random : Except String Nonce}
    {n : UInt64} :
    Observes setup.libs s (teardown ({ s with nextEventId := n }.setConn c { s.conns c with
      channel := { (s.conns c).channel with writing := true } }) c)
      (.conn c (.notified random) : Action W) c := by
  apply observes_teardown (by simp) <;> rw [State.setConn_self]
  exact .inl ⟨hp, rfl⟩

/-- The reader goes on without having queued anything. -/
theorem observes_served {op : ConnOp W} {s₁ : State} {conn : Conn}
    (hn : (s.conns c).phase ≠ .notifying) (hphase : conn.phase.Served ∨ conn.phase = .ended)
    (hn' : conn.phase ≠ .notifying) (hq : conn.channel = (s.conns c).channel)
    (hcodec : conn.codec = (s.conns c).codec) (hs : conn.sent = (s.conns c).sent) :
    Observes setup.libs s (s₁.setConn c conn) (.conn c op) c := by
  apply observes_keeps <;> rw [State.setConn_self]
  · exact hq
  · intro hout
    rcases hphase with hphase | hphase
    · exact absurd hphase (Phase.Outside.not_served hout)
    · rw [hphase] at hout
      rcases hout with hout | hout <;> cases hout
  · exact iff_of_false hn' hn
  · exact .inl hcodec
  · rw [Conn.items, hs, Conn.items]

theorem observes_queued {item : ServerOutbound} (hp : (s.conns c).phase.held = some item)
    (halive : (s.conns c).channel.alive = true) (hroom : (s.conns c).channel.hasRoom = true) :
    Observes setup.libs s (s.setConn c { s.conns c with
      channel := (s.conns c).channel.push item
      phase := .reading }) (.conn c .queued : Action W) c := by
  refine observes_push (by simp) item halive hroom ?_ ?_ ?_ ?_ ?_ <;> rw [State.setConn_self]
  · refine phaseMove_of_started ⟨(by simp), not_false⟩ (by simp) (.inr ⟨?_, rfl⟩)
    intro hn
    rw [hn] at hp
    cases hp
  · rfl
  · exact halive

/-- The writer is gone, and the queue with it. -/
theorem observes_dropped {conn : Conn}
    (hphase : conn.phase.Outside → (s.conns c).phase.Outside)
    (hn : conn.phase = .notifying → (s.conns c).phase = .notifying ∧ (s.conns c).channel.writing = true)
    (hcodec : conn.codec = (s.conns c).codec) (hq : conn.channel = ⟨[], false, false⟩)
    (hs : conn.sent = (s.conns c).sent) :
    Observes setup.libs s (s.setConn c conn) a c := by
  rw [Observes, appended_nil (by simp [hq])]
  apply ChannelMove.dropped <;> rw [State.setConn_self]
  · exact hphase
  · exact hn
  · exact hcodec
  · exact hq
  · exact hs

theorem observes_answered {t : ℕ} {item : ServerOutbound}
    (halive : (s.conns (s.tasks t).connectionId).channel.alive = true)
    (hroom : (s.conns (s.tasks t).connectionId).channel.hasRoom = true) :
    Observes setup.libs s (finishTask (s.setConn (s.tasks t).connectionId
      { s.conns (s.tasks t).connectionId with
        channel := (s.conns (s.tasks t).connectionId).channel.push item }) t (s.tasks t))
      (.task t .send : Action W) (s.tasks t).connectionId := by
  refine observes_push (by simp) item halive hroom ?_ ?_ ?_ ?_ ?_ <;>
    simp only [finishTask, State.setTask, State.setConn_self]
  · exact ⟨id, fun h => ⟨h, rfl⟩, .inl, id, .inl⟩
  · rfl
  · exact halive

theorem observes_finished {t : ℕ} {op : TaskOp W} (calls : List (String × Invocation)) :
    Observes setup.libs s (finishTask { s with calls := calls } t (s.tasks t)) (.task t op)
      (s.tasks t).connectionId := by
  apply observes_keeps <;> rw [finishTask, State.setConn_self]
  · exact id
  · exact .inl rfl
  · rfl

theorem observes_delivered {k : ℕ} {op : PushOp} {item : ServerOutbound} {n : UInt64}
    (halive : (s.conns c).channel.alive = true) (hroom : (s.conns c).channel.hasRoom = true) :
    Observes setup.libs s ({ s with nextEventId := n }.setConn c { s.conns c with
      channel := (s.conns c).channel.push item }) (.push k op : Action W) c := by
  refine observes_push (by simp) item halive hroom ?_ ?_ ?_ ?_ ?_ <;> rw [State.setConn_self]
  · exact ⟨id, fun h => ⟨h, rfl⟩, .inl, id, .inl⟩
  · rfl
  · exact halive

theorem observes_move (hm : Move setup s a s') : ∀ c, Observes setup.libs s s' a c := by
  have hset : ∀ {c conn d}, d ≠ c → (s.setConn c conn).conns d = s.conns d :=
    fun hd => State.setConn_of_ne _ hd _
  cases hm with
  | @accepted c peer now limiter phase hp hphase =>
    exact observes_conn c (fun d hd => State.setConn_of_ne _ hd _) (observes_accepted hp hphase)
  | @shook c op conn h => exact observes_conn c (fun d hd => hset hd) (observes_shook h)
  | @entered c op conn w output h =>
    exact observes_conn c (fun d hd => by simp only [enter, State.setConn_of_ne _ hd])
      (observes_entered h w output)
  | @greeted c random item hp hitem halive hroom =>
    exact observes_conn c (fun d hd => State.setConn_of_ne _ hd _) (observes_greeted hp halive hroom)
  | @ungreeted c random hp =>
    exact observes_conn c (fun d hd => by simp only [teardown, State.setConn_of_ne _ hd])
      (observes_ungreeted hp)
  | @read c codec message now random limiter phase hp hc hreads =>
    refine observes_conn c (fun d hd => State.setConn_of_ne _ hd _) ?_
    refine observes_served (by rw [hp]; simp) hreads.served_or_ended ?_ rfl rfl rfl
    cases hreads <;> simp
  | @hungUp c codec message now random hp =>
    refine observes_conn c (fun d hd => by
      simp only [teardown, State.logged, State.setConn_of_ne _ hd]) ?_
    apply observes_teardown (by simp) <;> rw [State.logged, State.setConn_self]
    exact .inr ⟨by rw [hp]; simp, rfl⟩
  | @queued c item hp halive hroom =>
    exact observes_conn c (fun d hd => hset hd) (observes_queued hp halive hroom)
  | @unqueued c item hp hdead =>
    refine observes_conn c (fun d hd => hset hd) ?_
    exact observes_served (by rw [hp]; simp) (.inl trivial) (by simp) rfl rfl rfl
  | @unponged c payload hp hdead =>
    refine observes_conn c (fun d hd => by simp only [teardown, State.setConn_of_ne _ hd]) ?_
    exact observes_teardown (by simp) rfl rfl (.inr ⟨by rw [hp]; simp, rfl⟩) rfl rfl
  | @acquired c t body hp ht hroom =>
    refine observes_conn c (fun d hd => State.setConn_of_ne _ hd _) ?_
    exact observes_served (by rw [hp]; simp) (.inl trivial) (by simp) rfl rfl rfl
  | @graceOver c hp =>
    refine observes_conn c (fun d hd => hset hd) (observes_dropped ?_ (by simp) rfl rfl rfl)
    exact fun h => absurd h (Phase.not_outside (by simp) not_false)
  | @ticked c hw =>
    refine observes_conn c (fun d hd => State.setConn_of_ne _ hd _) ?_
    apply observes_keeps <;> rw [State.pushWire, State.setConn_self]
    · exact id
    · exact .inl rfl
    · simp [Conn.items, WireMessage.isItem]
  | @stopped c op hw =>
    exact observes_conn c (fun d hd => hset hd) (observes_dropped id (fun h => ⟨h, hw⟩) rfl rfl rfl)
  | @wrote c random item rest codec message goesOn hw hq hc hmsg =>
    refine observes_conn c (fun d hd => hset hd) ?_
    apply ChannelMove.wrote _ hw hq hc _ hmsg <;> rw [State.setConn_self]
  | ran | encoded | aside => exact fun c => observes_of_eq rfl
  | @answered t item ht halive hroom =>
    refine observes_conn (s.tasks t).connectionId (fun d hd => ?_) (observes_answered halive hroom)
    simp only [finishTask, State.setTask, State.setConn_of_ne _ hd]
  | @finished t op calls h =>
    refine observes_conn (s.tasks t).connectionId (fun d hd => ?_) (observes_finished calls)
    simp only [finishTask, State.setTask, State.setConn_of_ne _ hd]
  | @delivered k op c item n hitem hin halive hroom =>
    exact observes_conn c (fun d hd => State.setConn_of_ne _ hd _) (observes_delivered halive hroom)

/-! ### The order of a whole run -/

def GoesOn (libs : Libs) (codec : Option FrameCodec)
    (taken : List (ServerOutbound × Except String Nonce)) : Prop :=
  ∀ codec', codec = some codec' → ∀ x ∈ taken, (writeItem libs codec' x.2 x.1).2 = true

theorem writerLoop_append {libs : Libs} {codec : FrameCodec}
    {taken : List (ServerOutbound × Except String Nonce)} (h : GoesOn libs (some codec) taken)
    (item : ServerOutbound) (random : Except String Nonce) :
    writerLoop libs codec (taken ++ [(item, random)]) =
      writerLoop libs codec taken ++ (writeItem libs codec random item).1.toList := by
  induction taken with
  | nil =>
    simp only [List.nil_append, writerLoop]
    split <;> simp [*]
  | cons x taken ih =>
    have hx := h codec rfl x (List.mem_cons_self ..)
    have htail := ih fun codec' hc y hy => h codec' hc y (List.mem_cons_of_mem _ hy)
    obtain ⟨item', random'⟩ := x
    simp only [List.cons_append, writerLoop]
    split
    · rw [htail, List.append_assoc]
    · rename_i heq
      simp [heq] at hx

/-- The queue and the wire of a connection against what was accepted so far. -/
structure Ordered (libs : Libs) (accepted : List ServerOutbound) (conn : Conn) : Prop where
  outside : conn.phase.Outside → accepted = [] ∧ conn.channel = ⟨[], false, false⟩
  notifying : conn.phase = .notifying → conn.channel.alive = true ∧ conn.channel.writing = false
  writing : conn.channel.writing = true → conn.channel.alive = true
  writer : conn.channel.alive = true → conn.channel.writing = true ∨ conn.phase = .notifying
  bounded : conn.channel.queue.length ≤ Channel.capacity
  taken : ∃ taken, conn.items = writes libs conn.codec taken ∧ taken.map Prod.fst <+: accepted ∧
    (conn.channel.alive = true →
      taken.map Prod.fst ++ conn.channel.queue = accepted ∧ GoesOn libs conn.codec taken)

theorem ordered_init (libs : Libs) (c : String) : Ordered libs [] ((State.init setup).conns c) where
  outside _ := ⟨rfl, rfl⟩
  notifying h := by cases h
  writing h := by cases h
  writer h := by cases h
  bounded := Nat.zero_le _
  taken := ⟨[], rfl, List.prefix_rfl, fun h => by cases h⟩

theorem writes_nil (libs : Libs) (codec : Option FrameCodec) : writes libs codec [] = [] := by
  cases codec <;> rfl

/-- Before the queue is there nothing has been written. -/
theorem Ordered.items_nil {libs : Libs} {accepted : List ServerOutbound} {conn : Conn}
    (h : Ordered libs accepted conn) (hout : conn.phase.Outside) : conn.items = [] := by
  obtain ⟨taken, hitems, hpre, -⟩ := h.taken
  rw [(h.outside hout).1, List.prefix_nil, List.map_eq_nil_iff] at hpre
  rw [hitems, hpre, writes_nil]

theorem filter_writeItem (libs : Libs) (codec : FrameCodec) (random : Except String Nonce)
    (item : ServerOutbound) :
    (writeItem libs codec random item).1.toList.filter WireMessage.isItem =
      (writeItem libs codec random item).1.toList := by
  cases item with
  | packet packet =>
    simp only [writeItem]
    split <;> rfl
  | _ => rfl

theorem PhaseMove.writer {old new : Conn} (hm : PhaseMove old new)
    (h : old.channel.writing = true ∨ old.phase = .notifying) :
    new.channel.writing = true ∨ new.phase = .notifying := by
  rcases h with h | h
  · exact .inl (hm.stays h)
  · exact (hm.leaves h).symm

theorem Ordered.kept {libs : Libs} {accepted : List ServerOutbound} {conn conn' : Conn}
    (h : Ordered libs accepted conn) (hm : PhaseMove conn conn')
    (hcodec : conn'.codec = conn.codec ∨ conn.phase.Outside)
    (hq : conn'.channel.queue = conn.channel.queue) (ha : conn'.channel.alive = conn.channel.alive)
    (hs : conn'.items = conn.items) : Ordered libs accepted conn' := by
  refine ⟨fun hout => ?_, fun hn => ?_, fun hw => ?_, fun halive => ?_, hq ▸ h.bounded, ?_⟩
  · have hold := hm.outside hout
    obtain ⟨hacc, hch⟩ := h.outside hold
    have hw : conn'.channel.writing = false := by
      by_contra hw
      rcases hm.writing (by simpa using hw) with hw' | hn
      · simp [hch] at hw'
      · rw [hn] at hold
        rcases hold with hold | hold <;> cases hold
    refine ⟨hacc, ?_⟩
    rw [hch] at hq ha
    cases hch' : conn'.channel with
    | mk queue alive writing =>
      rw [hch'] at hq ha hw
      cases hq
      cases ha
      cases hw
      rfl
  · obtain ⟨hold, hw⟩ := hm.notifying hn
    rw [ha, hw]
    exact h.notifying hold
  · rw [ha]
    rcases hm.writing hw with hw | hold
    · exact h.writing hw
    · exact (h.notifying hold).1
  · exact hm.writer (h.writer (ha ▸ halive))
  · rcases hcodec with hcodec | hout
    · rw [hs, hcodec, hq, ha]
      exact h.taken
    · obtain ⟨hacc, hch⟩ := h.outside hout
      refine ⟨[], ?_, List.nil_prefix, fun halive => ?_⟩
      · rw [hs, h.items_nil hout, writes_nil]
      · rw [ha, hch] at halive
        cases halive

theorem Ordered.pushed {libs : Libs} {accepted : List ServerOutbound} {conn conn' : Conn}
    {item : ServerOutbound} (h : Ordered libs accepted conn) (hm : PhaseMove conn conn')
    (hcodec : conn'.codec = conn.codec) (halive : conn.channel.alive = true)
    (hroom : conn.channel.hasRoom = true) (hq : conn'.channel.queue = conn.channel.queue ++ [item])
    (ha : conn'.channel.alive = true) (hs : conn'.sent = conn.sent) :
    Ordered libs (accepted ++ [item]) conn' := by
  refine ⟨fun hout => ?_, fun hn => ?_, fun _ => ha, fun _ => hm.writer (h.writer halive), ?_, ?_⟩
  · rw [(h.outside (hm.outside hout)).2] at halive
    cases halive
  · obtain ⟨hold, hw⟩ := hm.notifying hn
    exact ⟨ha, hw.trans (h.notifying hold).2⟩
  · simp only [Channel.hasRoom, decide_eq_true_eq] at hroom
    rw [hq, List.length_append, List.length_singleton]
    exact hroom
  · obtain ⟨taken, hitems, hpre, hopen⟩ := h.taken
    obtain ⟨hall, hgo⟩ := hopen halive
    refine ⟨taken, ?_, hpre.trans (List.prefix_append ..), fun _ => ⟨?_, hcodec ▸ hgo⟩⟩
    · rw [Conn.items, hs, hcodec]
      exact hitems
    · rw [hq, ← List.append_assoc, hall]

theorem Ordered.wrote {libs : Libs} {accepted : List ServerOutbound} {conn conn' : Conn}
    {codec : FrameCodec} {random : Except String Nonce} {item : ServerOutbound}
    {rest : List ServerOutbound} {message : Option WireMessage} {goesOn : Bool}
    (h : Ordered libs accepted conn) (hphase : conn'.phase = conn.phase)
    (hw : conn.channel.writing = true) (hold : conn.channel.queue = item :: rest)
    (hc : conn.codec = some codec) (hcodec : conn'.codec = conn.codec)
    (hm : writeItem libs codec random item = (message, goesOn))
    (hq : conn'.channel = if goesOn then { conn.channel with queue := rest } else ⟨[], false, false⟩)
    (hs : conn'.sent = conn.sent ++ message.toList) : Ordered libs accepted conn' := by
  have halive := h.writing hw
  obtain ⟨taken, hitems, hpre, hopen⟩ := h.taken
  obtain ⟨hall, hgo⟩ := hopen halive
  have hmore : (taken ++ [(item, random)]).map Prod.fst ++ rest = accepted := by
    rw [List.map_append, List.append_assoc, ← hall, hold]
    rfl
  refine ⟨fun hout => ?_, fun hn => ?_, fun hw' => ?_, fun ha => ?_, ?_, taken ++ [(item, random)], ?_, ?_,
    fun ha => ?_⟩
  · rw [hphase] at hout
    rw [(h.outside hout).2] at hold
    cases hold
  · rw [hphase] at hn
    rw [(h.notifying hn).2] at hw
    cases hw
  · rw [hq] at hw' ⊢
    cases goesOn with
    | true => exact halive
    | false => cases hw'
  · rw [hq] at ha ⊢
    cases goesOn with
    | true => exact .inl hw
    | false => cases ha
  · have hbound := h.bounded
    rw [hold, List.length_cons] at hbound
    rw [hq]
    cases goesOn with
    | true => exact Nat.le_of_succ_le hbound
    | false => exact Nat.zero_le _
  · rw [hc] at hgo hitems
    rw [hcodec, hc, Conn.items, hs, List.filter_append, ← Conn.items, hitems]
    simp only [writes]
    rw [writerLoop_append hgo, ← filter_writeItem, hm]
  · exact ⟨rest, hmore⟩
  · rw [hq] at ha ⊢
    cases goesOn with
    | true =>
      refine ⟨hmore, fun codec' hc' x hx => ?_⟩
      rw [hcodec] at hc'
      rcases List.mem_append.mp hx with hx | hx
      · exact hgo codec' hc' x hx
      · rw [List.mem_singleton.mp hx]
        rw [hc] at hc'
        cases hc'
        rw [hm]
    | false => cases ha

theorem Ordered.move {libs : Libs} {accepted new : List ServerOutbound} {conn conn' : Conn}
    (h : Ordered libs accepted conn) (hm : ChannelMove libs conn conn' new) :
    Ordered libs (accepted ++ new) conn' := by
  cases hm with
  | fresh hold hphase hq hs =>
    have hacc := (h.outside (.inl hold)).1
    refine ⟨fun _ => ⟨by simp [hacc], hq⟩, fun hn => absurd hn hphase, ?_, ?_, ?_, [], ?_,
      List.nil_prefix, ?_⟩
    · rw [hq]
      simp
    · rw [hq]
      simp
    · rw [hq]
      exact Nat.zero_le _
    · rw [Conn.items, hs, writes_nil]
      rfl
    · rw [hq]
      simp
  | kept hmove hcodec hq ha hs =>
    rw [List.append_nil]
    exact h.kept hmove hcodec hq ha hs
  | @opened alive hold hphase hn hq hs =>
    have hacc := (h.outside hold).1
    refine ⟨fun hout => absurd hout hphase, fun hnot => ?_, ?_, ?_, ?_, [], ?_, List.nil_prefix,
      fun _ => ?_⟩
    · rw [hq]
      exact ⟨hn.mp hnot, rfl⟩
    · rw [hq]
      simp
    · rw [hq]
      exact fun halive => .inr (hn.mpr halive)
    · rw [hq]
      exact Nat.zero_le _
    · rw [hs, h.items_nil hold, writes_nil]
    · rw [hq, hacc]
      exact ⟨rfl, fun _ _ x hx => by cases hx⟩
  | pushed hmove hcodec halive hroom hq ha hs => exact h.pushed hmove hcodec halive hroom hq ha hs
  | dropped hphase hn hcodec hq hs =>
    rw [List.append_nil]
    refine ⟨fun hout => ⟨(h.outside (hphase hout)).1, hq⟩, fun hnot => ?_, ?_, ?_, ?_, ?_⟩
    · obtain ⟨hold, hw⟩ := hn hnot
      rw [(h.notifying hold).2] at hw
      cases hw
    · rw [hq]
      simp
    · rw [hq]
      simp
    · rw [hq]
      exact Nat.zero_le _
    · obtain ⟨taken, hitems, hpre, -⟩ := h.taken
      refine ⟨taken, ?_, hpre, fun ha => ?_⟩
      · rw [Conn.items, hs, hcodec]
        exact hitems
      · rw [hq] at ha
        cases ha
  | wrote hphase hw hold hc hcodec hmsg hq hs =>
    rw [List.append_nil]
    exact h.wrote hphase hw hold hc hcodec hmsg hq hs

theorem ordered_run {actions : List (Action W)} {accepted : List ServerOutbound}
    (h : Machine.run (step setup) actions s = some s') (hs : Ordered setup.libs accepted (s.conns c)) :
    Ordered setup.libs (accepted ++ enqueued setup c actions s) (s'.conns c) := by
  induction actions generalizing s accepted with
  | nil =>
    cases h
    rw [enqueued, List.append_nil]
    exact hs
  | cons a actions ih =>
    obtain ⟨s₁, h₁, h₂⟩ := Machine.run_cons_eq_some h
    rw [enqueued, h₁, ← List.append_assoc]
    exact ih h₂ (hs.move (observes_move (move_of_step h₁) c))

/-- In every run, the frames, pongs and close that a peer got are what the writer makes of the
first items accepted into its queue, in the order they were accepted; while the queue is open the
rest is in it, and it never holds more than its capacity. -/
theorem wire_in_queue_order {actions : List (Action W)}
    (h : Machine.run (step setup) actions (State.init setup) = some s) (c : String) :
    (s.conns c).channel.queue.length ≤ Channel.capacity ∧
      ∃ taken : List (ServerOutbound × Except String Nonce),
        (s.conns c).items = writes setup.libs (s.conns c).codec taken ∧
        taken.map Prod.fst <+: enqueued setup c actions (State.init setup) ∧
        ((s.conns c).channel.alive = true →
          taken.map Prod.fst ++ (s.conns c).channel.queue =
            enqueued setup c actions (State.init setup)) := by
  have hord := ordered_run h (ordered_init setup.libs c)
  obtain ⟨taken, hitems, hpre, hopen⟩ := hord.taken
  exact ⟨hord.bounded, taken, hitems, hpre, fun ha => (hopen ha).1⟩

end Steps

/-- The login, then a ping whose pong is written after the greeting. -/
def pingRun : List (Action Unit) :=
  loginRun ++ [.conn "c" (.received (some (.ping [1])) 0 (.error "unused")), .conn "c" .queued,
    .writer "c" (.next (.error "unused") true), .writer "c" (.next (.error "unused") true)]

theorem wire_in_queue_order_ping :
    ∃ s, Machine.run (step loginSetup) pingRun (State.init loginSetup) = some s ∧
      (s.conns "c").items.length = 2 ∧
      ∃ taken : List (ServerOutbound × Except String Nonce),
        (s.conns "c").items = writes loginSetup.libs (s.conns "c").codec taken ∧
        taken.map Prod.fst <+: enqueued loginSetup "c" pingRun (State.init loginSetup) := by
  have hrun : (Machine.run (step loginSetup) pingRun (State.init loginSetup)).any
      (fun s => (s.conns "c").items.length == 2) = true := by decide +kernel
  obtain ⟨s, hs, htwo⟩ := (Option.any_eq_true ..).mp hrun
  obtain ⟨-, taken, hitems, hpre, -⟩ := wire_in_queue_order hs "c"
  exact ⟨s, hs, eq_of_beq htwo, taken, hitems, hpre⟩

end Wscall.Server
