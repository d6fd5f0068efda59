import Wscall.Lib.Ledger
import Wscall.Server.Delivery

/-!
# What a connection owes for what it read

A message the reader took is with the reader, then perhaps with a handler task, and leaves them as
an item in the queue or not at all. One step of the server moves at most one such debt.
-/

namespace Wscall.Server
open RustStd Protocol

/-- The reader has not let go of the last message. -/
def Phase.Pending : Phase → Prop
  | .queueing _ | .ponging _ | .acquiring _ => True
  | _ => False

/-- A task of the connection is at work. -/
def State.Works (s : State) (c : String) (t : ℕ) : Prop :=
  (s.tasks t).pc.Running ∧ (s.tasks t).connectionId = c

section Steps

variable {W : Type} (setup : Setup W)

/-- The bodies for which a step runs `process_packet` for the connection. -/
def executed (c : String) (s : State) : Action W → List PacketBody
  | .task t (.run _) => if (s.tasks t).connectionId = c then [(s.tasks t).body] else []
  | _ => []

/-- Everything `process_packet` was run on for a connection, oldest first. -/
def executions (c : String) : List (Action W) → State → List PacketBody
  | [], _ => []
  | a :: actions, s =>
    match step setup a s with
    | some s' => executed c s a ++ executions c actions s'
    | none => []

/-- The limiter and the clock as the connection finds them with a message. -/
abbrev Reading := Option RateLimiterState × ℕ

def readBy (c : String) : Action W → State → List Reading
  | .conn d (.received message now random), s =>
    if d = c then
      (taken (.received message now random : ConnOp W) (s.conns c).phase).map fun _ => (s.limiter, now)
    else []
  | _, _ => []

/-- One for each message a connection took, oldest first. -/
def readings (c : String) (actions : List (Action W)) (s : State) : List Reading :=
  Machine.movesAlong (step setup) (readBy c) actions s

/-- What is queued without being asked for. -/
def Unsolicited (s : State) (item : ServerOutbound) : Prop :=
  item = .close ∨ EventItem setup item ∨ ∃ k, s.pushes k = some item

/-- What stays of a session. -/
structure Continues (old new : Conn) : Prop where
  codec : new.codec = old.codec
  peer : new.peer = old.peer
  inbox : old.inbox <+: new.inbox

/-- What a step does to the debts of one connection. -/
inductive AccountStep (s s' : State) (c : String) : Action W → List ServerOutbound → Prop
  | outside {a} (hold : (s.conns c).phase.Outside) (hp : ¬ (s'.conns c).phase.Pending)
      (htasks : s'.tasks = s.tasks) (hrun : executed c s a = []) : AccountStep s s' c a []
  | rests {a items} (h : Continues (s.conns c) (s'.conns c)) (hout : ¬ (s'.conns c).phase.Outside ∨
        (s'.conns c).phase = (s.conns c).phase)
      (hp : (s'.conns c).phase = (s.conns c).phase ∨ ¬ (s'.conns c).phase.Pending)
      (htasks : ∀ t, s'.Works c t → s'.tasks t = s.tasks t)
      (hitems : ∀ item ∈ items, Unsolicited setup s item)
      (hrun : executed c s a = []) : AccountStep s s' c a items
  | reads {codec message now random} (hp : (s.conns c).phase = .reading)
      (hc : (s.conns c).codec = some codec) (h : Continues (s.conns c) (s'.conns c))
      (hinbox : (s'.conns c).inbox = (s.conns c).inbox ++ [message])
      (hreads : Reads setup s c codec now random (some message) (s'.conns c).phase)
      (hp' : (s'.conns c).phase.Pending) (htasks : s'.tasks = s.tasks) :
      AccountStep s s' c (.conn c (.received (some message) now random)) []
  | pays {item} (hp : (s.conns c).phase.held = some item) (h : Continues (s.conns c) (s'.conns c))
      (hp' : (s'.conns c).phase = .reading) (htasks : s'.tasks = s.tasks) :
      AccountStep s s' c (.conn c .queued) [item]
  | spawns {t body} (hp : (s.conns c).phase = .acquiring body)
      (h : Continues (s.conns c) (s'.conns c)) (hp' : (s'.conns c).phase = .reading)
      (htasks : s'.tasks = Function.update s.tasks t ⟨c, body, .spawned⟩) :
      AccountStep s s' c (.conn c (.acquired t)) []
  | runs {t w pc} (hc : (s.tasks t).connectionId = c) (ht : (s.tasks t).pc = .spawned)
      (h : Continues (s.conns c) (s'.conns c)) (hp : (s'.conns c).phase = (s.conns c).phase)
      (htasks : s'.tasks = Function.update s.tasks t { s.tasks t with pc := pc })
      (hpc : pc = .finished ∨ ∃ packet, pc = .answering packet ∧
        (execTask setup s (s.tasks t) w).result = some (some packet)) :
      AccountStep s s' c (.task t (.run w)) []
  | encodes {t random packet item} (hc : (s.tasks t).connectionId = c)
      (ht : (s.tasks t).pc = .answering packet) (h : Continues (s.conns c) (s'.conns c))
      (hp : (s'.conns c).phase = (s.conns c).phase)
      (htasks : s'.tasks = Function.update s.tasks t { s.tasks t with pc := .sending item })
      (hitem : setup.server.handle.outbound setup.libs random packet = .ok item) :
      AccountStep s s' c (.task t (.queue random)) []
  | answers {t item} (hc : (s.tasks t).connectionId = c) (ht : (s.tasks t).pc = .sending item)
      (h : Continues (s.conns c) (s'.conns c)) (hp : (s'.conns c).phase = (s.conns c).phase)
      (htasks : s'.tasks = Function.update s.tasks t { s.tasks t with pc := .finished }) :
      AccountStep s s' c (.task t .send) [item]

variable {setup} {s s' : State} {a : Action W} {c : String}

theorem Continues.of_eq {old new : Conn} (h : new = old) : Continues old new := by
  subst h
  exact ⟨rfl, rfl, List.prefix_rfl⟩

theorem Phase.Outside.not_pending {p : Phase} (h : p.Outside) : ¬ p.Pending := by
  rcases h with rfl | h
  · exact not_false
  · cases p with
    | queueing | ponging | acquiring => exact h.elim
    | _ => exact not_false

theorem pending_not_outside {p : Phase} (h : p.Pending) : ¬ p.Outside := fun hout => hout.not_pending h

theorem pending_of_held {p : Phase} {item : ServerOutbound} (h : p.held = some item) : p.Pending := by
  cases p with
  | queueing | ponging => trivial
  | _ => cases h

/-- A step that does not touch the connection or its tasks. -/
theorem AccountStep.elsewhere (hconn : s'.conns c = s.conns c)
    (htasks : ∀ t, s'.Works c t → s'.tasks t = s.tasks t) (hrun : executed c s a = []) :
    AccountStep setup s s' c a (appended c s s' a) := by
  rw [appended_nil (by rw [hconn])]
  exact .rests (.of_eq hconn) (.inr (by rw [hconn])) (.inl (by rw [hconn])) htasks (by simp) hrun

theorem AccountStep.of_conn (c d : String) (hne : ∀ e, e ≠ d → s'.conns e = s.conns e)
    (htasks : s'.tasks = s.tasks) (hrun : executed c s a = [])
    (h : AccountStep setup s s' d a (appended d s s' a)) :
    AccountStep setup s s' c a (appended c s s' a) := by
  by_cases hcd : c = d
  · exact hcd ▸ h
  · exact .elsewhere (hne c hcd) (fun t _ => by rw [htasks]) hrun

/-- A task's step concerns its connection. -/
theorem AccountStep.of_task (c : String) {t : ℕ} (pc : TaskPc)
    (hne : ∀ e, e ≠ (s.tasks t).connectionId → s'.conns e = s.conns e)
    (htasks : s'.tasks = Function.update s.tasks t { s.tasks t with pc := pc }) {op : TaskOp W}
    (h : AccountStep setup s s' (s.tasks t).connectionId (.task t op)
      (appended (s.tasks t).connectionId s s' (.task t op))) :
    AccountStep setup s s' c (.task t op) (appended c s s' (.task t op)) := by
  by_cases hc : (s.tasks t).connectionId = c
  · exact hc ▸ h
  · refine .elsewhere (hne c (Ne.symm hc)) (fun u hu => ?_) ?_
    · rw [htasks]
      refine Function.update_of_ne (fun hut => hc ?_) ..
      subst hut
      rw [← hu.2, htasks, Function.update_self]
    · cases op with
      | run w => exact if_neg hc
      | _ => rfl

/-- A step after which the reader waits for nothing. -/
theorem AccountStep.free (c d : String) {op : ConnOp W} {s₁ : State} {conn : Conn}
    (hconns : s₁.conns = s.conns) (htasks : s₁.tasks = s.tasks) (h : Continues (s.conns d) conn)
    (hout : ¬ conn.phase.Outside) (hp : ¬ conn.phase.Pending)
    (hitems : ∀ item ∈ conn.channel.queue.drop (s.conns d).channel.queue.length,
      Unsolicited setup s item) :
    AccountStep setup s (s₁.setConn d conn) c (.conn d op)
      (appended c s (s₁.setConn d conn) (.conn d op)) := by
  refine .of_conn c d (fun e he => ?_) htasks rfl ?_
  · rw [State.setConn_of_ne _ he, hconns]
  · refine .rests ?_ (.inl ?_) (.inr ?_) (fun t _ => ?_) ?_ rfl
    · rwa [State.setConn_self]
    · rwa [State.setConn_self]
    · rwa [State.setConn_self]
    · exact congrFun htasks t
    · simpa only [appended, State.setConn_self] using hitems

/-- The teardown queues the close item, if anything. -/
theorem AccountStep.teardown (c d : String) {op : ConnOp W} {s₁ : State}
    (hne : ∀ e, e ≠ d → s₁.conns e = s.conns e) (htasks : s₁.tasks = s.tasks)
    (h : Continues (s.conns d) (s₁.conns d))
    (hq : (s₁.conns d).channel.queue = (s.conns d).channel.queue) :
    AccountStep setup s (Wscall.Server.teardown s₁ d) c (.conn d op)
      (appended c s (Wscall.Server.teardown s₁ d) (.conn d op)) := by
  have hself : (Wscall.Server.teardown s₁ d).conns d = { s₁.conns d with
      phase := .closing
      channel := ((s₁.conns d).channel.trySend .close).getD (s₁.conns d).channel } := by
    simp only [Wscall.Server.teardown, State.setConn_self]
  refine .of_conn c d (fun e he => ?_) htasks rfl ?_
  · exact (State.setConn_of_ne _ he _).trans (hne e he)
  · refine .rests ?_ (.inl ?_) (.inr ?_) (fun t _ => congrFun htasks t) ?_ rfl
    · rw [hself]
      exact ⟨h.codec, h.peer, h.inbox⟩
    · rw [hself]
      exact Phase.not_outside (by simp) not_false
    · rw [hself]
      exact not_false
    · intro item hitem
      simp only [appended, hself, ← hq] at hitem
      rcases trySend_close (s₁.conns d).channel with hnone | ⟨-, -, hsome⟩
      · simp [hnone] at hitem
      · simp [hsome, Channel.push] at hitem
        exact .inl hitem

/-- The writer's steps. -/
theorem AccountStep.writer (c d : String) {op : WriterOp} {conn : Conn}
    (hcodec : conn.codec = (s.conns d).codec) (hpeer : conn.peer = (s.conns d).peer)
    (hinbox : conn.inbox = (s.conns d).inbox) (hp : conn.phase = (s.conns d).phase) :
    AccountStep setup s (s.setConn d conn) c (.writer d op)
      (appended c s (s.setConn d conn) (.writer d op : Action W)) := by
  refine .of_conn c d (fun e he => State.setConn_of_ne _ he _) rfl rfl ?_
  refine .rests ?_ (.inr ?_) (.inl ?_) (fun _ _ => rfl) (by simp [appended]) rfl
  · rw [State.setConn_self]
    exact ⟨hcodec, hpeer, hinbox ▸ List.prefix_rfl⟩
  · rw [State.setConn_self, hp]
  · rw [State.setConn_self, hp]

/-! One lemma for each kind of move. -/

theorem accountStep_accepted (c d : String) (hp : (s.conns d).phase = .absent) {peer : SocketAddr}
    {now : ℕ} {limiter : Option RateLimiterState} {phase : Phase}
    (hphase : phase = .upgrading ∨ phase = .ended) {s' : State}
    (hs : s' = { s with limiter := limiter }.setConn d (Conn.new peer phase)) :
    AccountStep setup s s' c (.conn d (.accept peer now)) (appended c s s' (.conn d (.accept peer now) : Action W)) := by
  subst hs
  refine .of_conn c d (fun e he => State.setConn_of_ne _ he _) rfl rfl ?_
  rw [appended_nil (by simp [Conn.new])]
  refine .outside (.inl hp) ?_ rfl rfl
  rw [State.setConn_self]
  rcases hphase with rfl | rfl <;> exact not_false

theorem accountStep_shook (c d : String) {op : ConnOp W} {conn : Conn}
    (h : Shakes setup (s.conns d) op conn) :
    AccountStep setup s (s.setConn d conn) c (.conn d op)
      (appended c s (s.setConn d conn) (.conn d op)) := by
  refine .of_conn c d (fun e he => State.setConn_of_ne _ he _) rfl rfl ?_
  rw [appended_nil (by rw [State.setConn_self, h.shaken.channel])]
  refine .outside (.inr h.handshake) ?_ rfl rfl
  rw [State.setConn_self]
  rcases h.next with hphase | hphase
  · exact Phase.Outside.not_pending (.inr hphase)
  · rw [hphase]
    exact not_false

theorem accountStep_entered (c d : String) {op : ConnOp W} {conn : Conn} {w : W}
    {output : Option AuthOutput} (h : Shakes setup (s.conns d) op conn) :
    AccountStep setup s (enter setup (s.setConn d conn) d w output) c (.conn d op)
      (appended c s (enter setup (s.setConn d conn) d w output) (.conn d op)) := by
  refine .of_conn c d (fun e he => ?_) rfl rfl ?_
  · simp only [enter, State.setConn_setConn, State.setConn_of_ne s he]
  · rw [appended_nil (by simp [enter])]
    refine .outside (.inr h.handshake) ?_ rfl rfl
    simp only [enter, State.setConn_self]
    split <;> exact not_false

theorem Reads.not_outside {codec : FrameCodec} {now : ℕ} {random : Except String Nonce}
    {message : Option WsMessage} {phase : Phase} (h : Reads setup s c codec now random message phase) :
    ¬ phase.Outside := by
  refine Phase.not_outside h.ne_absent ?_
  cases h <;> exact not_false

theorem accountStep_read (c d : String) {codec : FrameCodec} {message : Option WsMessage} {now : ℕ}
    {random : Except String Nonce} {limiter : Option RateLimiterState} {phase : Phase}
    (hp : (s.conns d).phase = .reading) (hc : (s.conns d).codec = some codec)
    (h : Reads setup s d codec now random message phase) {s' : State}
    (hs : s' = { s with limiter := limiter }.setConn d { s.conns d with
      phase := phase
      inbox := (s.conns d).inbox ++ message.toList }) :
    AccountStep setup s s' c (.conn d (.received message now random))
      (appended c s s' (.conn d (.received message now random) : Action W)) := by
  subst hs
  have hcont : Continues (s.conns d) { s.conns d with
      phase := phase
      inbox := (s.conns d).inbox ++ message.toList } := ⟨rfl, rfl, List.prefix_append ..⟩
  by_cases hpending : phase.Pending
  · refine .of_conn c d (fun e he => State.setConn_of_ne _ he _) rfl rfl ?_
    rw [appended_nil (by rw [State.setConn_self])]
    cases message with
    | none => cases h
    | some message =>
      refine .reads hp hc ?_ ?_ ?_ ?_ rfl <;> rw [State.setConn_self]
      · exact hcont
      · rfl
      · exact h
      · exact hpending
  · exact .free c d rfl rfl hcont h.not_outside hpending (by simp)

theorem accountStep_queued (c d : String) {item : ServerOutbound}
    (hp : (s.conns d).phase.held = some item) {s' : State}
    (hs : s' = s.setConn d { s.conns d with
      channel := (s.conns d).channel.push item
      phase := .reading }) :
    AccountStep setup s s' c (.conn d .queued) (appended c s s' (.conn d .queued : Action W)) := by
  subst hs
  refine .of_conn c d (fun e he => State.setConn_of_ne _ he _) rfl rfl ?_
  have hself : ((s.setConn d { s.conns d with
      channel := (s.conns d).channel.push item
      phase := .reading }).conns d).channel.queue = (s.conns d).channel.queue ++ [item] := by
    rw [State.setConn_self]
    rfl
  rw [appended_eq (by simp) hself]
  refine .pays hp ?_ ?_ rfl <;> rw [State.setConn_self]
  exact ⟨rfl, rfl, List.prefix_rfl⟩

theorem accountStep_acquired (c d : String) {t : ℕ} {body : PacketBody}
    (hp : (s.conns d).phase = .acquiring body) {s' : State}
    (hs : s' = (s.setTask t ⟨d, body, .spawned⟩).setConn d { s.conns d with
      inFlight := (s.conns d).inFlight + 1
      phase := .reading }) :
    AccountStep setup s s' c (.conn d (.acquired t))
      (appended c s s' (.conn d (.acquired t) : Action W)) := by
  subst hs
  by_cases hcd : c = d
  · subst hcd
    rw [appended_nil (by rw [State.setConn_self])]
    refine .spawns hp ?_ ?_ rfl <;> rw [State.setConn_self]
    exact ⟨rfl, rfl, List.prefix_rfl⟩
  · refine .elsewhere (State.setConn_of_ne _ hcd _) (fun u hu => ?_) rfl
    refine Function.update_of_ne (fun hut => hcd ?_) ..
    subst hut
    rw [← hu.2]
    simp [State.setConn, State.setTask]

theorem accountStep_answered (c : String) {t : ℕ} {item : ServerOutbound}
    (ht : (s.tasks t).pc = .sending item) {s' : State}
    (hs : s' = finishTask (s.setConn (s.tasks t).connectionId
      { s.conns (s.tasks t).connectionId with
        channel := (s.conns (s.tasks t).connectionId).channel.push item }) t (s.tasks t)) :
    AccountStep setup s s' c (.task t .send) (appended c s s' (.task t .send : Action W)) := by
  have hself : s'.conns (s.tasks t).connectionId = { s.conns (s.tasks t).connectionId with
      channel := (s.conns (s.tasks t).connectionId).channel.push item
      inFlight := (s.conns (s.tasks t).connectionId).inFlight - 1 } := by
    simp only [hs, finishTask, State.setTask, State.setConn_self]
  refine .of_task c .finished (fun e he => ?_) (by rw [hs]; rfl) ?_
  · simp only [hs, finishTask, State.setTask, State.setConn_of_ne _ he]
  · rw [appended_eq (by simp) (by rw [hself, Channel.push])]
    refine .answers rfl ht ?_ ?_ (by rw [hs]; rfl) <;> rw [hself]
    exact ⟨rfl, rfl, List.prefix_rfl⟩

theorem accountStep_finished (c : String) {t : ℕ} {op : TaskOp W} {calls : List (String × Invocation)}
    (hf : Finishes setup s t op calls) {s' : State}
    (hs : s' = finishTask { s with calls := calls } t (s.tasks t)) :
    AccountStep setup s s' c (.task t op) (appended c s s' (.task t op)) := by
  have hself : s'.conns (s.tasks t).connectionId = { s.conns (s.tasks t).connectionId with
      inFlight := (s.conns (s.tasks t).connectionId).inFlight - 1 } := by
    simp only [hs, finishTask, State.setTask, State.setConn_self]
  have hcont : Continues (s.conns (s.tasks t).connectionId) (s'.conns (s.tasks t).connectionId) := by
    rw [hself]
    exact ⟨rfl, rfl, List.prefix_rfl⟩
  have htasks : s'.tasks = Function.update s.tasks t { s.tasks t with pc := .finished } := by
    rw [hs]
    rfl
  have hgone : ∀ u, s'.Works (s.tasks t).connectionId u → s'.tasks u = s.tasks u := by
    intro u hu
    rw [htasks]
    refine Function.update_of_ne (fun hut => ?_) ..
    subst hut
    have hpc := hu.1
    rw [htasks, Function.update_self] at hpc
    exact hpc
  refine .of_task c .finished (fun e he => ?_) htasks ?_
  · simp only [hs, finishTask, State.setTask, State.setConn_of_ne _ he]
  · rw [appended_nil (by rw [hself])]
    cases hf with
    | silent ht => exact .runs rfl ht hcont (by rw [hself]) htasks (.inl rfl)
    | dropped => exact .rests hcont (.inr (by rw [hself])) (.inl (by rw [hself])) hgone (by simp) rfl
    | unsent => exact .rests hcont (.inr (by rw [hself])) (.inl (by rw [hself])) hgone (by simp) rfl

theorem accountStep_delivered (c d : String) {k : ℕ} {op : PushOp} {item : ServerOutbound} {n : UInt64}
    (hitem : s.pushes k = some item ∨ PushedBy setup op.handle? item) {s' : State}
    (hs : s' = { s with nextEventId := n }.setConn d { s.conns d with
      channel := (s.conns d).channel.push item }) :
    AccountStep setup s s' c (.push k op) (appended c s s' (.push k op : Action W)) := by
  subst hs
  refine .of_conn c d (fun e he => State.setConn_of_ne _ he _) rfl rfl ?_
  have hself : (({ s with nextEventId := n }.setConn d { s.conns d with
      channel := (s.conns d).channel.push item }).conns d).channel.queue =
        (s.conns d).channel.queue ++ [item] := by
    rw [State.setConn_self]
    rfl
  rw [appended_eq (by simp) hself]
  refine .rests ?_ (.inr ?_) (.inl ?_) (fun _ _ => rfl) (fun item' hmem => ?_) rfl
  · rw [State.setConn_self]
    exact ⟨rfl, rfl, List.prefix_rfl⟩
  · rw [State.setConn_self]
  · rw [State.setConn_self]
  · rw [List.mem_singleton.mp hmem]
    rcases hitem with hitem | hitem
    · exact .inr (.inr ⟨k, hitem⟩)
    · exact .inr (.inl hitem.eventItem)

theorem accountStep_of_move (hm : Move setup s a s') (c : String) :
    AccountStep setup s s' c a (appended c s s' a) := by
  have hreading : ¬ Phase.reading.Outside := Phase.not_outside (by simp) not_false
  cases hm with
  | @accepted d peer now limiter phase hp hphase => exact accountStep_accepted c d hp hphase rfl
  | shook h => exact accountStep_shook c _ h
  | entered h => exact accountStep_entered c _ h
  | @greeted d random item hp hitem =>
    refine .free c d rfl rfl ⟨rfl, rfl, List.prefix_rfl⟩ hreading not_false ?_
    simp only [Channel.push, List.drop_left, List.mem_singleton]
    rintro item' rfl
    exact .inr (.inl ⟨_, List.mem_cons_self .., _, _, random, hitem⟩)
  | @ungreeted d random hp =>
    refine .teardown c d (fun e he => State.setConn_of_ne _ he _) rfl ?_ ?_ <;> rw [State.setConn_self]
    exact ⟨rfl, rfl, List.prefix_rfl⟩
  | read hp hc h => exact accountStep_read c _ hp hc h rfl
  | @hungUp d codec message now random hp =>
    refine .teardown c d (fun e he => State.setConn_of_ne _ he _) rfl ?_ ?_ <;>
      rw [State.logged, State.setConn_self]
    exact ⟨rfl, rfl, List.prefix_append ..⟩
  | queued hp => exact accountStep_queued c _ hp rfl
  | @unqueued d item hp hdead =>
    exact .free c d rfl rfl ⟨rfl, rfl, List.prefix_rfl⟩ hreading not_false (by simp)
  | @unponged d payload hp hdead =>
    exact .teardown c d (fun e _ => rfl) rfl ⟨rfl, rfl, List.prefix_rfl⟩ rfl
  | acquired hp => exact accountStep_acquired c _ hp rfl
  | @graceOver d hp =>
    exact .free c d rfl rfl ⟨rfl, rfl, List.prefix_rfl⟩ (Phase.not_outside (by simp) not_false)
      not_false (by simp)
  | @ticked d hw => exact .writer c d rfl rfl rfl rfl
  | @stopped d op hw => exact .writer c d rfl rfl rfl rfl
  | @wrote d random item rest codec message goesOn hw hq hc hmsg => exact .writer c d rfl rfl rfl rfl
  | @ran t w packet ht hres =>
    apply AccountStep.of_task c (.answering packet)
    · exact fun e _ => rfl
    · rfl
    · rw [appended_nil (by exact le_rfl)]
      exact .runs rfl ht (.of_eq rfl) rfl rfl (.inr ⟨packet, rfl, hres⟩)
  | @encoded t random packet item ht hin hitem =>
    apply AccountStep.of_task c (.sending item)
    · exact fun e _ => rfl
    · rfl
    · rw [appended_nil (by exact le_rfl)]
      exact .encodes rfl ht (.of_eq rfl) rfl rfl hitem
  | answered ht => exact accountStep_answered c ht rfl
  | finished hf => exact accountStep_finished c hf rfl
  | delivered hitem => exact accountStep_delivered c _ hitem rfl
  | @aside a limiter n pushes ha hpushes =>
    refine .elsewhere rfl (fun _ _ => rfl) ?_
    cases a with
    | task t op => exact ha.elim
    | _ => rfl

end Steps

end Wscall.Server
