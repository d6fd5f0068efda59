import Wscall.Client.Correlation
import Wscall.Client.Generations
import Wscall.Protocol.Codec

/-!
# What goes through the client's outbound queues (`client_runtime.rs:261-341`, `404-455`, `630-779`)

Each connection has its own bounded channel. `call`, `send_event`, `close` and the event
tasks take the sender that is stored at the moment they send, the heartbeat and the reader
keep the one of their connection, and the writer task takes the items out. A step is what a
task does between two awaits; the supervisor and the ends of connections are `Lifecycle`.
-/

namespace Wscall.Client.Traffic
open RustStd Protocol

structure Config where
  lifecycle : Lifecycle.Config
  libs : Libs
  codec : FrameCodec
  defaultEncryption : EncryptionKind
  sessionKey : ℕ → Key

def Config.sessionCodec (cfg : Config) (g : ℕ) : FrameCodec :=
  if cfg.lifecycle.useEcdh then FrameCodec.plaintext.withChacha20Key (cfg.sessionKey g) else cfg.codec

def clientMetadata : Value := .ofTree (.object [("client_name", .string "rust-demo")])

inductive Request where
  | api (route : String) (params : Value) (attachments : List FileAttachment)
  | event (name : String) (data : Map) (attachments : List FileAttachment)

def Request.kind : Request → Kind
  | .api .. => .api
  | .event .. => .event

def Request.body (id : UInt64) : Request → PacketBody
  | .api route params attachments => .apiRequest id route params attachments clientMetadata
  | .event name data attachments => .eventEmit id name data attachments clientMetadata true

/-- `ClientOutbound`. A packet comes with the invocation it is for, or with the generation
whose reader got the event it acknowledges. -/
inductive Item where
  | request (c : CallId) (packet : PacketEnvelope)
  | ack (received : ℕ) (packet : PacketEnvelope)
  | ping
  | pong (payload : Bytes)
  | close

def Item.packet? : Item → Option PacketEnvelope
  | .request _ p | .ack _ p => some p
  | _ => none

inductive Pc where
  | idle
  | sending (id : UInt64) (generation : ℕ) (packet : PacketEnvelope)
  | waiting (id : UInt64)
  /-- The future was dropped: before its packet was queued, or after. -/
  | dropped
  | cancelled
  | returned (r : Outcome)

/-- The packet has been queued and nothing was returned. -/
def Pc.Queued : Pc → Prop
  | .waiting _ | .cancelled => True
  | _ => False

inductive WriterPc where
  | receiving
  | sending
  | closing
  deriving DecidableEq

inductive EventPc where
  | absent
  | handling (received : ℕ) (eventId : UInt64) (expectAck : Bool)
  | sending (received generation : ℕ) (packet : PacketEnvelope)
  | finished

structure Entry where
  kind : Kind
  id : UInt64
  owner : CallId

structure State where
  client : Lifecycle.State
  next : Kind → UInt64
  /-- `pending_api` and `pending_event`. -/
  pending : List Entry
  calls : CallId → Pc
  cells : CallId → Cell
  queue : ℕ → List Item
  /-- The packets handed to the socket, with their frames. -/
  written : ℕ → List (Item × Bytes)
  writers : ℕ → WriterPc
  /-- The channel a `close()` sends its item to. -/
  closers : ℕ → Option ℕ
  events : ℕ → EventPc
  /-- An `on_connected` handler panicked in its call and took the supervisor with it. -/
  crashed : Bool

namespace State

def init : State where
  client := Lifecycle.State.init
  next _ := 0
  pending := []
  calls _ := .idle
  cells _ := .empty
  queue _ := []
  written _ := []
  writers _ := .receiving
  closers _ := none
  events _ := .absent
  crashed := false

def setCall (s : State) (c : CallId) (pc : Pc) : State :=
  { s with calls := Function.update s.calls c pc }

def setEvent (s : State) (t : ℕ) (pc : EventPc) : State :=
  { s with events := Function.update s.events t pc }

def setQueue (s : State) (g : ℕ) (items : List Item) : State :=
  { s with queue := Function.update s.queue g items }

def setWriter (s : State) (g : ℕ) (pc : WriterPc) : State :=
  { s with writers := Function.update s.writers g pc }

/-- The receiver is there: it is the supervisor's until the writer task is spawned. -/
def isOpen (s : State) (g : ℕ) : Bool :=
  s.client.tasks g .writer ≠ .done ∧ ¬ (s.crashed = true ∧ g = s.client.attempts)

def capacity : ℕ := 256

/-- `send(item).await` on the channel of a generation, when it goes through. -/
def send (s : State) (g : ℕ) (item : Item) : Option State :=
  if s.isOpen g ∧ (s.queue g).length < capacity then some (s.setQueue g (s.queue g ++ [item]))
  else none

def lookup (s : State) (k : Kind) (id : UInt64) : Option Entry :=
  s.pending.find? fun e => e.kind = k ∧ e.id = id

/-- Takes an entry out of its table, with what becomes of its sender. -/
def remove (s : State) (k : Kind) (id : UInt64) (cell : Cell) : State :=
  match s.lookup k id with
  | none => s
  | some e =>
    { s with
      pending := s.pending.filter fun e => ¬ (e.kind = k ∧ e.id = id)
      cells := Function.update s.cells e.owner cell }

/-- A new `oneshot` channel, with its sender in the table. -/
def enter (s : State) (c : CallId) (id : UInt64) : State :=
  { s with pending := ⟨c.kind, id, c⟩ :: s.pending, cells := Function.update s.cells c .empty }

/-- `handle_disconnect` tells every waiter. -/
def drain (s : State) (reason : String) : State :=
  { s with
    pending := []
    cells := s.pending.foldl (fun cells e =>
      Function.update cells e.owner (.full (.error (.connectionClosed reason)))) s.cells }

end State

/-! ### The tasks -/

inductive CallOp where
  | start (request : Request)
  | sent
  | sendFailed
  | receive
  | elapse
  | cancel

/-- `call` and `send_event`. -/
def stepCall (cfg : Config) (s : State) (c : CallId) : CallOp → Pc → Option State
  | .start request, .idle =>
    if s.client.ready = some true ∧ request.kind = c.kind then
      if s.client.isConnected then
        let id := s.next c.kind + 1
        let packet := PacketEnvelope.withEncryption (request.body id) cfg.defaultEncryption
        -- `insert` drops the sender of an entry that has the id
        let s := { s.remove c.kind id .closed with next := Function.update s.next c.kind id }
        match s.client.writer with
        | some g => some ((s.enter c id).setCall c (.sending id g packet))
        | none => some (s.setCall c (.returned (.error .disconnected)))
      else some (s.setCall c (.returned (.error .disconnected)))
    else none
  | .sent, .sending id g packet => (s.send g (.request c packet)).map (·.setCall c (.waiting id))
  | .sendFailed, .sending id g _ =>
    if s.isOpen g then none
    else some ((s.remove c.kind id .closed).setCall c (.returned (.error .disconnected)))
  | .receive, .waiting _ =>
    match s.cells c with
    | .full r => some (s.setCall c (.returned r))
    | .closed => some (s.setCall c (.returned (.error .disconnected)))
    | .empty => none
  | .elapse, .waiting id =>
    match s.cells c with
    | .empty => some ((s.remove c.kind id .closed).setCall c (.returned (.error .timeout)))
    | _ => none
  | .cancel, .sending _ _ _ => some (s.setCall c .dropped)
  | .cancel, .waiting _ => some (s.setCall c .cancelled)
  | _, _ => none

inductive WriterOp where
  | receive (random : Except String Nonce)
  | flushed

/-- The loop of the writer task. What cannot be encoded is dropped with a warning. -/
def stepWriter (cfg : Config) (s : State) (g : ℕ) : WriterOp → WriterPc → Option State
  | .receive random, .receiving =>
    match s.queue g with
    | [] => none
    | item :: rest =>
      let s := s.setQueue g rest
      match item.packet? with
      | some packet =>
        match (cfg.sessionCodec g).encode cfg.libs random packet with
        | .ok frame =>
          some ({ s with
            written := Function.update s.written g (s.written g ++ [(item, frame)]) }.setWriter g
              .sending)
        | .error _ => some s
      | none => some (s.setWriter g (match item with | .close => .closing | _ => .sending))
  | .flushed, .sending => some (s.setWriter g .receiving)
  | _, _ => none

inductive ReaderOp where
  /-- A packet that decoded; an event is handled in a task of its own. -/
  | packet (body : PacketBody) (task : ℕ)
  | ping (payload : Bytes)

/-- The loop of the reader task, up to the spawn for an event. -/
def stepReader (s : State) (g : ℕ) : ReaderOp → Option State
  | .packet body t =>
    match answer body with
    | some (k, id, r) => some (s.remove k id (.full r))
    | none =>
      match body, s.events t with
      | .eventEmit eventId _ _ _ _ expectAck, .absent =>
        some (s.setEvent t (.handling g eventId expectAck))
      | .eventEmit .., _ => none
      | _, _ => some s
  | .ping payload => s.send g (.pong payload)

inductive EventOp where
  /-- The handlers are through, with the receipt, or one of them panicked. -/
  | handled (receipt : Option Value)
  | sent
  | sendFailed

/-- The task of an event: `send_outbound` takes the sender that is stored then. -/
def stepEvent (cfg : Config) (s : State) (t : ℕ) : EventOp → EventPc → Option State
  | .handled receipt, .handling received eventId expectAck =>
    match receipt, expectAck, s.client.writer with
    | some receipt, true, some g =>
      some (s.setEvent t (.sending received g
        (.withEncryption (.eventAck eventId true receipt none) cfg.defaultEncryption)))
    | _, _, _ => some (s.setEvent t .finished)
  | .sent, .sending received g packet =>
    (s.send g (.ack received packet)).map (·.setEvent t .finished)
  | .sendFailed, .sending _ g _ => if s.isOpen g then none else some (s.setEvent t .finished)
  | _, _ => none

/-! ### The supervisor and the ends of connections -/

/-- What a step of the lifecycle does to the queues before it: `close()` takes the stored
sender, and later its item goes through or the channel is gone. -/
def beforeLifecycle (s : State) : Lifecycle.Action → Option State
  | .supervisor _ => if s.crashed then none else some s
  | .close caller .call => some { s with closers := Function.update s.closers caller s.client.writer }
  | .close caller .sent =>
    match s.closers caller with
    | some g => if s.isOpen g then s.send g .close else some s
    | none => some s
  | _ => some s

/-- The queue goes with the writer task. -/
def afterLifecycle (s : State) : Lifecycle.Action → State
  | .task g .writer _ => if s.client.tasks g .writer = .done then s.setQueue g [] else s
  | _ => s

def stepLifecycle (cfg : Config) (s : State) (a : Lifecycle.Action) (reason : String) : Option State := do
  let client ← Lifecycle.step cfg.lifecycle a s.client
  let s' ← beforeLifecycle s a
  let s' := if (Lifecycle.notified s.client a).isSome then s'.drain reason else s'
  return afterLifecycle { s' with client := client } a

inductive Action where
  | lifecycle (a : Lifecycle.Action) (reason : String)
  | call (c : CallId) (op : CallOp)
  | writer (g : ℕ) (op : WriterOp)
  | heartbeat (g : ℕ)
  | reader (g : ℕ) (op : ReaderOp)
  | event (t : ℕ) (op : EventOp)
  /-- An `on_connected` handler panics in its call while `emit_connected` runs. -/
  | connectedPanics
  /-- An `on_disconnected` handler panics in its call: the signal is not sent. -/
  | disconnectedPanics (g : ℕ) (k : Lifecycle.Task)

def step (cfg : Config) : Action → State → Option State
  | .lifecycle a reason, s => stepLifecycle cfg s a reason
  | .call c op, s => stepCall cfg s c op (s.calls c)
  | .writer g op, s =>
    if s.client.tasks g .writer = .running then stepWriter cfg s g op (s.writers g) else none
  | .heartbeat g, s => if s.client.tasks g .heartbeat = .running then s.send g .ping else none
  | .reader g op, s => if s.client.tasks g .reader = .running then stepReader s g op else none
  | .event t op, s => stepEvent cfg s t op (s.events t)
  | .connectedPanics, s =>
    match s.client.phase with
    | .emitting g (_ + 1) =>
      if s.crashed then none else some { s.setQueue g [] with crashed := true }
    | _ => none
  | .disconnectedPanics g k, s =>
    if s.client.tasks g k = .notifying then
      some (afterLifecycle { s with client := s.client.setTask g k .done } (.task g k .signal))
    else none

/-! ### The channels -/

namespace State

/-- What was queued on a connection and not dropped. -/
def outbound (s : State) (g : ℕ) : List Item := s.queue g ++ (s.written g).map Prod.fst

variable {s : State}

theorem outbound_setQueue_self (g : ℕ) (items : List Item) :
    (s.setQueue g items).outbound g = items ++ (s.written g).map Prod.fst := by
  simp [outbound, setQueue]

theorem outbound_setQueue_ne {g g' : ℕ} (hne : g' ≠ g) (items : List Item) :
    (s.setQueue g items).outbound g' = s.outbound g' := by
  simp [outbound, setQueue, Function.update_of_ne hne]

theorem perm_push (g g' : ℕ) (item : Item) :
    ((s.setQueue g (s.queue g ++ [item])).outbound g').Perm
      (s.outbound g' ++ if g' = g then [item] else []) := by
  split
  · rename_i heq
    subst heq
    rw [outbound_setQueue_self, outbound, List.append_assoc, List.append_assoc]
    exact List.perm_append_comm.append_left _
  · rename_i hne
    rw [outbound_setQueue_ne hne, List.append_nil]

theorem perm_write {g : ℕ} {item : Item} {rest : List Item} (hq : s.queue g = item :: rest)
    (frame : Bytes) (g' : ℕ) :
    ({ s.setQueue g rest with
      written := Function.update s.written g (s.written g ++ [(item, frame)]) }.outbound g').Perm
      (s.outbound g') := by
  by_cases hg : g' = g
  · subst hg
    simp only [outbound, setQueue, Function.update_self, hq, List.map_append, List.map_cons,
      List.map_nil, ← List.append_assoc]
    exact List.perm_append_singleton ..
  · simp only [outbound, setQueue, Function.update_of_ne hg]
    exact List.Perm.refl _

theorem send_eq_some {s' : State} {g : ℕ} {item : Item} (h : s.send g item = some s') :
    s' = s.setQueue g (s.queue g ++ [item]) := by
  unfold send at h
  split at h <;> cases h
  rfl

section Remove

variable (k : Kind) (id : UInt64) (cell : Cell)

@[simp] theorem remove_client : (s.remove k id cell).client = s.client := by
  unfold remove
  split <;> rfl

@[simp] theorem remove_next : (s.remove k id cell).next = s.next := by
  unfold remove
  split <;> rfl

@[simp] theorem remove_calls : (s.remove k id cell).calls = s.calls := by
  unfold remove
  split <;> rfl

@[simp] theorem remove_events : (s.remove k id cell).events = s.events := by
  unfold remove
  split <;> rfl

@[simp] theorem remove_outbound : (s.remove k id cell).outbound = s.outbound := by
  unfold remove
  split <;> rfl

end Remove

end State

/-! ### What the parts of a step do -/

section Parts

variable {cfg : Config} {s s' : State} {g : ℕ}

inductive Writes (cfg : Config) (s : State) (g : ℕ) : WriterOp → State → Prop
  | written {random item rest packet frame} (hq : s.queue g = item :: rest)
      (hpacket : item.packet? = some packet)
      (hframe : (cfg.sessionCodec g).encode cfg.libs random packet = .ok frame) :
      Writes cfg s g (.receive random) ({ s.setQueue g rest with
        written := Function.update s.written g (s.written g ++ [(item, frame)]) }.setWriter g .sending)
  | refused {random item rest packet} (hq : s.queue g = item :: rest)
      (hpacket : item.packet? = some packet)
      (hframe : ∀ frame, (cfg.sessionCodec g).encode cfg.libs random packet ≠ .ok frame) :
      Writes cfg s g (.receive random) (s.setQueue g rest)
  | control {random item rest} (pc : WriterPc) (hq : s.queue g = item :: rest)
      (hpacket : item.packet? = none) :
      Writes cfg s g (.receive random) ((s.setQueue g rest).setWriter g pc)
  | flushed : Writes cfg s g .flushed (s.setWriter g .receiving)

theorem stepWriter_writes {op : WriterOp} {pc : WriterPc} (h : stepWriter cfg s g op pc = some s') :
    Writes cfg s g op s' := by
  unfold stepWriter at h
  split at h
  · split at h
    · cases h
    · rename_i item rest hq
      dsimp only at h
      split at h
      · rename_i packet hpacket
        split at h <;> cases h
        · exact .written hq hpacket ‹_›
        · exact .refused hq hpacket (by simp [*])
      · cases h
        exact .control _ hq ‹_›
  · cases h
    exact .flushed
  · cases h

theorem beforeLifecycle_cases {a : Lifecycle.Action} (h : beforeLifecycle s a = some s') :
    (∃ closers, s' = { s with closers := closers }) ∨ ∃ g, s.send g .close = some s' := by
  unfold beforeLifecycle at h
  split at h
  · split at h <;> cases h
    exact .inl ⟨_, rfl⟩
  · cases h
    exact .inl ⟨_, rfl⟩
  · split at h
    · split at h
      · exact .inr ⟨_, h⟩
      · cases h
        exact .inl ⟨_, rfl⟩
    · cases h
      exact .inl ⟨_, rfl⟩
  · cases h
    exact .inl ⟨_, rfl⟩

theorem afterLifecycle_cases (s : State) (a : Lifecycle.Action) : afterLifecycle s a = s ∨
    ∃ g, s.client.tasks g .writer = .done ∧ afterLifecycle s a = s.setQueue g [] := by
  unfold afterLifecycle
  split
  · split
    · exact .inr ⟨_, ‹_›, rfl⟩
    · exact .inl rfl
  · exact .inl rfl

end Parts

/-- A connection is made, up to the spawn of its tasks. -/
def dial : List Action :=
  [.top, .connectResult true, .publish, .lockHandlers, .spawnTasks].map fun op =>
    .lifecycle (.supervisor op) ""

end Wscall.Client.Traffic
