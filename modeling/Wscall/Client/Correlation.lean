import Wscall.Lib.Machine
import Wscall.Protocol.Packet

/-!
# Request/response correlation of the client (`wscall-client/src/client_runtime.rs`)

`call` and `send_event` are the same protocol over two counters and two tables, so the
machine is indexed by `Kind`. Every atomic operation on shared state is a step of its
own: the counter, each table operation, the `oneshot` send, the stores of `is_connected`
and `writer`. Threads are the readers (also those of old connections) and the tasks
inside `handle_disconnect`; there are as many as a run needs. The server is the outside
world: any body may arrive at any idle thread at any time.
-/

namespace Wscall.Client
open Protocol

/-- `call` with `pending_api`, `send_event` with `pending_event`. -/
inductive Kind where
  | api
  | event
  deriving DecidableEq

/-- One invocation of `call` or `send_event`. -/
structure CallId where
  kind : Kind
  num : ℕ
  deriving DecidableEq

inductive ClientError where
  | webSocket (text : String)
  | protocol (e : ProtocolError)
  | disconnected
  | connectionClosed (reason : String)
  | idleTimeout
  | timeout
  | remote (error : ErrorPayload)
  | authFailed (error : ErrorPayload)

abbrev Outcome := Except ClientError Value

/-- The result came from the server. -/
def Remote : Outcome → Prop
  | .ok _ | .error (.remote _) => True
  | _ => False

inductive Pc where
  | idle
  | checked
  | allocated (id : UInt64)
  | inserted (id : UInt64)
  | sending (id : UInt64)
  | failed (id : UInt64)
  | waiting (id : UInt64)
  | elapsed (id : UInt64)
  | cancelled (id : UInt64)
  | returned
  deriving DecidableEq

/-- The `oneshot` channel of an invocation: `closed` once its sender was dropped unused. -/
inductive Cell where
  | empty
  | full (r : Outcome)
  | closed

inductive Thread where
  | idle
  | replying (c : CallId) (r : Outcome)
  | disconnecting (reason : String)
  | clearing (reason : String)
  | collecting (reason : String) (k : Kind)
  | draining (reason : String) (k : Kind) (keys : List UInt64)
  | notifying (reason : String) (k : Kind) (keys : List UInt64) (c : CallId)

/-- What has happened, oldest first. -/
inductive Event where
  | allocated (c : CallId) (id : UInt64)
  | received (body : PacketBody)
  | resolved (c : CallId) (r : Outcome)
  | returned (c : CallId) (r : Outcome)

structure State where
  isConnected : Bool
  writer : Bool
  generation : UInt64
  next : Kind → UInt64
  pending : Kind → UInt64 → Option CallId
  calls : CallId → Pc
  cells : CallId → Cell
  threads : ℕ → Thread
  log : List Event

namespace State

def init : State where
  isConnected := false
  writer := false
  generation := 0
  next _ := 0
  pending _ _ := none
  calls _ := .idle
  cells _ := .empty
  threads _ := .idle
  log := []

def setCall (s : State) (c : CallId) (pc : Pc) : State :=
  { s with calls := Function.update s.calls c pc }

def setThread (s : State) (t : ℕ) (th : Thread) : State :=
  { s with threads := Function.update s.threads t th }

def setCell (s : State) (c : CallId) (cell : Cell) : State :=
  { s with cells := Function.update s.cells c cell }

def setPending (s : State) (k : Kind) (id : UInt64) (v : Option CallId) : State :=
  { s with pending := Function.update s.pending k (Function.update (s.pending k) id v) }

def record (s : State) (e : Event) : State := { s with log := s.log ++ [e] }

/-- A sender leaves the table without being used. -/
def dropSender (s : State) : Option CallId → State
  | none => s
  | some c => s.setCell c .closed

def finish (s : State) (c : CallId) (r : Outcome) : State :=
  (s.setCall c .returned).record (.returned c r)

def resolve (s : State) (c : CallId) (r : Outcome) : State :=
  (s.setCell c (.full r)).record (.resolved c r)

end State

theorem pending_setPending {s : State} (k k' : Kind) (id id' : UInt64) (v : Option CallId) :
    (s.setPending k id v).pending k' id' = if k' = k ∧ id' = id then v else s.pending k' id' := by
  by_cases hk : k' = k
  · subst hk
    by_cases hid : id' = id <;> simp [State.setPending, hid]
  · simp [State.setPending, hk]

/-- `error.unwrap_or_else(..)` in `handle_packet`. -/
def missingRemoteError : ErrorPayload := ⟨"remote_error", "missing remote error", 500, none⟩

def remoteResult (ok : Bool) (data : Value) (error : Option ErrorPayload) : Outcome :=
  if ok then .ok data else .error (.remote (error.getD missingRemoteError))

/-- The table, the id and the result a packet answers, if it answers anything. -/
def answer : PacketBody → Option (Kind × UInt64 × Outcome)
  | .apiResponse id ok _ data error _ => some (.api, id, remoteResult ok data error)
  | .eventAck id ok receipt error => some (.event, id, remoteResult ok receipt error)
  | _ => none

/-- What a packet says to the invocation whose id it carries. -/
inductive Says : PacketBody → Kind → UInt64 → Outcome → Prop
  | data {id status data error attachments} :
      Says (.apiResponse id true status data error attachments) .api id (.ok data)
  | failure {id status data error attachments} :
      Says (.apiResponse id false status data error attachments) .api id
        (.error (.remote (error.getD missingRemoteError)))
  | receipt {id receipt error} : Says (.eventAck id true receipt error) .event id (.ok receipt)
  | refusal {id receipt error} :
      Says (.eventAck id false receipt error) .event id
        (.error (.remote (error.getD missingRemoteError)))

theorem says_of_answer {body : PacketBody} {k : Kind} {id : UInt64} {r : Outcome}
    (h : answer body = some (k, id, r)) : Says body k id r := by
  unfold answer at h
  split at h <;> cases h
  · rename_i ok _ _ _ _
    cases ok with
    | true => exact .data
    | false => exact .failure
  · rename_i ok _ _
    cases ok with
    | true => exact .receipt
    | false => exact .refusal

inductive CallOp where
  | start
  | allocate
  | insert
  | loadWriter
  | sent
  | sendFailed
  | removeFailed
  | receive
  | elapse
  | removeElapsed
  | cancel

inductive ThreadOp where
  | handlePacket (body : PacketBody)
  | reply
  | handleDisconnect (generation : UInt64) (reason : String)
  | swapConnected
  | clearWriter
  | collect (keys : List UInt64)
  | drain
  | notify

inductive Action where
  | call (c : CallId) (op : CallOp)
  | thread (t : ℕ) (op : ThreadOp)
  | nextGeneration
  | storeWriter
  | storeConnected

/-- `call` and `send_event` (`client_runtime.rs:261-341`). -/
def stepCall (s : State) (c : CallId) : CallOp → Pc → Option State
  | .start, .idle =>
    if s.isConnected then some (s.setCall c .checked)
    else some (s.finish c (.error .disconnected))
  | .allocate, .checked =>
    let id := s.next c.kind + 1
    some (({ s with next := Function.update s.next c.kind id }.setCall c (.allocated id)).record
      (.allocated c id))
  | .insert, .allocated id =>
    some (((s.dropSender (s.pending c.kind id)).setPending c.kind id (some c)).setCall c
      (.inserted id))
  | .loadWriter, .inserted id => some (s.setCall c (if s.writer then .sending id else .failed id))
  | .sent, .sending id => some (s.setCall c (.waiting id))
  | .sendFailed, .sending id => some (s.setCall c (.failed id))
  | .removeFailed, .failed id =>
    some (((s.dropSender (s.pending c.kind id)).setPending c.kind id none).finish c
      (.error .disconnected))
  | .receive, .waiting _ =>
    match s.cells c with
    | .full r => some (s.finish c r)
    | .closed => some (s.finish c (.error .disconnected))
    | .empty => none
  | .elapse, .waiting id =>
    -- `timeout` polls the receiver before the timer
    match s.cells c with
    | .empty => some (s.setCall c (.elapsed id))
    | _ => none
  | .removeElapsed, .elapsed id =>
    some (((s.dropSender (s.pending c.kind id)).setPending c.kind id none).finish c
      (.error .timeout))
  -- the future is dropped at one of its two awaits; its entry stays
  | .cancel, .sending id => some (s.setCall c (.cancelled id))
  | .cancel, .waiting id => some (s.setCall c (.cancelled id))
  | _, _ => none

/-- `handle_packet` and `handle_disconnect` (`client_runtime.rs:361-460`, `781-828`). -/
def stepThread (s : State) (t : ℕ) : ThreadOp → Thread → Option State
  | .handlePacket body, .idle =>
    let s := s.record (.received body)
    match answer body with
    | none => some s
    | some (k, id, r) =>
      match s.pending k id with
      | none => some s
      | some c => some ((s.setPending k id none).setThread t (.replying c r))
  | .reply, .replying c r => some ((s.resolve c r).setThread t .idle)
  | .handleDisconnect generation reason, .idle =>
    if s.generation = generation then some (s.setThread t (.disconnecting reason)) else some s
  | .swapConnected, .disconnecting reason =>
    some ({ s with isConnected := false }.setThread t
      (if s.isConnected then .clearing reason else .idle))
  | .clearWriter, .clearing reason =>
    some ({ s with writer := false }.setThread t (.collecting reason .api))
  -- the table is iterated while others change it, so the keys are not a snapshot
  | .collect keys, .collecting reason k => some (s.setThread t (.draining reason k keys))
  | .drain, .draining reason .api [] => some (s.setThread t (.collecting reason .event))
  | .drain, .draining _ .event [] => some (s.setThread t .idle)
  | .drain, .draining reason k (key :: keys) =>
    match s.pending k key with
    | none => some (s.setThread t (.draining reason k keys))
    | some c => some ((s.setPending k key none).setThread t (.notifying reason k keys c))
  | .notify, .notifying reason k keys c =>
    some ((s.resolve c (.error (.connectionClosed reason))).setThread t (.draining reason k keys))
  | _, _ => none

def step : Action → State → Option State
  | .call c op, s => stepCall s c op (s.calls c)
  | .thread t op, s => stepThread s t op (s.threads t)
  | .nextGeneration, s => some { s with generation := s.generation + 1 }
  | .storeWriter, s => some { s with writer := true }
  | .storeConnected, s => some { s with isConnected := true }

/-! ### Where ids and senders are -/

/-- The id an invocation was given, while it runs. -/
def Pc.id? : Pc → Option UInt64
  | .allocated id | .inserted id | .sending id | .failed id | .waiting id | .elapsed id
  | .cancelled id => some id
  | _ => none

/-- The same from the insertion on. -/
def Pc.entered : Pc → Option UInt64
  | .inserted id | .sending id | .failed id | .waiting id | .elapsed id | .cancelled id => some id
  | _ => none

/-- Not inserted yet. -/
def Pc.Early : Pc → Prop
  | .idle | .checked | .allocated _ => True
  | _ => False

/-- The invocation whose sender a thread has taken out of a table. -/
def Thread.held : Thread → Option CallId
  | .replying c _ => some c
  | .notifying _ _ _ c => some c
  | _ => none

end Wscall.Client
