import Wscall.Lib.Machine
import Wscall.Protocol.Packet

/-!
# The connection supervisor and `close` (`wscall-client/src/client_runtime.rs:343-828`)

One supervisor task, a writer, a heartbeat and a reader per connection, and any number
of `close()` callers. A step is what a task does between two awaits. What the network
and the server answer is part of the action, so every outcome of every await occurs.
A connection and its tasks are named by the number of the attempt that made it; the code's
`generation` is that number modulo `2 ^ 64`. Ghost fields record that a `close()` has
returned, which connections became live after that, and for which connections an
`on_connected` handler ran.
-/

namespace Wscall.Client.Lifecycle
open RustStd Protocol

/-- The parts of `WscallClientConfig` the supervisor reads; `failovers` counts the URLs
after the primary one. -/
structure Config where
  useEcdh : Bool
  hasCredential : Bool
  autoReconnect : Bool
  failovers : ℕ

inductive Phase where
  | top
  | connecting (attempt offset : ℕ)
  | ecdhSending (attempt : ℕ)
  | ecdhReading (attempt : ℕ)
  | authSending (attempt : ℕ)
  | authReading (attempt : ℕ)
  | established (attempt : ℕ)
  | emitLocking (attempt : ℕ)
  | emitting (attempt left : ℕ)
  | awaiting (attempt : ℕ)
  | sleeping
  | stopped
  deriving DecidableEq

inductive Task where
  | writer
  | heartbeat
  | reader
  deriving DecidableEq

inductive TaskPc where
  | unspawned
  | running
  | notifying
  | done
  deriving DecidableEq

inductive CloserPc where
  | idle
  | sending
  | notifying
  | returned
  deriving DecidableEq

structure State where
  isConnected : Bool
  /-- The connection whose sender is stored. -/
  writer : Option ℕ
  shutdown : Bool
  /-- How often `connection_generation` was incremented. -/
  attempts : ℕ
  /-- `connect` has returned: with the client, or with an error. -/
  ready : Option Bool
  phase : Phase
  tasks : ℕ → Task → TaskPc
  signalled : ℕ → Bool
  closers : ℕ → CloserPc
  handlers : ℕ
  closed : Bool
  late : List ℕ
  invoked : List ℕ

def State.init : State where
  isConnected := false
  writer := none
  shutdown := false
  attempts := 0
  ready := none
  phase := .top
  tasks _ _ := .unspawned
  signalled _ := false
  closers _ := .idle
  handlers := 0
  closed := false
  late := []
  invoked := []

/-- What the auth exchange accepts (`client_runtime.rs:596-616`). -/
def authAccepted : PacketBody → Bool
  | .authResponse true _ _ => true
  | _ => false

inductive SupervisorOp where
  | top
  | connectResult (ok : Bool)
  /-- A keypair that cannot be generated counts as a failed send. -/
  | ecdhSent (ok : Bool)
  /-- The binary message that arrived, if one did. -/
  | ecdhReceived (bytes : Option Bytes)
  /-- A request that cannot be encoded counts as a failed send. -/
  | authSent (ok : Bool)
  /-- The packet that arrived, if one did and decoded. -/
  | authReceived (reply : Option PacketBody)
  | publish
  | lockHandlers
  | invokeHandler
  | spawnTasks
  | wake
  | slept

inductive TaskOp where
  | stop
  | stale
  | signal

inductive CloseOp where
  | call
  | sent
  | notified

inductive Action where
  | supervisor (op : SupervisorOp)
  | task (attempt : ℕ) (task : Task) (op : TaskOp)
  | close (caller : ℕ) (op : CloseOp)
  | onConnected

/-- The `generation` of a connection, a `u64` that wraps. -/
def generation (attempt : ℕ) : UInt64 := UInt64.ofNat attempt

def State.connectionGeneration (s : State) : UInt64 := generation s.attempts

def isConnectionGenerationActive (s : State) (generation : UInt64) : Bool :=
  s.connectionGeneration == generation

/-- The first segment of `handle_disconnect`; the flag says that it goes on to notify. -/
def disconnect (s : State) (generation : UInt64) : State × Bool :=
  if !isConnectionGenerationActive s generation then (s, false)
  else if s.isConnected then ({ s with isConnected := false, writer := none }, true)
  else (s, false)

/-- The end of the supervisor's loop body. -/
def afterConnection (cfg : Config) (s : State) : State :=
  if s.shutdown then { s with phase := .stopped }
  else if cfg.autoReconnect then { s with phase := .sleeping }
  else { s with phase := .stopped }

def failed (cfg : Config) (s : State) : State :=
  if s.ready = none then { s with ready := some false, phase := .stopped }
  else afterConnection cfg s

def afterEcdh (cfg : Config) (s : State) (attempt : ℕ) : State :=
  { s with phase := if cfg.hasCredential then .authSending attempt else .established attempt }

def afterConnect (cfg : Config) (s : State) (attempt : ℕ) : State :=
  if cfg.useEcdh then { s with phase := .ecdhSending attempt } else afterEcdh cfg s attempt

/-- The supervisor (`client_runtime.rs:462-625`). -/
def stepSupervisor (cfg : Config) (s : State) : SupervisorOp → Phase → Option State
  | .top, .top =>
    if s.shutdown then some { s with phase := .stopped }
    else some { s with attempts := s.attempts + 1, phase := .connecting (s.attempts + 1) 0 }
  | .connectResult ok, .connecting g offset =>
    if ok then some (afterConnect cfg s g)
    else if offset < cfg.failovers then some { s with phase := .connecting g (offset + 1) }
    else some (failed cfg s)
  | .ecdhSent ok, .ecdhSending g =>
    some (if ok then { s with phase := .ecdhReading g } else failed cfg s)
  | .ecdhReceived bytes, .ecdhReading g =>
    match bytes with
    | some bs => some (if bs.length = 32 then afterEcdh cfg s g else failed cfg s)
    | none => some (failed cfg s)
  | .authSent ok, .authSending g =>
    some (if ok then { s with phase := .authReading g } else failed cfg s)
  | .authReceived reply, .authReading g =>
    match reply with
    | some body => some (if authAccepted body then { s with phase := .established g } else failed cfg s)
    | none => some (failed cfg s)
  -- no await before this: `writer.store(Some(..)); is_connected.store(true)`
  | .publish, .established g =>
    some { s with
      writer := some g
      isConnected := true
      late := if s.closed then g :: s.late else s.late
      phase := .emitLocking g }
  | .lockHandlers, .emitLocking g => some { s with phase := .emitting g s.handlers }
  | .invokeHandler, .emitting g (left + 1) =>
    some { s with phase := .emitting g left, invoked := g :: s.invoked }
  | .spawnTasks, .emitting g 0 =>
    some { s with
      tasks := Function.update s.tasks g fun _ => .running
      ready := if s.ready = none then some true else s.ready
      phase := .awaiting g }
  -- `disconnect_rx` resolves when the signal is sent or its last holder is gone
  | .wake, .awaiting g =>
    if s.signalled g = true ∨ (s.tasks g .writer = .done ∧ s.tasks g .heartbeat = .done ∧
        s.tasks g .reader = .done) then
      some (afterConnection cfg s)
    else none
  | .slept, .sleeping => some { s with phase := .top }
  | _, _ => none

def State.setTask (s : State) (g : ℕ) (k : Task) (pc : TaskPc) : State :=
  { s with tasks := Function.update s.tasks g (Function.update (s.tasks g) k pc) }

def State.setCloser (s : State) (caller : ℕ) (pc : CloserPc) : State :=
  { s with closers := Function.update s.closers caller pc }

/-- The tasks of a connection (`client_runtime.rs:627-764`). A writer and a reader can stop
at any time: the socket is the outside world. -/
def stepTask (s : State) (g : ℕ) (k : Task) : TaskOp → TaskPc → Option State
  | .stop, .running =>
    -- the heartbeat disconnects when its channel is closed, that is when the writer is gone
    if k = .heartbeat ∧ s.tasks g .writer ≠ .done then none
    else
      let (s, notifies) := disconnect s (generation g)
      some (s.setTask g k (if notifies then .notifying else .done))
  | .stale, .running =>
    if k = .heartbeat ∧ isConnectionGenerationActive s (generation g) = false then
      some (s.setTask g k .done)
    else none
  | .signal, .notifying =>
    some ({ s with signalled := Function.update s.signalled g true }.setTask g k .done)
  | _, _ => none

/-- `close` from its generation load on: a `handle_disconnect` with a signal of its own. -/
def finishClose (s : State) (caller : ℕ) : State :=
  let (s, notifies) := disconnect s s.connectionGeneration
  if notifies then s.setCloser caller .notifying
  else { s.setCloser caller .returned with closed := true }

/-- `close` (`client_runtime.rs:343-359`); callers exist once `connect` returned the client. -/
def stepClose (s : State) (caller : ℕ) : CloseOp → CloserPc → Option State
  | .call, .idle =>
    if s.ready = some true then
      let s := { s with shutdown := true }
      match s.writer with
      | some _ => some (s.setCloser caller .sending)
      | none => some (finishClose s caller)
    else none
  | .sent, .sending => some (finishClose s caller)
  | .notified, .notifying => some { s.setCloser caller .returned with closed := true }
  | _, _ => none

/-- `on_connected`: the new handler runs at once when a connection is live. -/
def onConnected (s : State) : Option State :=
  if s.ready = some true then
    some { s with
      handlers := s.handlers + 1
      invoked := if s.isConnected then s.attempts :: s.invoked else s.invoked }
  else none

def step (cfg : Config) : Action → State → Option State
  | .supervisor op, s => stepSupervisor cfg s op s.phase
  | .task g k op, s => stepTask s g k op (s.tasks g k)
  | .close caller op, s => stepClose s caller op (s.closers caller)
  | .onConnected, s => onConnected s

/-! ### What `close` promises -/

/-- Once some `close()` has returned: not connected, no writer, and no `on_connected` for a
connection that became live later. -/
def Final (s : State) : Prop :=
  s.closed = true → s.isConnected = false ∧ s.writer = none ∧ ∀ g ∈ s.invoked, g ∉ s.late

instance (s : State) : Decidable (Final s) := by unfold Final; infer_instance

/-- A connection is published only while no `close()` has returned. -/
def PublishesOpen (s : State) : Action → Prop
  | .supervisor .publish => s.closed = false
  | _ => True

/-- A plaintext client with one URL that reconnects. -/
def plainConfig : Config := ⟨false, false, true, 0⟩

end Wscall.Client.Lifecycle
