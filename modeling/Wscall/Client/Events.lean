import Wscall.Lib.Unwind
import Wscall.Protocol.Packet

/-!
# Events the client receives (`wscall-client/src/client_runtime.rs:404-455`)

The handlers of a name run together and the last one's value is the receipt. Nothing
guards them: the task that runs `handle_packet` unwinds with the first panic.
-/

namespace Wscall.Protocol

def PacketEnvelope.acks (eventId : UInt64) (p : PacketEnvelope) : Bool :=
  match p.body with
  | .eventAck id .. => id == eventId
  | _ => false

/-- What `expect_ack` asks of the receiver: one acknowledgement or none. -/
def AcksAsAsked (eventId : UInt64) (expectAck : Bool) (queued : List PacketEnvelope) : Prop :=
  queued.countP (·.acks eventId) = if expectAck then 1 else 0

instance (eventId : UInt64) (expectAck : Bool) (queued : List PacketEnvelope) :
    Decidable (AcksAsAsked eventId expectAck queued) := by
  unfold AcksAsAsked
  infer_instance

end Wscall.Protocol

namespace Wscall.Client
open RustStd Protocol

structure EventMessage where
  eventId : UInt64
  name : String
  data : Map
  attachments : List FileAttachment
  metadata : Value

abbrev EventHandler (W : Type) := W → EventMessage → Callback Value

/-- What `handle_packet` reads of the client. A name that was never registered has no
handlers. -/
structure EventClient (W : Type) where
  eventHandlers : String → List (EventHandler W)
  defaultEncryption : EncryptionKind

def unhandled : Value := .ofTree (.object [("handled", .bool false)])

namespace EventClient

variable {W : Type} (client : EventClient W) (w : W) (event : EventMessage) (expectAck : Bool)

def ack (receipt : Value) : PacketEnvelope :=
  .withEncryption (.eventAck event.eventId true receipt none) client.defaultEncryption

/-- What the handlers make of the event. -/
def receipt : Exec EventMessage Value :=
  let handlers := client.eventHandlers event.name
  if handlers.isEmpty then pure unhandled
  else do
    let results ← Exec.joinAll (handlers.map fun handler => (event, handler w event))
    return results.getLast?.getD unhandled

/-- `handle_packet` on an `EventEmit`, up to the packet it hands to `send_outbound`. -/
def handlePacket : Exec EventMessage (Option PacketEnvelope) := do
  let receipt ← client.receipt w event
  return if expectAck then some (client.ack event receipt) else none

/-- What ends up on the queue while the connection is live: the writer's channel is there. -/
def queued : List PacketEnvelope := ((client.handlePacket w event expectAck).result.bind id).toList

/-- No handler panics, neither in its call nor while its future is polled. -/
def HandlersReturn : Prop :=
  ∀ handler ∈ client.eventHandlers event.name, ∃ v, handler w event = .returns v

theorem receipt_isSome :
    (client.receipt w event).result.isSome ↔ client.HandlersReturn w event := by
  unfold receipt HandlersReturn
  cases client.eventHandlers event.name with
  | nil => simp
  | cons handler handlers =>
    have hjoin := Exec.joinAll_isSome
      ((handler :: handlers).map fun handler => (event, handler w event))
    rw [List.forall_mem_map] at hjoin
    simp only [List.isEmpty_cons, Bool.false_eq_true, if_false, Exec.bind_result, Exec.pure_result]
    rw [← hjoin]
    cases (Exec.joinAll _).result <;> simp

/-- The client acknowledges as it was asked to, unless a handler panics. -/
theorem queued_asAsked :
    AcksAsAsked event.eventId expectAck (client.queued w event expectAck) ↔
      (expectAck = true → client.HandlersReturn w event) := by
  rw [← receipt_isSome]
  unfold AcksAsAsked queued handlePacket
  cases hres : (client.receipt w event).result with
  | none => cases expectAck <;> simp [hres]
  | some v =>
    cases expectAck <;> simp [hres, ack, PacketEnvelope.acks, PacketEnvelope.withEncryption]

end EventClient

end Wscall.Client
