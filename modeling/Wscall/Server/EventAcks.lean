import Wscall.Client.Events
import Wscall.Server.Answers

/-!
# Event acknowledgements on both ends

The client acknowledges an event when `expect_ack` asks for it. The server never looks at
`expect_ack`: it acknowledges whatever it can, a rate-limited event included.
-/

namespace Wscall.Server
open RustStd Protocol

namespace WscallServer

variable {W : Type} (server : WscallServer W) (w : W)

/-! ### What the callbacks make of an event -/

/-- The handler of the name and the exception handler bring the event to `result`. -/
inductive EventSettles (connectionId : String) (peerAddr : Option SocketAddr)
    (authContext : Option Map) (e : EventEmitInput) : Except ErrorPayload Value → Prop where
  | unknown (h : server.eventHandlers e.name = none) :
      EventSettles connectionId peerAddr authContext e
        (.error (ApiError.notFound "event handler not found").intoPayload)
  | handled {handler receipt} (h : server.eventHandlers e.name = some handler)
      (ret : handler w (server.eventContext connectionId peerAddr authContext e) =
        .returns (.ok receipt)) :
      EventSettles connectionId peerAddr authContext e (.ok receipt)
  | refused {handler error payload} (h : server.eventHandlers e.name = some handler)
      (ret : handler w (server.eventContext connectionId peerAddr authContext e) =
        .returns (.error error))
      (mapped : server.Mapped w ⟨connectionId, some e.eventId, e.name, .event, error⟩ payload) :
      EventSettles connectionId peerAddr authContext e (.error payload)
  | caught {handler payload} (h : server.eventHandlers e.name = some handler)
      (panicked : handler w (server.eventContext connectionId peerAddr authContext e) = .panics)
      (mapped : server.Mapped w
        ⟨connectionId, some e.eventId, e.name, .event, .internal "event handler panicked"⟩ payload) :
      EventSettles connectionId peerAddr authContext e (.error payload)

/-- `run_event` ends exactly when the callbacks settle the event. -/
theorem runEvent_result {connectionId : String} {peerAddr : Option SocketAddr}
    {authContext : Option Map} {e : EventEmitInput} {p : PacketEnvelope} :
    (server.runEvent w connectionId peerAddr authContext e).result = some p ↔
      ∃ result, server.EventSettles w connectionId peerAddr authContext e result ∧
        p = eventAck e.eventId result server.defaultEncryption := by
  unfold runEvent
  dsimp only
  constructor
  · intro h
    cases hh : server.eventHandlers e.name with
    | none =>
      simp only [hh, Exec.pure_result, Option.some.injEq] at h
      exact ⟨_, .unknown hh, h.symm⟩
    | some handler =>
      cases hc : handler w (server.eventContext connectionId peerAddr authContext e) with
      | callPanics => simp [hh, hc, Exec.catchUnwind] at h
      | panics =>
        simp only [hh, hc, Exec.catchUnwind, Exec.bind_result, Option.bind_some, Exec.pure_result,
          Option.bind_eq_some_iff, Option.some.injEq, mapException_result] at h
        obtain ⟨payload, hm, rfl⟩ := h
        exact ⟨_, .caught hh hc hm, rfl⟩
      | returns r =>
        cases r with
        | ok receipt =>
          simp only [hh, hc, Exec.catchUnwind, Exec.bind_result, Option.bind_some, Exec.pure_result,
            Option.some.injEq] at h
          exact ⟨_, .handled hh hc, h.symm⟩
        | error error =>
          simp only [hh, hc, Exec.catchUnwind, Exec.bind_result, Option.bind_some, Exec.pure_result,
            Option.bind_eq_some_iff, Option.some.injEq, mapException_result] at h
          obtain ⟨payload, hm, rfl⟩ := h
          exact ⟨_, .refused hh hc hm, rfl⟩
  · intro h
    obtain ⟨result, hs, rfl⟩ := h
    cases hs with
    | unknown hh => simp [hh]
    | handled hh ret => simp [hh, ret, Exec.catchUnwind]
    | refused hh ret mapped =>
      have hm := (mapException_result server w).mpr mapped
      simp [hh, ret, Exec.catchUnwind, hm]
    | caught hh panicked mapped =>
      have hm := (mapException_result server w).mpr mapped
      simp [hh, panicked, Exec.catchUnwind, hm]

/-! ### The two ends of an event -/

section Event

variable {server : WscallServer W} {w : W} {limiter : Option RateLimiterState} {clock : Clock} {now : ℕ}
  {connectionId : String} {ip : IpAddr} {frameLen : UInt64} {e : EventEmitInput} {expectAck : Bool}

@[simp] theorem eventAck_acks (eventId : UInt64) (result : Except ErrorPayload Value)
    (encryption : EncryptionKind) : (eventAck eventId result encryption).acks eventId = true := by
  cases result <;> simp [eventAck, PacketEnvelope.acks, PacketEnvelope.withEncryption]

theorem intake_event :
    (server.intake limiter clock now connectionId ip frameLen (e.body expectAck)).1 =
      byVerdict (silentAckPacket e.eventId server.defaultEncryption)
        (checkLimits limiter clock now connectionId ip frameLen).1 := by
  rcases hv : checkLimits limiter clock now connectionId ip frameLen with ⟨verdict, limiter'⟩
  simp only [intake, isDataMessage, EventEmitInput.body, if_true, hv]
  rcases verdict with _ | _ | _ | _ <;> rfl

/-- `process_packet` on an event. -/
theorem processPacket_event_iff (expectAck : Bool) {peerAddr : Option SocketAddr} {authContext : Option Map}
    {p : PacketEnvelope} :
    (server.processPacket w connectionId peerAddr authContext (e.body expectAck)).result =
        some (some p) ↔
      ∃ result, server.EventSettles w connectionId peerAddr authContext e result ∧
        p = eventAck e.eventId result server.defaultEncryption := by
  rw [← runEvent_result]
  simp only [processPacket, EventEmitInput.body, Exec.bind_result, Exec.pure_result]
  rw [Option.bind_eq_some_iff]
  simp

end Event

end WscallServer

end Wscall.Server
