import Wscall.Protocol.RoundTrip
import Wscall.Server.Dispatch

/-!
# Every request is answered

A request reaches its answer through the limiter, the filters, the route handler and the
exception handler. `Settles` and `Mapped` say what the callbacks make of a request when
none of them panics outside a guard; `run_api_request` answers exactly then.
-/

namespace Wscall.Server
open RustStd Protocol

namespace WscallServer

variable {W : Type} (server : WscallServer W) (w : W)

/-! ### What the callbacks make of a request -/

/-- From `ctx` on, the remaining filters and the route handler bring the request to `result`. -/
inductive Settles : List (Filter W) → ApiContext → Except ApiError Value → Prop where
  | rejected {filter filters ctx e} (h : filter w ctx = .returns (.error e)) :
      Settles (filter :: filters) ctx (.error e)
  | passed {filter filters ctx next result} (h : filter w ctx = .returns (.ok next))
      (rest : Settles filters next result) : Settles (filter :: filters) ctx result
  | unrouted {ctx} (h : server.routes ctx.route = none) :
      Settles [] ctx (.error (.notFound "route not found"))
  | handled {ctx handler result} (h : server.routes ctx.route = some handler)
      (ret : handler w ctx = .returns result) : Settles [] ctx result
  | caught {ctx handler} (h : server.routes ctx.route = some handler)
      (panicked : handler w ctx = .panics) :
      Settles [] ctx (.error (.internal "handler panicked"))

/-- The exception handler, if there is one, turns the error into `payload`. -/
def Mapped (ctx : ExceptionContext) (payload : ErrorPayload) : Prop :=
  match server.exceptionHandler with
  | some handler => handler w ctx = .returns payload
  | none => payload = ctx.error.intoPayload

/-- The packet that answers a request with a given result. -/
inductive Answers (connectionId : String) (r : ApiRequestInput) :
    Except ApiError Value → PacketEnvelope → Prop where
  | data (v : Value) :
      Answers connectionId r (.ok v) (okResponse r.requestId v server.defaultEncryption)
  | error {e payload} (h : Mapped server w ⟨connectionId, some r.requestId, r.route, .api, e⟩ payload) :
      Answers connectionId r (.error e)
        (errorResponse r.requestId e.status payload server.defaultEncryption)

theorem mapException_result {ctx : ExceptionContext} {payload : ErrorPayload} :
    (server.mapException w ctx).result = some payload ↔ server.Mapped w ctx payload := by
  unfold mapException Mapped
  cases server.exceptionHandler with
  | none =>
    simp only [Exec.pure_result, Option.some.injEq]
    exact eq_comm
  | some handler => exact Exec.await_result_eq_some

theorem apiErrorPacket_result {connectionId : String} {r : ApiRequestInput} {e : ApiError}
    {p : PacketEnvelope} :
    (server.apiErrorPacket w connectionId (some r.requestId) r.route e).result = some p ↔
      server.Answers w connectionId r (.error e) p := by
  simp only [apiErrorPacket, Option.getD_some, Exec.bind_result, Exec.pure_result,
    Option.bind_eq_some_iff, Option.some.injEq, mapException_result]
  constructor
  · rintro ⟨payload, hm, rfl⟩
    exact .error hm
  · rintro ⟨⟩
    exact ⟨_, ‹_›, rfl⟩

theorem settles_nil {ctx : ApiContext} {result : Except ApiError Value} :
    server.Settles w [] ctx result ↔
      match server.routes ctx.route with
      | none => result = .error (.notFound "route not found")
      | some handler =>
        match handler w ctx with
        | .returns r => result = r
        | .panics => result = .error (.internal "handler panicked")
        | .callPanics => False := by
  constructor
  · intro h
    cases h with
    | unrouted h => simp [h]
    | handled h ret => simp [h, ret]
    | caught h panicked => simp [h, panicked]
  · intro h
    cases hr : server.routes ctx.route with
    | none =>
      simp only [hr] at h
      exact h ▸ .unrouted hr
    | some handler =>
      simp only [hr] at h
      cases hc : handler w ctx with
      | returns r =>
        simp only [hc] at h
        exact h ▸ .handled hr hc
      | panics =>
        simp only [hc] at h
        exact h ▸ .caught hr hc
      | callPanics => simp only [hc] at h

theorem settles_cons {filter : Filter W} {filters : List (Filter W)} {ctx : ApiContext}
    {result : Except ApiError Value} :
    server.Settles w (filter :: filters) ctx result ↔
      match filter w ctx with
      | .returns (.ok next) => server.Settles w filters next result
      | .returns (.error e) => result = .error e
      | _ => False := by
  constructor
  · intro h
    cases h with
    | rejected h => simp [h]
    | passed h rest => simpa [h] using rest
  · intro h
    cases hf : filter w ctx with
    | returns r =>
      rw [hf] at h
      cases r with
      | ok next => exact .passed hf h
      | error e => exact h ▸ .rejected hf
    | callPanics => simp [hf] at h
    | panics => simp [hf] at h

theorem callRoute_result {connectionId : String} {r : ApiRequestInput} {ctx : ApiContext}
    {p : PacketEnvelope} :
    (server.callRoute w connectionId r ctx).result = some p ↔
      ∃ result, server.Settles w [] ctx result ∧ server.Answers w connectionId r result p := by
  simp only [settles_nil, callRoute]
  cases server.routes ctx.route with
  | none => simp [apiErrorPacket_result]
  | some handler =>
    cases hc : handler w ctx with
    | callPanics => simp [hc, Exec.catchUnwind]
    | panics => simp [hc, Exec.catchUnwind, apiErrorPacket_result]
    | returns result =>
      cases result with
      | error e => simp [hc, Exec.catchUnwind, apiErrorPacket_result]
      | ok data =>
        simp only [hc, Exec.catchUnwind, Exec.bind_result, Option.bind_some, Exec.pure_result,
          Option.some.injEq, exists_eq_left]
        constructor
        · rintro rfl
          exact .data data
        · rintro ⟨⟩
          rfl

theorem runFilters_result {connectionId : String} {r : ApiRequestInput} {p : PacketEnvelope}
    (filters : List (Filter W)) (ctx : ApiContext) :
    ((runFilters w filters ctx).result.bind fun
      | .error e => (server.apiErrorPacket w connectionId (some r.requestId) r.route e).result
      | .ok ctx => (server.callRoute w connectionId r ctx).result) = some p ↔
      ∃ result, server.Settles w filters ctx result ∧ server.Answers w connectionId r result p := by
  induction filters generalizing ctx with
  | nil => simp only [runFilters, Exec.pure_result, Option.bind_some, callRoute_result]
  | cons filter filters ih =>
    simp only [settles_cons, runFilters]
    cases filter w ctx with
    | callPanics => simp [Exec.await]
    | panics => simp [Exec.await]
    | returns r =>
      cases r with
      | ok next => simpa [Exec.await] using ih next
      | error e => simp [Exec.await, apiErrorPacket_result]

/-- `run_api_request` answers exactly when the callbacks settle the request. -/
theorem runApiRequest_result {connectionId : String} {peerAddr : Option SocketAddr}
    {authContext : Option Map} {r : ApiRequestInput} {p : PacketEnvelope} :
    (server.runApiRequest w connectionId peerAddr authContext r).result = some p ↔
      ∃ result, server.Settles w server.filters
          (server.apiContext connectionId peerAddr authContext r) result ∧
        server.Answers w connectionId r result p := by
  rw [← runFilters_result, runApiRequest, Exec.bind_result]
  congr! 3 with result
  cases result <;> rfl

/-! ### The two ends of a request -/

/-- What the reader does with a message that is refused with `packet`. -/
def byVerdict (packet : PacketEnvelope) : Option Verdict → Intake
  | none => .unwind
  | some .allowed => .spawn
  | some _ => .answer packet

def RespondsTo (requestId : UInt64) (p : PacketEnvelope) : Prop :=
  ∃ ok status data error metadata, p.body = .apiResponse requestId ok status data error metadata

section Request

variable {server : WscallServer W} {w : W} {limiter : Option RateLimiterState} {clock : Clock} {now : ℕ}
  {connectionId : String} {ip : IpAddr} {frameLen : UInt64} {r : ApiRequestInput}

theorem Answers.respondsTo {result : Except ApiError Value} {p : PacketEnvelope}
    (h : server.Answers w connectionId r result p) : RespondsTo r.requestId p := by
  cases h with
  | data v => exact ⟨_, _, _, _, _, rfl⟩
  | error hm => exact ⟨_, _, _, _, _, rfl⟩

theorem intake_request :
    (server.intake limiter clock now connectionId ip frameLen r.body).1 =
      byVerdict (serviceBusyPacket r.requestId server.defaultEncryption)
        (checkLimits limiter clock now connectionId ip frameLen).1 := by
  rcases hv : checkLimits limiter clock now connectionId ip frameLen with ⟨verdict, limiter'⟩
  simp only [intake, isDataMessage, ApiRequestInput.body, if_true, hv]
  rcases verdict with _ | _ | _ | _ <;> rfl

/-- `process_packet` on a request. -/
theorem processPacket_request_iff {peerAddr : Option SocketAddr} {authContext : Option Map}
    {p : PacketEnvelope} :
    (server.processPacket w connectionId peerAddr authContext r.body).result = some (some p) ↔
      ∃ result, server.Settles w server.filters
          (server.apiContext connectionId peerAddr authContext r) result ∧
        server.Answers w connectionId r result p := by
  rw [← runApiRequest_result]
  simp only [processPacket, ApiRequestInput.body, Exec.bind_result, Exec.pure_result]
  rw [Option.bind_eq_some_iff]
  simp

end Request

end WscallServer

end Wscall.Server
