import Wscall.Server.EventAcks
import Wscall.Server.FilterChain

/-!
# How failures are reported (`server_runtime.rs:546-563`, `1184-1351`)

A dispatched packet fails in a filter, for want of a handler, or in its handler. Each exit
builds its answer by hand: the envelope's status is the error's own, the payload is the
exception handler's, and an unknown event name does not reach the exception handler.
-/

namespace Wscall.Server
open RustStd Protocol

inductive Fault where
  | filtered
  | unknown
  | refused
  | panicked
  /-- In the call, before there is a future to guard. -/
  | callPanicked

/-- A handler's failure, and the error it is reported as. -/
inductive HandlerFails (panicText : String) :
    Callback (Except ApiError Value) → Fault → ApiError → Prop
  | refused (e : ApiError) : HandlerFails panicText (.returns (.error e)) .refused e
  | panicked : HandlerFails panicText .panics .panicked (.internal panicText)
  | callPanicked : HandlerFails panicText .callPanics .callPanicked (.internal panicText)

namespace WscallServer

section Definitions

variable {W : Type} (server : WscallServer W) (w : W) (connectionId : String)
  (peerAddr : Option SocketAddr) (authContext : Option Map)

/-- The packet fails, and the context describes the failure: the request's own id and target,
and the error. -/
inductive Fails : PacketBody → Fault → ExceptionContext → Prop
  | filtered {r seen e}
      (h : Passes w server.filters (server.apiContext connectionId peerAddr authContext r) seen
        (.error e)) :
      Fails r.body .filtered ⟨connectionId, some r.requestId, r.route, .api, e⟩
  | unrouted {r seen ctx}
      (h : Passes w server.filters (server.apiContext connectionId peerAddr authContext r) seen
        (.ok ctx))
      (hroute : server.routes ctx.route = none) :
      Fails r.body .unknown
        ⟨connectionId, some r.requestId, r.route, .api, .notFound "route not found"⟩
  | route {r seen ctx handler fault e}
      (h : Passes w server.filters (server.apiContext connectionId peerAddr authContext r) seen
        (.ok ctx))
      (hroute : server.routes ctx.route = some handler)
      (hfail : HandlerFails "handler panicked" (handler w ctx) fault e) :
      Fails r.body fault ⟨connectionId, some r.requestId, r.route, .api, e⟩
  | unhandled {e : EventEmitInput} {expectAck : Bool} (h : server.eventHandlers e.name = none) :
      Fails (e.body expectAck) .unknown
        ⟨connectionId, some e.eventId, e.name, .event, .notFound "event handler not found"⟩
  | event {e : EventEmitInput} {expectAck : Bool} {handler fault error}
      (h : server.eventHandlers e.name = some handler)
      (hfail : HandlerFails "event handler panicked"
        (handler w (server.eventContext connectionId peerAddr authContext e)) fault error) :
      Fails (e.body expectAck) fault ⟨connectionId, some e.eventId, e.name, .event, error⟩

/-- The answer to the failed packet: not ok, with the mapped error, whose status is also the
response's. -/
def Reported (ctx : ExceptionContext) (payload : ErrorPayload) : PacketBody → Prop
  | .apiResponse requestId ok status _ error _ =>
    ctx.messageKind = .api ∧ ctx.requestId = some requestId ∧ ok = false ∧ error = some payload ∧
      status = payload.status
  | .eventAck eventId ok _ error =>
    ctx.messageKind = .event ∧ ctx.requestId = some eventId ∧ ok = false ∧ error = some payload
  | _ => False

def AnswersUniformly (body : PacketBody) (ctx : ExceptionContext) (payload : ErrorPayload) : Prop :=
  ∃ p, (server.processPacket w connectionId peerAddr authContext body).result = some (some p) ∧
    Reported ctx payload p.body

/-- The handler did not panic in its call, an API error is mapped to a payload with the status
it had, and an unknown event name to the default payload. -/
def LeftAlone (fault : Fault) (ctx : ExceptionContext) (payload : ErrorPayload) : Prop :=
  fault ≠ .callPanicked ∧
    match ctx.messageKind with
    | .api => payload.status = ctx.error.status
    | .event => fault = .unknown → payload = ctx.error.intoPayload

end Definitions

section Rules

variable {W : Type} {server : WscallServer W} {w : W} {connectionId : String}
  {peerAddr : Option SocketAddr} {authContext : Option Map}

theorem processPacket_request {r : ApiRequestInput} {seen : List ApiContext}
    {result : Except ApiError ApiContext}
    (h : Passes w server.filters (server.apiContext connectionId peerAddr authContext r) seen result) :
    (server.processPacket w connectionId peerAddr authContext r.body).result =
      (server.afterFilters w connectionId r result).result.map some := by
  simp only [processPacket, ApiRequestInput.body, Exec.bind_result, Exec.pure_result, h.runApiRequest]
  cases (server.afterFilters w connectionId r result).result <;> rfl

theorem processPacket_event {e : EventEmitInput} (expectAck : Bool) {result : Option PacketEnvelope}
    (h : (server.runEvent w connectionId peerAddr authContext e).result = result) :
    (server.processPacket w connectionId peerAddr authContext (e.body expectAck)).result =
      result.map some := by
  subst h
  simp only [processPacket, EventEmitInput.body, Exec.bind_result, Exec.pure_result]
  cases (server.runEvent w connectionId peerAddr authContext e).result <;> rfl

theorem answersUniformly_of_answer {body : PacketBody} {ctx : ExceptionContext}
    {payload : ErrorPayload} {p : PacketEnvelope}
    (h : (server.processPacket w connectionId peerAddr authContext body).result = some (some p)) :
    server.AnswersUniformly w connectionId peerAddr authContext body ctx payload ↔
      Reported ctx payload p.body := by
  simp only [AnswersUniformly, h, Option.some.injEq, exists_eq_left']

theorem not_answersUniformly_of_none {body : PacketBody} {ctx : ExceptionContext}
    {payload : ErrorPayload}
    (h : (server.processPacket w connectionId peerAddr authContext body).result = none) :
    ¬ server.AnswersUniformly w connectionId peerAddr authContext body ctx payload := by
  rintro ⟨p, hp, -⟩
  rw [h] at hp
  cases hp

/-- Where the API path answers at all, only the status can be wrong. -/
theorem request_uniform_iff {r : ApiRequestInput} {seen : List ApiContext}
    {result : Except ApiError ApiContext} {e : ApiError} {payload : ErrorPayload}
    (h : Passes w server.filters (server.apiContext connectionId peerAddr authContext r) seen result)
    (hafter : (server.afterFilters w connectionId r result).result =
      some (errorResponse r.requestId e.status payload server.defaultEncryption)) :
    server.AnswersUniformly w connectionId peerAddr authContext r.body
        ⟨connectionId, some r.requestId, r.route, .api, e⟩ payload ↔
      payload.status = e.status := by
  have hanswer := processPacket_request h
  rw [hafter, Option.map_some] at hanswer
  rw [answersUniformly_of_answer hanswer]
  simp only [Reported, errorResponse, PacketEnvelope.withEncryption, true_and]
  exact eq_comm

theorem event_reported (ctx : ExceptionContext) (payload payload' : ErrorPayload) {eventId : UInt64}
    (encryption : EncryptionKind) (hkind : ctx.messageKind = .event)
    (hid : ctx.requestId = some eventId) :
    Reported ctx payload (eventAck eventId (.error payload') encryption).body ↔ payload = payload' := by
  simp only [eventAck, PacketEnvelope.withEncryption, Reported, hkind, hid, true_and,
    Option.some.injEq]
  exact eq_comm

theorem request_fails_iff {r : ApiRequestInput} {seen : List ApiContext} {ctx : ApiContext}
    {handler : ApiHandler W} {fault : Fault} {e : ApiError} {payload : ErrorPayload}
    (h : Passes w server.filters (server.apiContext connectionId peerAddr authContext r) seen (.ok ctx))
    (hroute : server.routes ctx.route = some handler)
    (hfail : HandlerFails "handler panicked" (handler w ctx) fault e)
    (hmap : server.Mapped w ⟨connectionId, some r.requestId, r.route, .api, e⟩ payload) :
    server.AnswersUniformly w connectionId peerAddr authContext r.body
        ⟨connectionId, some r.requestId, r.route, .api, e⟩ payload ↔
      LeftAlone fault ⟨connectionId, some r.requestId, r.route, .api, e⟩ payload := by
  have hsettled : server.Settles w [] ctx (.error e) →
      (server.AnswersUniformly w connectionId peerAddr authContext r.body
        ⟨connectionId, some r.requestId, r.route, .api, e⟩ payload ↔ payload.status = e.status) := by
    intro hs
    exact request_uniform_iff h ((callRoute_result server w).mpr ⟨_, hs, .error hmap⟩)
  generalize hc : handler w ctx = outcome at hfail
  cases hfail with
  | refused => simpa [LeftAlone] using hsettled (.handled hroute hc)
  | panicked => simpa [LeftAlone] using hsettled (.caught hroute hc)
  | callPanicked =>
    have hnone : (server.processPacket w connectionId peerAddr authContext r.body).result = none := by
      simp [processPacket_request h, afterFilters, callRoute, hroute, hc, Exec.catchUnwind]
    simpa [LeftAlone] using not_answersUniformly_of_none hnone

theorem event_fails_iff {e : EventEmitInput} {expectAck : Bool} {handler : EventHandler W}
    {fault : Fault} {error : ApiError} {payload : ErrorPayload}
    (h : server.eventHandlers e.name = some handler)
    (hfail : HandlerFails "event handler panicked"
      (handler w (server.eventContext connectionId peerAddr authContext e)) fault error)
    (hmap : server.Mapped w ⟨connectionId, some e.eventId, e.name, .event, error⟩ payload) :
    server.AnswersUniformly w connectionId peerAddr authContext (e.body expectAck)
        ⟨connectionId, some e.eventId, e.name, .event, error⟩ payload ↔
      LeftAlone fault ⟨connectionId, some e.eventId, e.name, .event, error⟩ payload := by
  have hsettled : server.EventSettles w connectionId peerAddr authContext e (.error payload) →
      server.AnswersUniformly w connectionId peerAddr authContext (e.body expectAck)
        ⟨connectionId, some e.eventId, e.name, .event, error⟩ payload := by
    intro hs
    have hanswer := processPacket_event expectAck ((runEvent_result server w).mpr ⟨_, hs, rfl⟩)
    exact (answersUniformly_of_answer hanswer).mpr ((event_reported _ _ _ _ rfl rfl).mpr rfl)
  generalize hc : handler w (server.eventContext connectionId peerAddr authContext e) = outcome at hfail
  cases hfail with
  | refused => simpa [LeftAlone] using hsettled (.refused h hc hmap)
  | panicked => simpa [LeftAlone] using hsettled (.caught h hc hmap)
  | callPanicked =>
    have hnone : (server.runEvent w connectionId peerAddr authContext e).result = none := by
      by_contra hsome
      obtain ⟨p, hp⟩ := Option.ne_none_iff_exists'.mp hsome
      obtain ⟨result, hs, -⟩ := (runEvent_result server w).mp hp
      cases hs <;> simp_all
    simpa [LeftAlone] using not_answersUniformly_of_none (processPacket_event expectAck hnone)

theorem handlerFails_or_ok (panicText : String) (outcome : Callback (Except ApiError Value)) :
    (∃ fault e, HandlerFails panicText outcome fault e) ∨ ∃ v, outcome = .returns (.ok v) := by
  cases outcome with
  | callPanics => exact .inl ⟨_, _, .callPanicked⟩
  | panics => exact .inl ⟨_, _, .panicked⟩
  | returns result =>
    cases result with
    | error e => exact .inl ⟨_, _, .refused e⟩
    | ok v => exact .inr ⟨v, rfl⟩

/-- With filters that return, a request that does not fail is answered with `ok`. -/
theorem request_fails_or_ok (hret : ∀ f ∈ server.filters, FilterReturns w f) (r : ApiRequestInput) :
    (∃ fault ctx, server.Fails w connectionId peerAddr authContext r.body fault ctx) ∨
      ∃ v, (server.processPacket w connectionId peerAddr authContext r.body).result =
        some (some (okResponse r.requestId v server.defaultEncryption)) := by
  obtain ⟨seen, result, hpass⟩ :=
    exists_passes hret (server.apiContext connectionId peerAddr authContext r)
  cases result with
  | error e => exact .inl ⟨_, _, .filtered hpass⟩
  | ok ctx =>
    cases hroute : server.routes ctx.route with
    | none => exact .inl ⟨_, _, .unrouted hpass hroute⟩
    | some handler =>
      rcases handlerFails_or_ok "handler panicked" (handler w ctx) with ⟨fault, e, hfail⟩ | ⟨v, hok⟩
      · exact .inl ⟨_, _, .route hpass hroute hfail⟩
      · have hanswer : (server.callRoute w connectionId r ctx).result =
            some (okResponse r.requestId v server.defaultEncryption) :=
          (callRoute_result server w).mpr ⟨.ok v, .handled hroute hok, .data v⟩
        refine .inr ⟨v, ?_⟩
        rw [processPacket_request hpass, afterFilters, hanswer, Option.map_some]

theorem event_fails_or_ok (e : EventEmitInput) (expectAck : Bool) :
    (∃ fault ctx, server.Fails w connectionId peerAddr authContext (e.body expectAck) fault ctx) ∨
      ∃ v, (server.processPacket w connectionId peerAddr authContext (e.body expectAck)).result =
        some (some (eventAck e.eventId (.ok v) server.defaultEncryption)) := by
  cases h : server.eventHandlers e.name with
  | none => exact .inl ⟨_, _, .unhandled h⟩
  | some handler =>
    rcases handlerFails_or_ok "event handler panicked"
        (handler w (server.eventContext connectionId peerAddr authContext e)) with
      ⟨fault, error, hfail⟩ | ⟨v, hok⟩
    · exact .inl ⟨_, _, .event h hfail⟩
    · have hanswer := (runEvent_result server w).mpr ⟨.ok v, .handled h hok, rfl⟩
      exact .inr ⟨v, processPacket_event expectAck hanswer⟩

end Rules

/-- A failed packet is reported as its mapped error exactly when the mapping leaves alone what
the answer does not take from it. -/
theorem answersUniformly_iff {W : Type} (server : WscallServer W) (w : W) (connectionId : String)
    (peerAddr : Option SocketAddr) (authContext : Option Map) {body : PacketBody} {fault : Fault}
    {ctx : ExceptionContext} {payload : ErrorPayload}
    (hfail : server.Fails w connectionId peerAddr authContext body fault ctx)
    (hmap : server.Mapped w ctx payload) :
    server.AnswersUniformly w connectionId peerAddr authContext body ctx payload ↔
      LeftAlone fault ctx payload := by
  cases hfail with
  | filtered h =>
    have hanswer := (apiErrorPacket_result server w).mpr (.error hmap)
    simpa [LeftAlone] using request_uniform_iff h hanswer
  | unrouted h hroute =>
    have hanswer := (callRoute_result server w).mpr ⟨_, .unrouted hroute, .error hmap⟩
    simpa [LeftAlone] using request_uniform_iff h hanswer
  | route h hroute hfail => exact request_fails_iff h hroute hfail hmap
  | unhandled h =>
    rename_i e expectAck
    have hsettles : server.EventSettles w connectionId peerAddr authContext e _ := .unknown h
    have hanswer := processPacket_event expectAck ((runEvent_result server w).mpr ⟨_, hsettles, rfl⟩)
    rw [answersUniformly_of_answer hanswer, event_reported _ _ _ _ rfl rfl]
    simp [LeftAlone]
  | event h hfail => exact event_fails_iff h hfail hmap

def missing : ApiRequestInput := ⟨7, "missing", .null, [], .null⟩

theorem answersUniformly_iff_missing :
    (new : WscallServer Unit).AnswersUniformly () "c" none none missing.body
      ⟨"c", some 7, "missing", .api, .notFound "route not found"⟩
      (ApiError.notFound "route not found").intoPayload :=
  (answersUniformly_iff new () "c" none none (.unrouted .done rfl) rfl).mpr ⟨nofun, rfl⟩

/-- Every error becomes the same payload. -/
def teapot : ErrorPayload := ⟨"teapot", "short and stout", 418, none⟩

def rewriting : WscallServer Unit := { new with exceptionHandler := some fun _ _ => .returns teapot }

def abrupt : WscallServer Unit := { new with eventHandlers := fun _ => some fun _ _ => .callPanics }

def tick : EventEmitInput := ⟨7, "tick", .empty, [], .null⟩

/-- A response with status 404 around a payload with status 418, an unknown event that never
reaches the exception handler, and an event that is not answered at all. -/
theorem failures_not_uniform :
    ((rewriting.Mapped () ⟨"c", some 7, "missing", .api, .notFound "route not found"⟩ teapot ∧
        rewriting.Fails () "c" none none missing.body .unknown
          ⟨"c", some 7, "missing", .api, .notFound "route not found"⟩) ∧
      ¬ rewriting.AnswersUniformly () "c" none none missing.body
        ⟨"c", some 7, "missing", .api, .notFound "route not found"⟩ teapot) ∧
    ((rewriting.Mapped () ⟨"c", some 7, "tick", .event, .notFound "event handler not found"⟩ teapot ∧
        rewriting.Fails () "c" none none (tick.body true) .unknown
          ⟨"c", some 7, "tick", .event, .notFound "event handler not found"⟩) ∧
      ¬ rewriting.AnswersUniformly () "c" none none (tick.body true)
        ⟨"c", some 7, "tick", .event, .notFound "event handler not found"⟩ teapot) ∧
    abrupt.Fails () "c" none none (tick.body true) .callPanicked
        ⟨"c", some 7, "tick", .event, .internal "event handler panicked"⟩ ∧
      ∀ payload, ¬ abrupt.AnswersUniformly () "c" none none (tick.body true)
        ⟨"c", some 7, "tick", .event, .internal "event handler panicked"⟩ payload := by
  refine ⟨⟨⟨rfl, .unrouted .done rfl⟩, ?_⟩, ⟨⟨rfl, .unhandled rfl⟩, ?_⟩, .event rfl .callPanicked, ?_⟩
  · rintro ⟨p, hp, hr⟩
    cases hp
    exact absurd hr.2.2.2.2 (by decide)
  · rintro ⟨p, hp, hr⟩
    cases hp
    have hcode := congrArg (Option.map ErrorPayload.code) hr.2.2.2
    exact absurd hcode (by decide)
  · rintro payload ⟨p, hp, -⟩
    cases hp

end WscallServer

end Wscall.Server
