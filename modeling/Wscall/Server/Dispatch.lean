import Wscall.Server.Types

/-!
# Dispatch of requests and events (`server_runtime.rs:1041-1486`)

What a spawned task does with one decoded packet: the filter chain, the route or event
handler, the exception mapping, and the packets that answer.
-/

namespace Wscall.Server
open RustStd Protocol

/-- A call of a user callback with the context it saw. -/
inductive Invocation where
  | filter (ctx : ApiContext)
  | route (ctx : ApiContext)
  | event (ctx : EventContext)
  | exception (ctx : ExceptionContext)

structure ApiRequestInput where
  requestId : UInt64
  route : String
  params : Value
  attachments : List FileAttachment
  metadata : Value

def ApiRequestInput.body (r : ApiRequestInput) : PacketBody :=
  .apiRequest r.requestId r.route r.params r.attachments r.metadata

structure EventEmitInput where
  eventId : UInt64
  name : String
  data : Map
  attachments : List FileAttachment
  metadata : Value

def EventEmitInput.body (e : EventEmitInput) (expectAck : Bool) : PacketBody :=
  .eventEmit e.eventId e.name e.data e.attachments e.metadata expectAck

/-! ### Packets the server builds -/

/-- An `ApiResponse` that carries an error; the error's own status may differ. -/
def errorResponse (requestId : UInt64) (status : UInt16) (error : ErrorPayload)
    (encryption : EncryptionKind) : PacketEnvelope :=
  .withEncryption (.apiResponse requestId false status .emptyObject (some error) .emptyObject)
    encryption

def okResponse (requestId : UInt64) (data : Value) (encryption : EncryptionKind) : PacketEnvelope :=
  .withEncryption (.apiResponse requestId true 200 data none .emptyObject) encryption

def frameErrorPacket (requestId : UInt64) (code message : String) (encryption : EncryptionKind) :
    PacketEnvelope :=
  errorResponse requestId 413 ⟨code, message, 413, none⟩ encryption

def serviceBusyPacket (requestId : UInt64) (encryption : EncryptionKind) : PacketEnvelope :=
  errorResponse requestId 503 ⟨"service_busy", "rate limit exceeded", 503, none⟩ encryption

def eventAck (eventId : UInt64) (result : Except ErrorPayload Value) (encryption : EncryptionKind) :
    PacketEnvelope :=
  match result with
  | .ok receipt => .withEncryption (.eventAck eventId true receipt none) encryption
  | .error e => .withEncryption (.eventAck eventId false .emptyObject (some e)) encryption

def silentAckPacket (eventId : UInt64) (encryption : EncryptionKind) : PacketEnvelope :=
  eventAck eventId (.ok .emptyObject) encryption

namespace WscallServer

variable {W : Type} (server : WscallServer W) (w : W)

/-! ### The callbacks -/

def mapException (ctx : ExceptionContext) : Exec Invocation ErrorPayload :=
  match server.exceptionHandler with
  | some handler => Exec.await (.exception ctx) (handler w ctx)
  | none => pure ctx.error.intoPayload

def apiErrorPacket (connectionId : String) (requestId : Option UInt64) (route : String)
    (error : ApiError) : Exec Invocation PacketEnvelope := do
  let requestId := requestId.getD 0
  let payload ← server.mapException w ⟨connectionId, some requestId, route, .api, error⟩
  return errorResponse requestId error.status payload server.defaultEncryption

/-- The `for filter in &self.filters` loop; each filter gets the context the last one returned. -/
def runFilters : List (Filter W) → ApiContext → Exec Invocation (Except ApiError ApiContext)
  | [], ctx => pure (.ok ctx)
  | filter :: filters, ctx => do
    match ← Exec.await (.filter ctx) (filter w ctx) with
    | .ok next => runFilters filters next
    | .error e => pure (.error e)

/-- The context the first filter sees. -/
def apiContext (connectionId : String) (peerAddr : Option SocketAddr) (authContext : Option Map)
    (r : ApiRequestInput) : ApiContext :=
  ⟨connectionId, peerAddr, r.requestId, r.route, r.params, r.attachments, r.metadata, server.handle,
    authContext⟩

/-- `run_api_request` after the filters. The route is looked up under the name in the
filtered context, errors name the one in the request. -/
def callRoute (connectionId : String) (r : ApiRequestInput) (ctx : ApiContext) :
    Exec Invocation PacketEnvelope := do
  let failed := server.apiErrorPacket w connectionId (some r.requestId) r.route
  match server.routes ctx.route with
  | none => failed (.notFound "route not found")
  | some handler =>
    match ← Exec.catchUnwind (.route ctx) (handler w ctx) with
    | some (.ok data) => return okResponse r.requestId data server.defaultEncryption
    | some (.error e) => failed e
    | none => failed (.internal "handler panicked")

/-- `run_api_request`; `authContext` is what `lookup_auth_context` found. -/
def runApiRequest (connectionId : String) (peerAddr : Option SocketAddr) (authContext : Option Map)
    (r : ApiRequestInput) : Exec Invocation PacketEnvelope := do
  match ← runFilters w server.filters (server.apiContext connectionId peerAddr authContext r) with
  | .error e => server.apiErrorPacket w connectionId (some r.requestId) r.route e
  | .ok ctx => server.callRoute w connectionId r ctx

def eventContext (connectionId : String) (peerAddr : Option SocketAddr) (authContext : Option Map)
    (e : EventEmitInput) : EventContext :=
  ⟨connectionId, peerAddr, e.eventId, e.name, e.data, e.attachments, e.metadata, server.handle,
    authContext⟩

/-- `run_event`. An unknown name is answered without the exception handler. -/
def runEvent (connectionId : String) (peerAddr : Option SocketAddr) (authContext : Option Map)
    (e : EventEmitInput) : Exec Invocation PacketEnvelope := do
  let ctx := server.eventContext connectionId peerAddr authContext e
  let ack result := eventAck e.eventId result server.defaultEncryption
  let failed (error : ApiError) : Exec Invocation PacketEnvelope := do
    let payload ← server.mapException w ⟨connectionId, some e.eventId, e.name, .event, error⟩
    return ack (.error payload)
  match server.eventHandlers e.name with
  | none => return ack (.error (ApiError.notFound "event handler not found").intoPayload)
  | some handler =>
    match ← Exec.catchUnwind (.event ctx) (handler w ctx) with
    | some (.ok receipt) => return ack (.ok receipt)
    | some (.error error) => failed error
    | none => failed (.internal "event handler panicked")

/-- `process_packet` up to `queue_for`: the packet it queues, if any. -/
def processPacket (connectionId : String) (peerAddr : Option SocketAddr) (authContext : Option Map)
    (body : PacketBody) : Exec Invocation (Option PacketEnvelope) :=
  match body with
  | .apiRequest requestId route params attachments metadata => do
    return some (← server.runApiRequest w connectionId peerAddr authContext
      ⟨requestId, route, params, attachments, metadata⟩)
  | .eventEmit eventId name data attachments metadata _ => do
    return some (← server.runEvent w connectionId peerAddr authContext
      ⟨eventId, name, data, attachments, metadata⟩)
  | _ => pure none

/-! ### What the reader does with a decoded packet (`server_runtime.rs:892-965`) -/

def isDataMessage : PacketBody → Bool
  | .apiRequest .. | .eventEmit .. => true
  | _ => false

inductive Intake where
  /-- A rate-limited message is answered by the reader itself. -/
  | answer (packet : PacketEnvelope)
  | spawn
  /-- `process_packet` without a task. -/
  | inline
  /-- The limiter panicked, and the connection's task with it. -/
  | unwind

/-- The limiter's verdict; without a limiter everything is allowed. -/
def checkLimits (limiter : Option RateLimiterState) (clock : Clock) (now : ℕ) (connectionId : String)
    (ip : IpAddr) (frameLen : UInt64) : Option Verdict × Option RateLimiterState :=
  match limiter with
  | none => (some .allowed, none)
  | some rl =>
    let (verdict, rl) := rl.checkAndRecord clock now connectionId ip frameLen
    (verdict, some rl)

/-- What answers a message that is limited or banned. -/
def busyAnswer : PacketBody → Intake
  | .apiRequest requestId .. => .answer (serviceBusyPacket requestId server.defaultEncryption)
  | .eventEmit eventId .. => .answer (silentAckPacket eventId server.defaultEncryption)
  | _ => .inline

def intake (limiter : Option RateLimiterState) (clock : Clock) (now : ℕ) (connectionId : String)
    (ip : IpAddr) (frameLen : UInt64) (body : PacketBody) : Intake × Option RateLimiterState :=
  if isDataMessage body then
    match checkLimits limiter clock now connectionId ip frameLen with
    | (none, limiter) => (.unwind, limiter)
    | (some .allowed, limiter) => (.spawn, limiter)
    | (some _, limiter) => (server.busyAnswer body, limiter)
  else (.inline, limiter)

/-- Inline packets are acks, responses and late auth frames: nothing comes of them. -/
theorem processPacket_inline {body : PacketBody} (h : isDataMessage body = false)
    (connectionId : String) (peerAddr : Option SocketAddr) (authContext : Option Map) :
    server.processPacket w connectionId peerAddr authContext body = pure none := by
  cases body with
  | apiRequest => cases h
  | eventEmit => cases h
  | apiResponse => rfl
  | eventAck => rfl
  | authRequest => rfl
  | authResponse => rfl

end WscallServer

end Wscall.Server
