import Wscall.Lib.Unwind
import Wscall.Protocol.Codec
import Wscall.Server.RateLimiter

/-!
# The server and its handles (`wscall-server/src/server_types.rs`, `server_runtime.rs:56-330`)

A registered callback sees more than its argument (clocks, its own state), so it is a
function of a value of `W`, the rest of the world at the moment of the call.
-/

namespace Wscall.Server
open RustStd Protocol

structure SocketAddr where
  ip : IpAddr
  port : UInt16

structure ApiError where
  code : String
  message : String
  status : UInt16
  details : Option Value

namespace ApiError

def new (code message : String) (status : UInt16) : ApiError := ⟨code, message, status, none⟩

def notFound (message : String) : ApiError := new "not_found" message 404
def internal (message : String) : ApiError := new "internal_error" message 500

def intoPayload (e : ApiError) : ErrorPayload := ⟨e.code, e.message, e.status, e.details⟩

end ApiError

structure ServerHandle where
  codec : FrameCodec
  defaultEncryption : EncryptionKind
  isEcdh : Bool
  deriving DecidableEq

structure ApiContext where
  connectionId : String
  peerAddr : Option SocketAddr
  requestId : UInt64
  route : String
  params : Value
  attachments : List FileAttachment
  metadata : Value
  server : ServerHandle
  authContext : Option Map

structure EventContext where
  connectionId : String
  peerAddr : Option SocketAddr
  eventId : UInt64
  name : String
  data : Map
  attachments : List FileAttachment
  metadata : Value
  server : ServerHandle
  authContext : Option Map

inductive MessageKind where
  | api
  | event
  deriving DecidableEq

structure ExceptionContext where
  connectionId : String
  requestId : Option UInt64
  target : String
  messageKind : MessageKind
  error : ApiError

structure ServerConnectionContext where
  connectionId : String
  peerAddr : Option SocketAddr
  server : ServerHandle
  authenticated : Bool
  authContext : Option Map

structure AuthContext where
  credential : String
  peerAddr : Option SocketAddr
  connectionId : String

structure AuthOutput where
  sessionTimeout : Option ℕ
  context : Map

section Callbacks

variable (W : Type)

abbrev ApiHandler := W → ApiContext → Callback (Except ApiError Value)
abbrev Filter := W → ApiContext → Callback (Except ApiError ApiContext)
abbrev EventHandler := W → EventContext → Callback (Except ApiError Value)
abbrev ConnectionHandler := W → ServerConnectionContext → Callback Unit
abbrev ExceptionHandler := W → ExceptionContext → Callback ErrorPayload
abbrev AuthHandler := W → AuthContext → Callback (Except ApiError AuthOutput)

structure WscallServer where
  routes : String → Option (ApiHandler W)
  filters : List (Filter W)
  eventHandlers : String → Option (EventHandler W)
  connectionHandlers : List (ConnectionHandler W)
  exceptionHandler : Option (ExceptionHandler W)
  codec : FrameCodec
  defaultEncryption : EncryptionKind
  isEcdh : Bool
  maxInFlight : ℕ
  maxFrameBytes : ℕ
  rateLimiter : Option RateLimiter
  authHandler : Option (AuthHandler W)

end Callbacks

namespace WscallServer

variable {W : Type}

def new : WscallServer W where
  routes _ := none
  filters := []
  eventHandlers _ := none
  connectionHandlers := []
  exceptionHandler := none
  codec := FrameCodec.plaintext
  defaultEncryption := .none
  isEcdh := false
  maxInFlight := 64
  maxFrameBytes := FrameCodec.defaultMaxFrameBytes
  rateLimiter := none
  authHandler := none

/-- The codec stays as it is: each connection gets its own. -/
def withEcdh (s : WscallServer W) : WscallServer W :=
  { s with isEcdh := true, defaultEncryption := .chacha20 }

def withChacha20Key (s : WscallServer W) (key : Key) : WscallServer W :=
  { s with codec := s.codec.withChacha20Key key, defaultEncryption := .chacha20 }

def withAes256Key (s : WscallServer W) (key : Key) : WscallServer W :=
  { s with codec := s.codec.withAes256Key key, defaultEncryption := .aes256 }

/-- The codec keeps its own limit. -/
def withMaxFrameBytes (s : WscallServer W) (max : ℕ) : WscallServer W :=
  { s with maxFrameBytes := max }

/-- Registration: the new filter runs after those already there. -/
def filter (s : WscallServer W) (f : Filter W) : WscallServer W :=
  { s with filters := s.filters ++ [f] }

/-- `handle`: copies of the codec and the mode as they are now. -/
def handle (s : WscallServer W) : ServerHandle := ⟨s.codec, s.defaultEncryption, s.isEcdh⟩

end WscallServer

structure ServerEvent where
  name : String
  data : Map
  attachments : List FileAttachment

def serverSource : Value := .ofTree (.object [("source", .string "server")])

/-- The packet of `broadcast_event` and `send_event_to`. -/
def ServerHandle.eventPacket (h : ServerHandle) (eventId : UInt64) (e : ServerEvent) :
    PacketEnvelope :=
  .withEncryption (.eventEmit eventId e.name e.data e.attachments serverSource true)
    h.defaultEncryption

/-- An item of a connection's outbound queue. -/
inductive ServerOutbound where
  | preEncoded (bytes : Bytes)
  | packet (packet : PacketEnvelope)
  | pong (payload : Bytes)
  | close

/-- What `queue_for`, `broadcast_event` and `send_event_to` put on a queue: a frame encoded
here, or under ECDH the packet, which the writer encodes. -/
def ServerHandle.outbound (libs : Libs) (h : ServerHandle) (random : Except String Nonce)
    (packet : PacketEnvelope) : Checked ProtocolError ServerOutbound :=
  if h.isEcdh then .ok (.packet packet)
  else return .preEncoded (← h.codec.encode libs random packet)

end Wscall.Server
