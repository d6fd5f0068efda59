import Wscall.Lib.Utf8
import Wscall.Protocol.Json

/-!
# Packets and their JSON form (`wscall-protocol/src/lib.rs:108-815`)

The hand-written `Serialize` and `Deserialize` impls of `PacketBody`: short keys, a
numeric `k` tag, fields moved out of the parsed map one after the other. Attachments
never travel in the JSON; the `a` key is only read.
-/

namespace Wscall.Protocol
open RustStd

inductive MessageType where
  | api
  | event
  | auth
  deriving DecidableEq

def MessageType.toByte : MessageType → UInt8
  | .api => 0x00
  | .event => 0x01
  | .auth => 0x02

inductive EncryptionKind where
  | none
  | chacha20
  | aes256
  deriving DecidableEq

structure FileAttachment where
  id : String
  name : String
  contentType : String
  data : Bytes
  deriving DecidableEq

structure ErrorPayload where
  code : String
  message : String
  status : UInt16
  details : Option Value

inductive PacketBody where
  | apiRequest (requestId : UInt64) (route : String) (params : Value)
      (attachments : List FileAttachment) (metadata : Value)
  | apiResponse (requestId : UInt64) (ok : Bool) (status : UInt16) (data : Value)
      (error : Option ErrorPayload) (metadata : Value)
  | eventEmit (eventId : UInt64) (name : String) (data : Map)
      (attachments : List FileAttachment) (metadata : Value) (expectAck : Bool)
  | eventAck (eventId : UInt64) (ok : Bool) (receipt : Value) (error : Option ErrorPayload)
  | authRequest (credential : String)
  | authResponse (ok : Bool) (sessionTimeoutSecs : Option UInt64) (error : Option ErrorPayload)

structure PacketEnvelope where
  messageType : MessageType
  encryption : EncryptionKind
  body : PacketBody

inductive ProtocolError where
  | frameTooShort
  | frameLengthMismatch (declared actual : ℕ)
  | payloadTooLarge (actual max : ℕ)
  | frameTooLarge (actual max : ℕ)
  | unknownMessageType (value : UInt8)
  | missingEncryptionKey (algorithm : String)
  | random (source : String)
  | encryptedPayloadTooShort (algorithm : String) (expectedMin actual : ℕ)
  | encryptionFailed (algorithm : String)
  | decryptionFailed (algorithm : String)
  | invalidEcdhPublicKey (expected actual : ℕ)
  | ecdhHandshake (reason : String)
  | messageTypeMismatch
  | invalidAttachmentEncoding (reason : String)
  | json (e : JsonError)
  deriving DecidableEq

def MessageType.tryFrom (value : UInt8) : Checked ProtocolError MessageType :=
  if value = 0x00 then .ok .api
  else if value = 0x01 then .ok .event
  else if value = 0x02 then .ok .auth
  else fail (.unknownMessageType value)

@[simp] theorem MessageType.tryFrom_toByte (t : MessageType) : tryFrom t.toByte = .ok t := by
  cases t <;> rfl

namespace PacketBody

def messageType : PacketBody → MessageType
  | apiRequest .. | apiResponse .. => .api
  | eventEmit .. | eventAck .. => .event
  | authRequest .. | authResponse .. => .auth

def attachments : PacketBody → List FileAttachment
  | apiRequest _ _ _ as _ => as
  | eventEmit _ _ _ as _ _ => as
  | _ => []

def setAttachments : PacketBody → List FileAttachment → PacketBody
  | apiRequest i r p _ m, as => apiRequest i r p as m
  | eventEmit i n d _ m e, as => eventEmit i n d as m e
  | b, _ => b

end PacketBody

namespace PacketEnvelope

def new (body : PacketBody) : PacketEnvelope := ⟨body.messageType, .none, body⟩

def withEncryption (body : PacketBody) (encryption : EncryptionKind) : PacketEnvelope :=
  ⟨body.messageType, encryption, body⟩

/-- The envelopes the two public constructors build. -/
inductive Built : PacketEnvelope → Prop where
  | new (body : PacketBody) : Built (new body)
  | withEncryption (body : PacketBody) (encryption : EncryptionKind) :
      Built (withEncryption body encryption)

theorem Built.messageType_eq {p : PacketEnvelope} (h : Built p) :
    p.messageType = p.body.messageType := by
  cases h <;> rfl

end PacketEnvelope

/-! ### Serialize -/

def kApiRequest : UInt8 := 0
def kEventEmit : UInt8 := 1
def kApiResponse : UInt8 := 2
def kEventAck : UInt8 := 3
def kAuthRequest : UInt8 := 4
def kAuthResponse : UInt8 := 5

def Tree.u64 (n : UInt64) : Tree := .number (.posInt n)
def Tree.kind (k : UInt8) : Tree := .u64 k.toUInt64

/-- `metadata_is_empty`: null or `{}`. -/
def metadataIsEmpty (v : Value) : Bool :=
  match v.tree with
  | .null => true
  | .object [] => true
  | _ => false

def metadataEntry (metadata : Value) : List (String × Tree) :=
  if metadataIsEmpty metadata then [] else [("m", metadata.tree)]

def ErrorPayload.serialize (e : ErrorPayload) : Tree :=
  .object ([("code", .string e.code), ("message", .string e.message),
    ("status", .u64 e.status.toUInt64)] ++
    match e.details with
    | none => []
    | some d => [("details", d.tree)])

def errorEntry : Option ErrorPayload → List (String × Tree)
  | none => []
  | some e => [("er", e.serialize)]

/-- The entries each variant emits, in order. -/
def PacketBody.entries : PacketBody → List (String × Tree)
  | apiRequest i r p _ m =>
    [("k", .kind kApiRequest), ("i", .u64 i), ("r", .string r), ("p", p.tree)] ++ metadataEntry m
  | apiResponse i ok s d er m =>
    [("k", .kind kApiResponse), ("i", .u64 i), ("o", .bool ok), ("s", .u64 s.toUInt64),
      ("d", d.tree)] ++ errorEntry er ++ metadataEntry m
  | eventEmit i n d _ m e =>
    [("k", .kind kEventEmit), ("i", .u64 i), ("n", .string n), ("d", .object d.entries)] ++
      metadataEntry m ++ [("e", .bool e)]
  | eventAck i ok rc er =>
    [("k", .kind kEventAck), ("i", .u64 i), ("o", .bool ok), ("rc", rc.tree)] ++ errorEntry er
  | authRequest c => [("k", .kind kAuthRequest), ("c", .string c)]
  | authResponse ok st er =>
    [("k", .kind kAuthResponse), ("o", .bool ok)] ++
      (match st with
      | none => []
      | some st => [("st", .u64 st)]) ++ errorEntry er

def PacketBody.serialize (b : PacketBody) : Tree := .object b.entries

/-! ### Deserialize -/

def takeU64 (map : Map) (key : String) : Except JsonError (UInt64 × Map) :=
  match (map.remove key).1.bind Value.asU64 with
  | some n => .ok (n, (map.remove key).2)
  | none => .error (.custom s!"missing or non-numeric '{key}' field in packet body")

def takeString (map : Map) (key : String) : Except JsonError (String × Map) :=
  match (map.remove key).1.bind Value.asStr with
  | some s => .ok (s, (map.remove key).2)
  | none => .error (.custom s!"missing or non-string '{key}' field in packet body")

def takeObject (map : Map) (key : String) : Except JsonError (Map × Map) :=
  match (map.remove key).1 with
  | none => .ok (Map.empty, (map.remove key).2)
  | some v =>
    match v.asObject with
    | some o => .ok (o, (map.remove key).2)
    | none => .error (.custom s!"'{key}' field must be a JSON object")

def takeBool (map : Map) (key : String) : Bool × Map :=
  (((map.remove key).1.bind Value.asBool).getD false, (map.remove key).2)

/-- `take_u16`: the number is truncated, not range-checked. -/
def takeU16 (map : Map) (key : String) : UInt16 × Map :=
  ((((map.remove key).1.bind Value.asU64).getD 0).toUInt16, (map.remove key).2)

/-- `map.remove(key).unwrap_or(Value::Null)`. -/
def takeValue (map : Map) (key : String) : Value × Map :=
  ((map.remove key).1.getD Value.null, (map.remove key).2)

def u8FromTree : Tree → Except JsonError UInt8
  | .number (.posInt n) => if n.toNat < 256 then .ok n.toUInt8 else .error .serde
  | _ => .error .serde

def stringFromTree : Tree → Except JsonError String
  | .string s => .ok s
  | _ => .error .serde

def bytesFromTree : Tree → Except JsonError Bytes
  | .array items => items.mapM u8FromTree
  | _ => .error .serde

/-- The four fields of an attachment, in declaration order. -/
def attachmentFromFields (id name contentType data : Tree) : Except JsonError FileAttachment := do
  let id ← stringFromTree id
  let name ← stringFromTree name
  let contentType ← stringFromTree contentType
  let data ← bytesFromTree data
  .ok ⟨id, name, contentType, data⟩

/-- `Deserialize for FileAttachment`: `visit_map` knows four fields and no other,
`visit_seq` takes exactly four elements. -/
def attachmentFromTree : Tree → Except JsonError FileAttachment
  | .object entries =>
    if entries.all fun e => ["id", "name", "content_type", "data"].contains e.1 then
      match SortedAssoc.get "id" entries, SortedAssoc.get "name" entries,
        SortedAssoc.get "content_type" entries, SortedAssoc.get "data" entries with
      | some id, some name, some contentType, some data =>
        attachmentFromFields id name contentType data
      | _, _, _, _ => .error .serde
    else .error .serde
  | .array [id, name, contentType, data] => attachmentFromFields id name contentType data
  | _ => .error .serde

def takeAttachments (map : Map) : Except JsonError (List FileAttachment × Map) :=
  match (map.remove "a").1 with
  | none => .ok ([], (map.remove "a").2)
  | some v =>
    match v.tree with
    | .array items => (items.mapM attachmentFromTree).map fun as => (as, (map.remove "a").2)
    | _ => .error .serde

def u16FromValue (v : Value) : Except JsonError UInt16 :=
  match v.tree with
  | .number (.posInt n) => if n.toNat < 65536 then .ok n.toUInt16 else .error .serde
  | _ => .error .serde

/-- `Option<Value>`: null reads as `None`. -/
def optionFromValue (v : Value) : Option Value :=
  match v.tree with
  | .null => none
  | _ => some v

def errorFromFields (code message status : Value) (details : Option Value) :
    Except JsonError ErrorPayload := do
  let code ← stringFromTree code.tree
  let message ← stringFromTree message.tree
  let status ← u16FromValue status
  .ok ⟨code, message, status, details.bind optionFromValue⟩

/-- The derived `Deserialize for ErrorPayload`: unknown keys are ignored, a missing
`details` is `None`; the sequence form needs all four elements. -/
def errorFromValue (v : Value) : Except JsonError ErrorPayload :=
  match v.asObject with
  | some m =>
    match m.get "code", m.get "message", m.get "status" with
    | some code, some message, some status =>
      errorFromFields code message status (m.get "details")
    | _, _, _ => .error .serde
  | none =>
    match h : v.tree with
    | .array [code, message, status, details] =>
      have hc : (Tree.array [code, message, status, details]).Canonical := h ▸ v.canonical
      errorFromFields ⟨code, hc.1⟩ ⟨message, hc.2.1⟩ ⟨status, hc.2.2.1⟩
        (some ⟨details, hc.2.2.2.1⟩)
    | _ => .error .serde

def takeError (map : Map) : Except JsonError (Option ErrorPayload × Map) :=
  match (map.remove "er").1 with
  | none => .ok (none, (map.remove "er").2)
  | some v => (errorFromValue v).map fun e => (some e, (map.remove "er").2)

/-- The fields of the variant tagged `k`, moved out of the map. -/
def PacketBody.fromFields (k : UInt8) (map : Map) : Except JsonError PacketBody :=
  if k = kApiRequest then do
    let (requestId, map) ← takeU64 map "i"
    let (route, map) ← takeString map "r"
    let (params, map) := takeValue map "p"
    let (as, map) ← takeAttachments map
    let (metadata, _) := takeValue map "m"
    .ok (.apiRequest requestId route params as metadata)
  else if k = kEventEmit then do
    let (eventId, map) ← takeU64 map "i"
    let (name, map) ← takeString map "n"
    let (data, map) ← takeObject map "d"
    let (as, map) ← takeAttachments map
    let (metadata, map) := takeValue map "m"
    let (expectAck, _) := takeBool map "e"
    .ok (.eventEmit eventId name data as metadata expectAck)
  else if k = kApiResponse then do
    let (requestId, map) ← takeU64 map "i"
    let (ok, map) := takeBool map "o"
    let (status, map) := takeU16 map "s"
    let (data, map) := takeValue map "d"
    let (error, map) ← takeError map
    let (metadata, _) := takeValue map "m"
    .ok (.apiResponse requestId ok status data error metadata)
  else if k = kEventAck then do
    let (eventId, map) ← takeU64 map "i"
    let (ok, map) := takeBool map "o"
    let (receipt, map) := takeValue map "rc"
    let (error, _) ← takeError map
    .ok (.eventAck eventId ok receipt error)
  else if k = kAuthRequest then do
    let (credential, _) ← takeString map "c"
    .ok (.authRequest credential)
  else if k = kAuthResponse then do
    let (ok, map) := takeBool map "o"
    let sessionTimeoutSecs := (map.remove "st").1.bind Value.asU64
    let (error, _) ← takeError (map.remove "st").2
    .ok (.authResponse ok sessionTimeoutSecs error)
  else .error (.custom s!"unknown 'k' value: {k}")

def PacketBody.deserialize (v : Value) : Except JsonError PacketBody :=
  match v.asObject with
  | none => .error (.custom "packet body must be a JSON object")
  | some map =>
    match (map.get "k").bind Value.asU64 with
    | none => .error (.custom "missing or non-numeric 'k' field in packet body")
    | some k =>
      if k.toNat < 256 then fromFields k.toUInt8 map
      else .error (.custom s!"'k' value {k} is outside the valid range")

end Wscall.Protocol
