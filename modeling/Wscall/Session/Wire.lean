import Wscall.Client.Journal
import Wscall.Protocol.TamperEvidence
import Wscall.Server.EventAcks
import Wscall.Server.WireCodec

/-!
# A packet from one end to the other

The two ends use the same cipher and may have different size limits. What the one encodes and the
other decodes is a body of the same type with the same id. It is the body that was sent, up to the
two normalisations and the attachments that could be read, if its text is read as it was printed.
-/

namespace Wscall.Protocol
open RustStd

/-- The number by which a body is matched with another. -/
def PacketBody.id? : PacketBody → Option UInt64
  | .apiRequest i .. | .apiResponse i .. | .eventEmit i .. | .eventAck i .. => some i
  | .authRequest _ | .authResponse .. => none

/-- serde_json reads what it prints for the tree as the tree. -/
def SerdeJson.ReadsBack (json : SerdeJson) (t : Tree) : Prop :=
  ∃ text, json.toWriter t = .ok text ∧ json.fromSlice text = .ok (Value.ofTree t)

/-- What the one body is on the other end. -/
structure PacketBody.Arrives (json : SerdeJson) (b b' : PacketBody) : Prop where
  kind : b'.kind = b.kind
  id : b'.id? = b.id?
  whole : json.ReadsBack b.serialize → ∃ attachments,
    b' = b.normalize.setAttachments attachments ∧ (b.AttachmentsFit → attachments = b.attachments)

namespace FrameCodec

variable {libs : Libs} {c d e : FrameCodec}

theorem SameCipher.symm (h : c.SameCipher d) : d.SameCipher c :=
  ⟨h.kind.symm, fun hk => (h.chacha20 (h.kind.trans hk)).symm, fun hk => (h.aes256 (h.kind.trans hk)).symm⟩

theorem SameCipher.trans (h : c.SameCipher d) (h' : d.SameCipher e) : c.SameCipher e :=
  ⟨h.kind.trans h'.kind, fun hk => (h.chacha20 hk).trans (h'.chacha20 (h.kind.symm.trans hk)),
    fun hk => (h.aes256 hk).trans (h'.aes256 (h.kind.symm.trans hk))⟩

theorem sameCipher_limit (c : FrameCodec) (max : ℕ) : c.SameCipher (c.withMaxFrameBytes max) :=
  ⟨rfl, fun _ => rfl, fun _ => rfl⟩

/-- A limit that lets the frame through changes nothing. -/
theorem decode_limit {f : Bytes} {q : PacketEnvelope} (h : decode libs d f = .ok q) {max : ℕ}
    (hmax : f.length ≤ max) : decode libs (d.withMaxFrameBytes max) f = .ok q := by
  obtain ⟨t, payload, comp, rfl, -, hsize, hrec, hcomp⟩ := decode_inv h
  rw [frame_length] at hmax
  rw [decode_frame t hmax, if_neg (by omega)]
  have hrec' : recover libs (d.withMaxFrameBytes max) payload = .ok comp := hrec
  rw [hrec', ok_bind]
  exact hcomp

theorem unsignedAt_id {b : PacketBody} {i : UInt64} (h : b.id? = some i) :
    (Value.ofTree b.serialize).unsignedAt "i" = some i := by
  rw [Value.unsignedAt, PacketBody.serialize, Value.ofTree_object, Option.bind_some, get_entries]
  cases b with
  | apiRequest | apiResponse | eventEmit | eventAck =>
    cases h
    rfl
  | authRequest | authResponse => cases h

theorem id_of_fields {b : PacketBody} {map : Map} (h : FieldsOf map b) {i : UInt64}
    (hi : unsignedOf map "i" = some i) {j : UInt64} (hj : b.id? = some j) : j = i := by
  have hread : unsignedOf map "i" = some j := by
    cases b with
    | apiRequest | apiResponse | eventEmit | eventAck =>
      cases hj
      exact h.1
    | authRequest | authResponse => cases hj
  exact Option.some.inj (hread.symm.trans hi)

theorem kind_setAttachments (b : PacketBody) (as : List FileAttachment) :
    (b.setAttachments as).kind = b.kind := by
  cases b <;> rfl

theorem id_setAttachments (b : PacketBody) (as : List FileAttachment) :
    (b.setAttachments as).id? = b.id? := by
  cases b <;> rfl

/-- The id goes with the type, and is what was printed. -/
theorem id_of_reading (hkind : libs.json.KeepsUnsigned "k") (hid : libs.json.KeepsUnsigned "i")
    {b b' : PacketBody} {text : Bytes} (htext : libs.json.toWriter b.serialize = .ok text)
    (hread : (libs.json.fromSlice text >>= PacketBody.deserialize) = .ok b') : b'.id? = b.id? := by
  have hauth : ∀ b : PacketBody, b.id?.isSome = (b.messageType != .auth) := by
    intro b
    cases b <;> rfl
  have hsome : b'.id?.isSome = b.id?.isSome := by
    rw [hauth, hauth, messageType_of_kind (kind_of_reading hkind htext hread)]
  cases hb : b.id? with
  | none =>
    rw [hb] at hsome
    simpa using hsome
  | some i =>
    rw [hb] at hsome
    obtain ⟨j, hj⟩ := Option.isSome_iff_exists.mp hsome
    obtain ⟨v, hv, hbody⟩ := bind_eq_ok hread
    obtain ⟨map, hobj, -, hfields⟩ := deserialize_fields hbody
    have hprinted := hid _ _ v _ htext hv (unsignedAt_id hb)
    rw [Value.unsignedAt, hobj, Option.bind_some] at hprinted
    rw [hj, id_of_fields hfields hprinted hj]

/-- A frame that one end encodes and the other decodes. -/
theorem arrives_of_decode (laws : AeadLaws libs) (hkind : libs.json.KeepsUnsigned "k")
    (hid : libs.json.KeepsUnsigned "i") (hsame : c.SameCipher d) {p q : PacketEnvelope}
    {random : Except String Nonce} {f : Bytes} (hf : encode libs c random p = .ok f)
    (hq : decode libs d f = .ok q) : p.body.Arrives libs.json q.body := by
  -- both ends with the limit of the encoder
  obtain ⟨-, -, -, hlimit, -⟩ := encode_inv laws hf
  have hq' := decode_limit hq hlimit
  have hf' : encode libs (d.withMaxFrameBytes c.maxFrameBytes) random p = .ok f := by
    rw [← (hsame.trans (sameCipher_limit d _)).encode_eq rfl]
    exact hf
  obtain ⟨text, b, atts, rest, htext, hlen, hread, hsections, -, rfl⟩ := decode_encode_inv laws hf' hq'
  refine ⟨?_, ?_, fun hback => ⟨atts, ?_, fun hfit => ?_⟩⟩
  · rw [kind_setAttachments]
    exact kind_of_reading hkind htext hread
  · rw [id_setAttachments]
    exact id_of_reading hkind hid htext hread
  · obtain ⟨text', htext', hparse⟩ := hback
    rw [htext] at htext'
    cases htext'
    rw [hparse] at hread
    cases (deserialize_serialize p.body).symm.trans hread
    exact setAttachments_twice ..
  · have hsec := sections_length_lt laws hf
    rw [readSections_attachments hfit (by omega)] at hsections
    cases hsections
    rfl

end FrameCodec

end Wscall.Protocol

namespace Wscall.Client
open Protocol

/-- What an outcome is after the trip: `details: null` is no details. -/
def Outcome.received : Outcome → Outcome
  | .error (.remote e) => .error (.remote e.normalize)
  | r => r

theorem remoteResult_normalize (ok : Bool) (data : Value) (error : Option ErrorPayload) :
    remoteResult ok data (error.map ErrorPayload.normalize) =
      Outcome.received (remoteResult ok data error) := by
  cases ok <;> cases error <;> rfl

/-- Whom a packet answers. -/
def answers? (b : PacketBody) : Option (Kind × UInt64) := (answer b).map fun x => (x.1, x.2.1)

theorem answers?_arrives {json : SerdeJson} {b b' : PacketBody} (h : b.Arrives json b') :
    answers? b' = answers? b := by
  have hanswers : ∀ b : PacketBody, answers? b =
      if b.kind = kApiResponse then b.id?.map (.api, ·)
      else if b.kind = kEventAck then b.id?.map (.event, ·) else none := by
    intro b
    cases b <;> rfl
  rw [hanswers, hanswers, h.kind, h.id]

/-- The outcome is the one that was sent, if the text of the answer is read as it was printed. -/
theorem answer_arrives {json : SerdeJson} {b b' : PacketBody} (h : b.Arrives json b')
    (hback : json.ReadsBack b.serialize) :
    answer b' = (answer b).map fun x => (x.1, x.2.1, Outcome.received x.2.2) := by
  obtain ⟨attachments, rfl, -⟩ := h.whole hback
  cases b with
  | apiResponse id ok status data error metadata =>
    simp only [PacketBody.normalize, PacketBody.setAttachments, answer, remoteResult_normalize,
      Option.map_some]
  | eventAck id ok receipt error =>
    simp only [PacketBody.normalize, PacketBody.setAttachments, answer, remoteResult_normalize,
      Option.map_some]
  | _ => rfl

namespace Traffic

theorem request?_arrives {json : SerdeJson} {b b' : PacketBody} (h : b.Arrives json b') :
    request? b' = request? b := by
  have hrequest : ∀ b : PacketBody, request? b =
      if b.kind = kApiRequest then b.id?.map (.api, ·)
      else if b.kind = kEventEmit then b.id?.map (.event, ·) else none := by
    intro b
    cases b <;> rfl
  rw [hrequest, hrequest, h.kind, h.id]

/-- Nothing is lost of a request whose text is read as it was printed, but what does not fit the
frame. -/
theorem Request.arrives {json : SerdeJson} {request : Request} {id : UInt64} {b : PacketBody}
    (h : (request.body id).Arrives json b) (hback : json.ReadsBack (request.body id).serialize) :
    (∃ attachments, b = (request.body id).setAttachments attachments) ∧
      ((request.body id).AttachmentsFit → b = request.body id) := by
  obtain ⟨attachments, rfl, hfit⟩ := h.whole hback
  have hnormal : (request.body id).normalize = request.body id := by
    cases request <;> rfl
  rw [hnormal]
  refine ⟨⟨attachments, rfl⟩, fun h => ?_⟩
  rw [hfit h, FrameCodec.setAttachments_attachments]

end Traffic

end Wscall.Client

namespace Wscall.Server
open RustStd Protocol Client

section Packets

variable {W : Type} {server : WscallServer W} {body : PacketBody}

/-- The packet answers the request or the event of the body. -/
def AnswersTo (body : PacketBody) (packet : PacketEnvelope) : Prop :=
  ∃ key, Traffic.request? body = some key ∧ answers? packet.body = some key

theorem answersTo_of_busy {packet : PacketEnvelope} (h : server.busyAnswer body = .answer packet) :
    AnswersTo body packet := by
  cases body with
  | apiRequest id route params attachments metadata =>
    cases h
    exact ⟨(.api, id), rfl, rfl⟩
  | eventEmit id name data attachments metadata expectAck =>
    cases h
    exact ⟨(.event, id), rfl, rfl⟩
  | _ => cases h

theorem answersTo_of_process {w : W} {c : String} {peer : Option SocketAddr} {authContext : Option Map}
    {packet : PacketEnvelope}
    (h : (server.processPacket w c peer authContext body).result = some (some packet)) :
    AnswersTo body packet := by
  cases body with
  | apiRequest id route params attachments metadata =>
    obtain ⟨p, hp, h⟩ : ∃ p, (server.runApiRequest w c peer authContext
        ⟨id, route, params, attachments, metadata⟩).result = some p ∧ p = packet := by
      simpa [WscallServer.processPacket, Option.bind_eq_some_iff] using h
    subst h
    obtain ⟨result, -, hanswers⟩ := (server.runApiRequest_result w).mp hp
    cases hanswers with
    | data v => exact ⟨(.api, id), rfl, rfl⟩
    | error he => exact ⟨(.api, id), rfl, rfl⟩
  | eventEmit id name data attachments metadata expectAck =>
    obtain ⟨p, hp, h⟩ : ∃ p, (server.runEvent w c peer authContext
        ⟨id, name, data, attachments, metadata⟩).result = some p ∧ p = packet := by
      simpa [WscallServer.processPacket, Option.bind_eq_some_iff] using h
    subst h
    obtain ⟨result, -, rfl⟩ := (server.runEvent_result w).mp hp
    cases result with
    | ok receipt => exact ⟨(.event, id), rfl, rfl⟩
    | error e => exact ⟨(.event, id), rfl, rfl⟩
  | _ => simp [WscallServer.processPacket] at h

end Packets

end Wscall.Server
