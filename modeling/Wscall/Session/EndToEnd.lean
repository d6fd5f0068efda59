import Wscall.Server.Replies
import Wscall.Session.Joint

/-!
# A request and its answer

A result the server gave is what the server made of that very request, and the server executes a
request at most once, over all the connections of the client.
-/

namespace Wscall.Session
open RustStd Protocol Client

/-- Both ends are configured alike: the same mode, and the same key when it is configured. Of what
serde_json prints, the type and the id are read as they were printed; the rest need not be. -/
structure Link.Lawful {W : Type} (L : Link W) : Prop where
  aead : FrameCodec.AeadLaws L.setup.libs
  kind : L.setup.libs.json.KeepsUnsigned "k"
  id : L.setup.libs.json.KeepsUnsigned "i"
  mode : L.useEcdh = L.setup.server.isEcdh
  cipher : L.setup.server.isEcdh = false → L.setup.server.codec.SameCipher L.codec
  commutes : L.Commutes

theorem callJson_reads {t : Tree} {text : Bytes} (h : callJson.toWriter t = .ok text) :
    callJson.fromSlice text = .ok (.ofTree t) := by
  simp only [callJson] at h ⊢
  split at h <;> cases h
  · exact if_pos rfl
  · rw [if_neg (by decide), if_pos rfl]
  · rw [if_neg (by decide), if_neg (by decide), if_pos rfl]

theorem callJson_keeps (key : String) : callJson.KeepsUnsigned key := by
  intro t text v n h hv hn
  rw [callJson_reads h] at hv
  cases hv
  exact hn

theorem callLink_lawful : callLink.Lawful where
  aead := ⟨Server.tagged_lawful, Server.tagged_lawful⟩
  kind := callJson_keeps "k"
  id := callJson_keeps "i"
  mode := rfl
  cipher h := by cases h
  commutes := xorEcdh_exchange

section Frames

variable {W : Type} {L : Link W} {s : State} {g : ℕ} {c : String}

/-- Where both ends have their codec it is the same cipher with the same key. -/
theorem Joined.sameCipher (hs : Joined L s) (hL : L.Lawful) (hg : L.generation c = some g)
    {codec : FrameCodec} (hcodec : (s.server.conns c).codec = some codec)
    (hkeyed : L.useEcdh = true → s.keys g ≠ none) : codec.SameCipher (L.sessionCodec s.keys g) := by
  cases hmode : L.setup.server.isEcdh with
  | false =>
    obtain ⟨actions, hserved⟩ := hs.served
    have hsession := ((Server.sound_run hserved).conns c).session codec hcodec
    rw [Server.SessionCodec, hmode] at hsession
    have heq : codec = L.setup.server.codec.withMaxFrameBytes L.setup.server.maxFrameBytes := hsession
    rw [heq, sessionCodec_plain (hL.mode.trans hmode)]
    exact (FrameCodec.sameCipher_limit _ _).symm.trans (hL.cipher hmode)
  | true =>
    have hclient := hL.mode.trans hmode
    obtain ⟨key, hkey⟩ := Option.ne_none_iff_exists'.mp (hkeyed hclient)
    obtain ⟨secret, -, rfl, hexchanged⟩ := hs.exchanged hclient hmode hg hkey
    cases hcodec.symm.trans hexchanged
    rw [sessionCodec_keyed hclient hkey]
    exact sameCipher_exchanged hL.commutes secret

theorem Link.Lawful.arrives (hL : L.Lawful) {codec codec' : FrameCodec} (hsame : codec.SameCipher codec')
    {p q : PacketEnvelope} {random : Except String Nonce} {bytes : Bytes}
    (hp : codec.encode L.setup.libs random p = .ok bytes)
    (hq : codec'.decode L.setup.libs bytes = .ok q) : p.body.Arrives L.setup.libs.json q.body :=
  FrameCodec.arrives_of_decode hL.aead hL.kind hL.id hsame hp hq

/-! ### From the server's queue to the client -/

theorem mem_writerLoop {libs : Libs} {codec : FrameCodec} {message : Server.WireMessage}
    {items : List (Server.ServerOutbound × Except String Nonce)}
    (h : message ∈ Server.writerLoop libs codec items) :
    ∃ x ∈ items, (Server.writeItem libs codec x.2 x.1).1 = some message := by
  induction items with
  | nil => cases h
  | cons x items ih =>
    obtain ⟨item, random⟩ := x
    have hcases : (Server.writeItem libs codec random item).1 = some message ∨
        message ∈ Server.writerLoop libs codec items := by
      unfold Server.writerLoop at h
      generalize Server.writeItem libs codec random item = written at h
      obtain ⟨written, goesOn⟩ := written
      cases goesOn with
      | true => exact (List.mem_append.mp h).imp_left Option.mem_toList.mp
      | false => exact .inl (Option.mem_toList.mp h)
    rcases hcases with hhead | htail
    · exact ⟨_, List.mem_cons_self .., hhead⟩
    · obtain ⟨y, hy, hmessage⟩ := ih htail
      exact ⟨y, List.mem_cons_of_mem _ hy, hmessage⟩

theorem item_of_frame {actions : List (Server.Action W)}
    (hserved : Machine.run (Server.step L.setup) actions (Server.State.init L.setup) = some s.server)
    {bytes : Bytes} (h : .frame bytes ∈ (s.server.conns c).sent) :
    ∃ item ∈ Server.enqueued L.setup c actions (Server.State.init L.setup), ∃ codec random,
      (s.server.conns c).codec = some codec ∧
        (Server.writeItem L.setup.libs codec random item).1 = some (.frame bytes) := by
  obtain ⟨taken, hitems, hprefix, -⟩ := (Server.ordered_run hserved (Server.ordered_init _ c)).taken
  have hmem : Server.WireMessage.frame bytes ∈ (s.server.conns c).items := List.mem_filter.mpr ⟨h, rfl⟩
  rw [hitems] at hmem
  cases hcodec : (s.server.conns c).codec with
  | none =>
    rw [hcodec] at hmem
    cases hmem
  | some codec =>
    rw [hcodec] at hmem
    obtain ⟨x, hx, hwrite⟩ := mem_writerLoop hmem
    exact ⟨x.1, hprefix.subset (List.mem_map_of_mem hx), codec, x.2, rfl, hwrite⟩

/-- The frame of a packet, whoever encoded it, is under the client's cipher. -/
theorem arrives_of_item (hL : L.Lawful) {h : Server.ServerHandle}
    (hup : Server.UpToDate L.setup.server h) {packet p : PacketEnvelope}
    {random random' : Except String Nonce} {item : Server.ServerOutbound}
    (hitem : h.outbound L.setup.libs random packet = .ok item) {codec : FrameCodec}
    (hcodec : codec.SameCipher (L.sessionCodec s.keys g)) {bytes : Bytes}
    (hbytes : (Server.writeItem L.setup.libs codec random' item).1 = some (.frame bytes))
    (hp : (L.sessionCodec s.keys g).decode L.setup.libs bytes = .ok p) :
    packet.body.Arrives L.setup.libs.json p.body := by
  unfold Server.ServerHandle.outbound at hitem
  split_ifs at hitem with hecdh
  · -- the writer encodes it
    cases hitem
    simp only [Server.writeItem] at hbytes
    split at hbytes
    · rename_i frame hframe
      cases hbytes
      exact hL.arrives hcodec hframe hp
    · cases hbytes
  · obtain ⟨frame, hframe, hitem⟩ := bind_eq_ok hitem
    cases hitem
    cases hbytes
    obtain ⟨hmode, hsame⟩ := hup.resolve_left hecdh
    rw [sessionCodec_plain (hL.mode.trans hmode)] at hp
    exact hL.arrives (hsame.trans (hL.cipher hmode)) hframe hp

/-- A packet a reader took came in a message the server sent after those for the supervisor. -/
theorem Joined.received (hs : Joined L s) {body : PacketBody} (h : (g, body) ∈ s.journal.heard) :
    ∃ c message, L.generation c = some g ∧ message ∈ (s.server.conns c).sent.drop (s.greeted g) ∧
      L.decoded s.keys g message = some body := by
  obtain ⟨c, hg⟩ := hs.heard _ h
  have hmem : body ∈ heardOn s.journal g :=
    List.mem_map.mpr ⟨(g, body), List.mem_filter.mpr ⟨h, by simp⟩, rfl⟩
  obtain ⟨message, hmessage, hbody⟩ := List.mem_filterMap.mp ((hs.down c g hg).in_order.subset hmem)
  exact ⟨c, message, hg, hmessage, hbody⟩

/-- The reader of a connection does not run before the session key is there. -/
theorem Joined.keyed_of_heard (hs : Joined L s) (hecdh : L.useEcdh = true) {body : PacketBody}
    (h : (g, body) ∈ s.journal.heard) : s.keys g ≠ none := by
  intro hnone
  obtain ⟨c, hg⟩ := hs.heard _ h
  have hdown := hs.down c g hg
  have hmem : body ∈ heardOn s.journal g :=
    List.mem_map.mpr ⟨(g, body), List.mem_filter.mpr ⟨h, by simp⟩, rfl⟩
  rw [hdown.bodies, hdown.waiting ((((hs.introduced g).exchange hecdh).unkeyed hnone).2 .reader)] at hmem
  simp at hmem

/-- The server's key is for the supervisor. -/
theorem Joined.not_publicKey (hs : Joined L s) (hL : L.Lawful) (hg : L.generation c = some g)
    (hkeyed : L.useEcdh = true → s.keys g ≠ none) (key : Key) :
    .publicKey key ∉ (s.server.conns c).sent.drop (s.greeted g) := by
  intro hmem
  cases hmode : L.setup.server.isEcdh with
  | false => exact (hs.opened c g hg).plain hmode key (List.mem_of_mem_drop hmem)
  | true =>
    have hclient := hL.mode.trans hmode
    obtain ⟨sessionKey, hkey⟩ := Option.ne_none_iff_exists'.mp (hkeyed hclient)
    obtain ⟨-, hpos, -⟩ := ((hs.introduced g).exchange hclient).keyed sessionKey hkey
    obtain ⟨secret, -, -, hcodec⟩ := hs.exchanged hclient hmode hg hkey
    obtain ⟨_, _, rest, -, -, hsent, hrest⟩ := (hs.opened c g hg).exchanged hmode _ hcodec
    obtain ⟨n, hn⟩ := Nat.exists_eq_succ_of_ne_zero hpos.ne'
    rw [hsent, hn, List.drop_succ_cons] at hmem
    exact hrest key (List.mem_of_mem_drop hmem)

/-- An answer came in a frame of the connection's writer. -/
theorem Joined.frame_of_answer (hs : Joined L s) (hL : L.Lawful) {body : PacketBody}
    (h : (g, body) ∈ s.journal.heard) (hanswer : answers? body ≠ none) :
    ∃ c bytes p, L.generation c = some g ∧ .frame bytes ∈ (s.server.conns c).sent ∧
      (L.sessionCodec s.keys g).decode L.setup.libs bytes = .ok p ∧ p.body = body := by
  obtain ⟨c, message, hg, hmessage, hdecoded⟩ := hs.received h
  obtain ⟨bytes, p, hbinary, hp, rfl⟩ := decoded_eq_some hdecoded
  have hkeyed : L.useEcdh = true → s.keys g ≠ none := fun hecdh => hs.keyed_of_heard hecdh h
  cases message with
  | publicKey key => exact absurd hmessage (hs.not_publicKey hL hg hkeyed key)
  | authResponse reply =>
    cases hbinary
    obtain ⟨codec, random, result, hcodec, hencode⟩ :=
      (hs.opened c g hg).replied bytes (List.mem_of_mem_drop hmessage)
    have harrives := hL.arrives (hs.sameCipher hL hg hcodec hkeyed) hencode hp
    rw [answers?_arrives harrives] at hanswer
    cases result <;> exact absurd rfl hanswer
  | frame frame =>
    cases hbinary
    exact ⟨c, bytes, p, hg, List.mem_of_mem_drop hmessage, hp, rfl⟩
  | _ => cases hbinary

/-! ### From the client's socket to the server -/

section Requests

variable {codec : FrameCodec} {bytes : Bytes} {q : PacketEnvelope} {key : Kind × UInt64}

/-- The auth frame asks for nothing. -/
theorem request?_of_greets (hL : L.Lawful) (hsame : (L.sessionCodec s.keys g).SameCipher codec)
    (hq : codec.decode L.setup.libs bytes = .ok q) (hbytes : Greets L s g bytes) :
    Traffic.request? q.body = none := by
  obtain ⟨credential, hencode⟩ := hbytes
  exact Traffic.request?_arrives (hL.arrives hsame hencode hq)

/-- A frame that asks for something is the request of an invocation. -/
theorem request_of_written (hL : L.Lawful) (hs : Joined L s)
    (hsame : (L.sessionCodec s.keys g).SameCipher codec) (hq : codec.decode L.setup.libs bytes = .ok q)
    {item : Traffic.Item} (hmem : (item, bytes) ∈ s.client.written g)
    (hkey : Traffic.request? q.body = some key) :
    ∃ d n request packet, item = .request d packet ∧ s.journal.made d = some (n, request) ∧
      (request.body (UInt64.ofNat n)).Arrives L.setup.libs.json q.body ∧
      key = (d.kind, UInt64.ofNat n) := by
  obtain ⟨random, packet, hpacket, hencode⟩ := hs.shipped.frames g item bytes hmem
  have hfrom := hs.shipped.items g item
    (List.mem_append_right _ (List.mem_map_of_mem (f := Prod.fst) hmem))
  have harrives := hL.arrives hsame hencode hq
  rw [Traffic.request?_arrives harrives] at hkey
  cases item with
  | request d p =>
    cases hpacket
    obtain ⟨n, request, hmade, rfl⟩ := hfrom
    refine ⟨d, n, request, _, rfl, hmade, harrives, ?_⟩
    have hbody := (Traffic.request?_body request (UInt64.ofNat n)).symm.trans hkey
    rw [(hs.matched.numbered.range d n request hmade).1] at hbody
    exact (Option.some.inj hbody).symm
  | ack received p =>
    cases hpacket
    obtain ⟨eventId, receipt, rfl⟩ := hfrom
    cases hkey
  | _ => cases hpacket

/-- The frames of the client are under its session key. -/
theorem Joined.keyed_of_frame (hs : Joined L s) (hecdh : L.useEcdh = true)
    (h : bytes ∈ (s.stream g).drop L.useEcdh.toNat) : s.keys g ≠ none := by
  intro hnone
  rw [hs.frames_eq, hs.written_nil hecdh hnone, hecdh, Bool.toNat_true,
    List.drop_eq_nil_of_le (((hs.introduced g).exchange hecdh).unkeyed hnone).1] at h
  cases h

theorem Joined.frames_sent (hs : Joined L s) (hL : L.Lawful) (hg : L.generation c = some g) :
    framesRead s.server c <+: (s.stream g).drop L.useEcdh.toNat := by
  rw [hL.mode]
  exact (hs.up c g hg).in_order

theorem request_of_frame (hL : L.Lawful) (hs : Joined L s) (hg : L.generation c = some g)
    (hcodec : (s.server.conns c).codec = some codec) (hbytes : bytes ∈ framesRead s.server c)
    (hq : codec.decode L.setup.libs bytes = .ok q) (hkey : Traffic.request? q.body = some key) :
    ∃ d n request packet, (.request d packet, bytes) ∈ s.client.written g ∧
      s.journal.made d = some (n, request) ∧
      (request.body (UInt64.ofNat n)).Arrives L.setup.libs.json q.body ∧
      key = (d.kind, UInt64.ofNat n) := by
  have hstream := (hs.frames_sent hL hg).subset hbytes
  have hsame := (hs.sameCipher hL hg hcodec fun hecdh => hs.keyed_of_frame hecdh hstream).symm
  rw [hs.frames_eq] at hstream
  rcases List.mem_append.mp hstream with hhello | hwritten
  · rw [request?_of_greets hL hsame hq ((hs.introduced g).hellos bytes hhello)] at hkey
    cases hkey
  · obtain ⟨⟨item, frame⟩, hmem, rfl⟩ := List.mem_map.mp hwritten
    obtain ⟨d, n, request, packet, rfl, h⟩ := request_of_written hL hs hsame hq hmem hkey
    exact ⟨d, n, request, packet, hmem, h⟩

end Requests

end Frames

section Calls

variable {W : Type} {L : Link W} {s : State} {g : ℕ} {c : String}

/-- What the server makes of a request or an event: what its handlers answer, or what it answers
when it does not let them. -/
def Responds (L : Link W) (c : String) (peer : Server.SocketAddr) (body : PacketBody)
    (packet : PacketEnvelope) : Prop :=
  Server.Processed L.setup c peer body packet ∨ L.setup.server.busyAnswer body = .answer packet

theorem answersTo_of_responds {peer : Server.SocketAddr} {body : PacketBody} {packet : PacketEnvelope}
    (h : Responds L c peer body packet) : Server.AnswersTo body packet := by
  rcases h with ⟨w, authContext, h⟩ | h
  · exact Server.answersTo_of_process h
  · exact Server.answersTo_of_busy h

theorem busyAnswer_of_intake {limiter : Option Server.RateLimiterState} {peer : Server.SocketAddr}
    {now : ℕ} {bytes : Bytes} {body : PacketBody} {packet : PacketEnvelope}
    (h : Server.intakeOf L.setup limiter c peer now bytes body = .answer packet) :
    L.setup.server.busyAnswer body = .answer packet := by
  unfold Server.intakeOf Server.WscallServer.intake at h
  split at h
  · split at h
    · cases h
    · cases h
    · exact h
  · cases h

/-- The server has read a request or an event with the id and responded to it; the response arrives as
the body. -/
def Exchanged (L : Link W) (server : Server.State) (c : String) (key : Kind × UInt64) (body : PacketBody) :
    Prop :=
  ∃ codec frame q response, (server.conns c).codec = some codec ∧ frame ∈ framesRead server c ∧
    codec.decode L.setup.libs frame = .ok q ∧ Responds L c (server.conns c).peer q.body response ∧
    Traffic.request? q.body = some key ∧ answers? response.body = some key ∧
    response.body.Arrives L.setup.libs.json body

/-- A reply that arrives as an answer is a response to the request in the message. -/
theorem exchanged_of_reply {server : Server.State} {codec : FrameCodec} {message : Server.WsMessage}
    {reading : Server.Reading} {item : Server.ServerOutbound} {body : PacketBody} {k : Kind} {id : UInt64}
    (hcodec : (server.conns c).codec = some codec) (hmessage : message ∈ (server.conns c).inbox)
    (hreply : Server.Reply L.setup c (server.conns c).peer codec reading message item)
    (hpong : ∀ payload, item ≠ .pong payload) (hid : id ≠ 0)
    (hback : ∀ {packet : PacketEnvelope} {random : Except String Nonce},
      L.setup.server.handle.outbound L.setup.libs random packet = .ok item →
      packet.body.Arrives L.setup.libs.json body ∧ answers? packet.body = some (k, id)) :
    Exchanged L server c (k, id) body := by
  have hread : ∀ {frame : Bytes}, message = .binary frame → frame ∈ framesRead server c := by
    rintro frame rfl
    exact List.mem_filterMap.mpr ⟨_, hmessage, rfl⟩
  have hfinish : ∀ {frame : Bytes} {q packet : PacketEnvelope} {random : Except String Nonce},
      message = .binary frame → codec.decode L.setup.libs frame = .ok q →
      Responds L c (server.conns c).peer q.body packet →
      L.setup.server.handle.outbound L.setup.libs random packet = .ok item →
      Exchanged L server c (k, id) body := by
    intro frame q packet random hframe hdecode hresponds hout
    obtain ⟨key, hrequest, hresult⟩ := answersTo_of_responds hresponds
    obtain ⟨harrives, hkey⟩ := hback hout
    cases hresult.symm.trans hkey
    exact ⟨codec, frame, q, packet, hcodec, hread hframe, hdecode, hresponds, hrequest, hkey, harrives⟩
  cases hreply with
  | pong payload => exact absurd rfl (hpong payload)
  | refused hrefusal hout =>
    cases hrefusal with
    | header hreject =>
      -- the 413 has the id 0
      cases (hback hout).2
      exact absurd rfl hid
    | limited _ hdecode hlimited => exact hfinish rfl hdecode (.inr (busyAnswer_of_intake hlimited)) hout
  | answered hask hrun hout =>
    obtain ⟨frame, q, rfl, hdecode, -, rfl⟩ := hask
    exact hfinish rfl hdecode (.inl hrun) hout

theorem exchanged_of_frame (hL : L.Lawful)
    (hhandles : ∀ h ∈ L.setup.handles, Server.UpToDate L.setup.server h) (hs : Joined L s)
    (hg : L.generation c = some g) (hkeyed : L.useEcdh = true → s.keys g ≠ none) {bytes : Bytes}
    (hbytes : .frame bytes ∈ (s.server.conns c).sent) {p : PacketEnvelope}
    (hp : (L.sessionCodec s.keys g).decode L.setup.libs bytes = .ok p) {k : Kind} {id : UInt64}
    (hanswer : answers? p.body = some (k, id)) (hid : id ≠ 0) :
    Exchanged L s.server c (k, id) p.body := by
  obtain ⟨actions, hserved⟩ := hs.served
  obtain ⟨item, hitem, codec, random, hcodec, hwrite⟩ := item_of_frame hserved hbytes
  have hsame := hs.sameCipher hL hg hcodec hkeyed
  have hback : ∀ {h : Server.ServerHandle} {packet : PacketEnvelope} {random' : Except String Nonce},
      Server.UpToDate L.setup.server h → h.outbound L.setup.libs random' packet = .ok item →
      packet.body.Arrives L.setup.libs.json p.body ∧ answers? packet.body = some (k, id) := by
    intro h packet random' hup hout
    have harrives := arrives_of_item hL hup hout hsame hwrite hp
    exact ⟨harrives, (answers?_arrives harrives).symm.trans hanswer⟩
  obtain ⟨queued, ran, hqueued, -, hbooks⟩ := Server.books_run hserved
    (by simp [Server.PushItems, Server.State.init]) (Server.noted_init L.setup c)
    (Server.books_init L.setup c)
  rw [← hqueued] at hitem
  obtain ⟨⟨origin, item'⟩, hmem, rfl⟩ := List.mem_map.mp hitem
  cases origin with
  | none =>
    -- what the server sends on its own account answers nothing
    rcases hbooks.unsolicited item' hmem with rfl | ⟨h, hh, e, eventId, random', hout⟩
    · cases hwrite
    · have hup : Server.UpToDate L.setup.server h := by
        rcases List.mem_cons.mp hh with rfl | hh
        · exact Server.upToDate_handle _
        · exact hhandles h hh
      cases (hback hup hout).2
  | some i =>
    obtain ⟨reading, -, codec', message, hcodec', hmessage, hreply⟩ := hbooks.solicited i item' hmem
    cases hcodec.symm.trans hcodec'
    refine exchanged_of_reply hcodec (List.mem_of_getElem? hmessage) hreply ?_ hid
      (hback (Server.upToDate_handle _))
    rintro payload rfl
    cases hwrite

/-- Two invocations with the same id are one, as long as no counter has wrapped. -/
theorem made_unique {j : Traffic.Journal} (hj : j.Numbered) (hids : ∀ k, j.drawn k < 2 ^ 64) {d e : CallId}
    {n m : ℕ} {request request' : Traffic.Request} (hd : j.made d = some (n, request))
    (he : j.made e = some (m, request')) (hkind : d.kind = e.kind)
    (hid : UInt64.ofNat n = UInt64.ofNat m) : d = e := by
  have hn := (hj.range d n request hd).2.2
  have hm := (hj.range e m request' he).2.2
  have hnm : n = m := by
    have h := congrArg UInt64.toNat hid
    rw [UInt64.toNat_ofNat', UInt64.toNat_ofNat'] at h
    have := hids d.kind
    have := hids e.kind
    omega
  subst hnm
  exact hj.unique d e n request request' hd he hkind

/-- The call has returned with `null`. -/
def returnedNull (s : State) : Bool :=
  match s.client.calls echoCall with
  | .returned (.ok v) => (v.tree matches .null)
  | _ => false

theorem drawn_call : ∃ s, Machine.run (step callLink) callRun (State.init callLink) = some s ∧
    (∀ k, s.journal.drawn k < 2 ^ 64) ∧ ∃ v, s.client.calls echoCall = .returned (.ok v) := by
  have hrun : (Machine.run (step callLink) callRun (State.init callLink)).any (fun s =>
      returnedNull s && decide (s.journal.drawn .api = 1) && decide (s.journal.drawn .event = 0)) = true := by
    decide +kernel
  obtain ⟨s, hs, hp⟩ := (Option.any_eq_true ..).mp hrun
  simp only [Bool.and_eq_true, decide_eq_true_eq] at hp
  obtain ⟨⟨hreturned, hapi⟩, hevent⟩ := hp
  refine ⟨s, hs, fun k => ?_, ?_⟩
  · cases k with
    | api => rw [hapi]; decide
    | event => rw [hevent]; decide
  · unfold returnedNull at hreturned
    split at hreturned
    · exact ⟨_, ‹_›⟩
    · cases hreturned

/-- The frame asks for this. -/
def asksFor (libs : Libs) (codec : FrameCodec) (key : Kind × UInt64) (bytes : Bytes) : Bool :=
  match codec.decode libs bytes with
  | .ok q => Traffic.request? q.body = some key
  | .error _ => false

theorem asksFor_eq_true {libs : Libs} {codec : FrameCodec} {key : Kind × UInt64} {bytes : Bytes} :
    asksFor libs codec key bytes = true ↔
      ∃ q, codec.decode libs bytes = .ok q ∧ Traffic.request? q.body = some key := by
  unfold asksFor
  split <;> simp [*]

theorem two_le_countP {α : Type} {p : α → Bool} {l : List α} {i j : ℕ} {a b : α} (hij : i < j)
    (hi : l[i]? = some a) (hj : l[j]? = some b) (ha : p a = true) (hb : p b = true) : 2 ≤ l.countP p := by
  have hfirst : a ∈ l.take j := by
    refine List.mem_of_getElem? (i := i) ?_
    rw [List.getElem?_take_of_lt hij, hi]
  have hrest : b ∈ l.drop j := by
    refine List.mem_of_getElem? (i := 0) ?_
    rw [List.getElem?_drop, Nat.add_zero, hj]
  rw [← List.take_append_drop j l, List.countP_append]
  have := List.countP_pos_iff.mpr ⟨a, hfirst, ha⟩
  have := List.countP_pos_iff.mpr ⟨b, hrest, hb⟩
  omega

/-- An invocation has one frame on one connection. -/
theorem countP_frames_le (hL : L.Lawful) (hs : Joined L s) (hids : ∀ k, s.journal.drawn k < 2 ^ 64)
    {codec : FrameCodec} (hsame : (L.sessionCodec s.keys g).SameCipher codec) (key : Kind × UInt64) :
    ((s.stream g).drop L.useEcdh.toNat).countP (asksFor L.setup.libs codec key) ≤ 1 := by
  have hhello : ((s.opening g).drop L.useEcdh.toNat).countP (asksFor L.setup.libs codec key) = 0 := by
    refine List.countP_eq_zero.mpr fun bytes hbytes hasks => ?_
    obtain ⟨q, hq, hkey⟩ := asksFor_eq_true.mp hasks
    rw [request?_of_greets hL hsame hq ((hs.introduced g).hellos bytes hbytes)] at hkey
    cases hkey
  rw [hs.frames_eq, List.countP_append, hhello, Nat.zero_add, List.countP_map]
  by_cases hsome : ∃ x ∈ s.client.written g, asksFor L.setup.libs codec key x.2 = true
  · obtain ⟨⟨item, bytes⟩, hmem, hasks⟩ := hsome
    obtain ⟨q, hq, hkey⟩ := asksFor_eq_true.mp hasks
    obtain ⟨d, n, request, packet, rfl, hmade, -, rfl⟩ := request_of_written hL hs hsame hq hmem hkey
    have hown : ∀ y ∈ s.client.written g,
        (asksFor L.setup.libs codec (d.kind, UInt64.ofNat n) ∘ Prod.snd) y = true →
          (Traffic.Item.isRequest d ∘ Prod.fst) y = true := by
      rintro ⟨item', bytes'⟩ hmem' hasks'
      obtain ⟨q', hq', hkey'⟩ := asksFor_eq_true.mp hasks'
      obtain ⟨e, m, request', packet', rfl, hmade', -, heq⟩ :=
        request_of_written hL hs hsame hq' hmem' hkey'
      obtain ⟨hkind, hid⟩ := Prod.mk.inj heq
      obtain rfl := made_unique hs.matched.numbered hids hmade hmade' hkind hid
      simp [Traffic.Item.isRequest]
    obtain ⟨home, hhome⟩ := hs.shipped.home d
    calc (s.client.written g).countP (asksFor L.setup.libs codec (d.kind, UInt64.ofNat n) ∘ Prod.snd)
        ≤ (s.client.written g).countP (Traffic.Item.isRequest d ∘ Prod.fst) :=
          List.countP_mono_left hown
      _ = ((s.client.written g).map Prod.fst).countP (Traffic.Item.isRequest d) := List.countP_map.symm
      _ ≤ s.client.requests g d := by
          rw [Traffic.State.requests_eq]
          exact Nat.le_add_left ..
      _ ≤ 1 := by
          refine (hhome g).trans ?_
          split
          · cases s.client.calls d <;> simp [Traffic.Pc.sends]
          · exact Nat.zero_le _
  · have hnone : (s.client.written g).countP (asksFor L.setup.libs codec key ∘ Prod.snd) = 0 :=
      List.countP_eq_zero.mpr fun x hx hasks => hsome ⟨x, hx, hasks⟩
    rw [hnone]
    exact Nat.zero_le _

/-- What the server executed on one of its connections. -/
def executedOn (L : Link W) (actions : List (Action W)) (c : String) : List PacketBody :=
  Server.executions L.setup c (serverRun L actions) (Server.State.init L.setup)

/-- What was executed for a message of the inbox. -/
def ExecutedFor (L : Link W) (s : State) (c : String) (j : ℕ) (body : PacketBody) : Prop :=
  ∃ codec bytes q, (s.server.conns c).codec = some codec ∧
    (s.server.conns c).inbox[j]? = some (.binary bytes) ∧ codec.decode L.setup.libs bytes = .ok q ∧
    q.body = body

/-- The executions on a connection were for different messages of its inbox. -/
theorem executed_entries {actions : List (Action W)}
    (h : Machine.run (step L) actions (State.init L) = some s) (c : String) :
    ∃ places : List ℕ, places.Nodup ∧
      ∀ (i : ℕ) (body : PacketBody), (executedOn L actions c)[i]? = some body →
        ∃ j, places[i]? = some j ∧ ExecutedFor L s c j body := by
  obtain ⟨queued, ran, -, hran, hbooks⟩ := Server.books_run (run_serverRun h)
    (by simp [Server.PushItems, Server.State.init]) (Server.noted_init L.setup c)
    (Server.books_init L.setup c)
  refine ⟨ran.map Prod.fst, hbooks.once, fun i body hi => ?_⟩
  rw [executedOn, ← hran, List.getElem?_map] at hi
  obtain ⟨⟨j, b⟩, hj, rfl⟩ := Option.map_eq_some_iff.mp hi
  obtain ⟨codec, message, hcodec, hmessage, bytes, q, rfl, hq, -, hbody⟩ :=
    hbooks.processed j b (List.mem_of_getElem? hj)
  refine ⟨j, ?_, codec, bytes, q, hcodec, hmessage, hq, hbody⟩
  rw [List.getElem?_map, hj]
  rfl

theorem ExecutedFor.request (hL : L.Lawful) (hs : Joined L s) (hg : L.generation c = some g) {j : ℕ}
    {body : PacketBody} (h : ExecutedFor L s c j body) {key : Kind × UInt64}
    (hkey : Traffic.request? body = some key) :
    ∃ d n request, s.journal.made d = some (n, request) ∧ key = (d.kind, UInt64.ofNat n) ∧
      0 < s.client.requests g d := by
  obtain ⟨codec, bytes, q, hcodec, hmessage, hq, rfl⟩ := h
  have hread : bytes ∈ framesRead s.server c :=
    List.mem_filterMap.mpr ⟨_, List.mem_of_getElem? hmessage, rfl⟩
  obtain ⟨d, n, request, packet, hwritten, hmade, -, heq⟩ :=
    request_of_frame hL hs hg hcodec hread hq hkey
  refine ⟨d, n, request, hmade, heq, List.countP_pos_iff.mpr ⟨.request d packet, ?_, ?_⟩⟩
  · exact List.mem_append_right _ (List.mem_map_of_mem (f := Prod.fst) hwritten)
  · simp [Traffic.Item.isRequest]

/-- An invocation has its frame on one connection. -/
theorem ExecutedFor.same_connection (hL : L.Lawful) (hs : Joined L s)
    (hids : ∀ k, s.journal.drawn k < 2 ^ 64) {c' : String} {g' : ℕ} (hg : L.generation c = some g)
    (hg' : L.generation c' = some g') {j j' : ℕ} {body body' : PacketBody} (h : ExecutedFor L s c j body)
    (h' : ExecutedFor L s c' j' body') {key : Kind × UInt64} (hkey : Traffic.request? body = some key)
    (hkey' : Traffic.request? body' = some key) : c = c' := by
  obtain ⟨d, n, request, hmade, rfl, hpos⟩ := h.request hL hs hg hkey
  obtain ⟨d', n', request', hmade', heq, hpos'⟩ := h'.request hL hs hg' hkey'
  obtain ⟨hkind, hid⟩ := Prod.mk.inj heq
  obtain rfl := made_unique hs.matched.numbered hids hmade hmade' hkind hid
  obtain ⟨home, hhome⟩ := hs.shipped.home d
  have hhere : ∀ {g : ℕ}, 0 < s.client.requests g d → g = home := by
    intro g hpos
    by_contra hne
    have := hhome g
    rw [if_neg hne] at this
    omega
  rw [hhere hpos] at hg
  rw [hhere hpos'] at hg'
  exact L.injective c c' home hg hg'

/-- Two messages of one inbox do not ask for the same. -/
theorem ExecutedFor.unique (hL : L.Lawful) (hs : Joined L s) (hids : ∀ k, s.journal.drawn k < 2 ^ 64)
    (hg : L.generation c = some g) {j j' : ℕ} {body body' : PacketBody} (h : ExecutedFor L s c j body)
    (h' : ExecutedFor L s c j' body') {key : Kind × UInt64} (hkey : Traffic.request? body = some key)
    (hkey' : Traffic.request? body' = some key) : ¬ j < j' := by
  intro hlt
  obtain ⟨codec, bytes, q, hcodec, hmessage, hq, rfl⟩ := h
  obtain ⟨codec', bytes', q', hcodec', hmessage', hq', rfl⟩ := h'
  cases hcodec.symm.trans hcodec'
  have htwo : 2 ≤ (s.server.conns c).inbox.countP
      (fun m => ((messageBytes m).map (asksFor L.setup.libs codec key)).getD false) :=
    two_le_countP hlt hmessage hmessage' (asksFor_eq_true.mpr ⟨q, hq, hkey⟩)
      (asksFor_eq_true.mpr ⟨q', hq', hkey'⟩)
  rw [← List.countP_filterMap] at htwo
  change 2 ≤ (framesRead s.server c).countP (asksFor L.setup.libs codec key) at htwo
  have hframe : bytes ∈ framesRead s.server c :=
    List.mem_filterMap.mpr ⟨_, List.mem_of_getElem? hmessage, rfl⟩
  have hsent := hs.frames_sent hL hg
  have hsame := hs.sameCipher hL hg hcodec fun hecdh => hs.keyed_of_frame hecdh (hsent.subset hframe)
  have hone := countP_frames_le hL hs hids hsame.symm key
  have hle := hsent.sublist.countP_le (p := asksFor L.setup.libs codec key)
  omega

/-- The server executes no request and no event of the client twice: two executions that answer to
the same id are one, on one connection. -/
theorem executed_once (hL : L.Lawful) {actions : List (Action W)}
    (h : Machine.run (step L) actions (State.init L) = some s)
    (hids : ∀ k, s.journal.drawn k < 2 ^ 64) {c c' : String} {g g' : ℕ} (hg : L.generation c = some g)
    (hg' : L.generation c' = some g') {i i' : ℕ} {body body' : PacketBody}
    (hi : (executedOn L actions c)[i]? = some body) (hi' : (executedOn L actions c')[i']? = some body')
    {key : Kind × UInt64} (hkey : Traffic.request? body = some key)
    (hkey' : Traffic.request? body' = some key) : c = c' ∧ i = i' := by
  have hs := joined_run h
  obtain ⟨places, honce, hplaces⟩ := executed_entries h c
  obtain ⟨places', -, hplaces'⟩ := executed_entries h c'
  obtain ⟨j, hj, hfor⟩ := hplaces i body hi
  obtain ⟨_, -, hfor'⟩ := hplaces' i' body' hi'
  obtain rfl := hfor.same_connection hL hs hids hg hg' hfor' hkey hkey'
  obtain ⟨j', hj', hother⟩ := hplaces i' body' hi'
  have hjj : j = j' := by
    have := hfor.unique hL hs hids hg hother hkey hkey'
    have := hother.unique hL hs hids hg hfor hkey' hkey
    omega
  subst hjj
  obtain ⟨hlt, -⟩ := List.getElem?_eq_some_iff.mp hj
  exact ⟨rfl, (List.getElem?_inj hlt honce).mp (hj.trans hj'.symm)⟩

theorem executed_once_call : (executedOn callLink callRun "c").length = 1 ∧
    ∀ i body, (executedOn callLink callRun "c")[i]? = some body →
      Traffic.request? body = some (.api, 1) → i = 0 := by
  obtain ⟨s, hs, hids, -⟩ := drawn_call
  have hfirst : (executedOn callLink callRun "c")[0]?.any
      (fun body => Traffic.request? body = some (.api, 1)) = true := by decide +kernel
  obtain ⟨first, hfirst, hkey⟩ := (Option.any_eq_true ..).mp hfirst
  refine ⟨by decide +kernel, fun i body hi hbody => ?_⟩
  exact (executed_once callLink_lawful hs hids rfl rfl hi hfirst hbody (of_decide_eq_true hkey)).2

end Calls

end Wscall.Session
