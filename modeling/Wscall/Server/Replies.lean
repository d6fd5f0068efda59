import Wscall.Server.Accounts
import Wscall.Server.Transcript

/-!
# One answer for one message

Over a whole run, what is in a connection's queue is what the server sends on its own account or
the answer to one message the reader took, and no message is answered or executed twice.
-/

namespace Wscall.Server
open RustStd Protocol

section Answers

variable {W : Type} (setup : Setup W)

/-- The message is a request or an event with this body. -/
def Asks (body : PacketBody) (codec : FrameCodec) (message : WsMessage) : Prop :=
  ∃ bytes packet, message = .binary bytes ∧ codec.decode setup.libs bytes = .ok packet ∧
    WscallServer.isDataMessage packet.body = true ∧ packet.body = body

/-- `process_packet` answers the body with the packet. -/
def Processed (c : String) (peer : SocketAddr) (body : PacketBody) (packet : PacketEnvelope) : Prop :=
  ∃ w authContext, (setup.server.processPacket w c (some peer) authContext body).result =
    some (some packet)

/-- What a message may be answered with, given what the limiter was when it was read. -/
inductive Reply (c : String) (peer : SocketAddr) (codec : FrameCodec) (reading : Reading) :
    WsMessage → ServerOutbound → Prop
  | pong (payload : Bytes) : Reply c peer codec reading (.ping payload) (.pong payload)
  | refused {message packet random item}
      (h : Refusal setup reading.1 c peer codec reading.2 message packet)
      (hitem : setup.server.handle.outbound setup.libs random packet = .ok item) :
      Reply c peer codec reading message item
  | answered {message body packet random item} (h : Asks setup body codec message)
      (hrun : Processed setup c peer body packet)
      (hitem : setup.server.handle.outbound setup.libs random packet = .ok item) :
      Reply c peer codec reading message item

/-- What the reader knows of the message it has not let go of. -/
def ReaderOwes (c : String) (reading : Reading) (peer : SocketAddr) (codec : FrameCodec)
    (message : WsMessage) : Phase → Prop
  | .queueing item => Reply setup c peer codec reading message item
  | .ponging payload => Reply setup c peer codec reading message (.pong payload)
  | .acquiring body => Asks setup body codec message
  | _ => True

/-- What a task knows of the message it was spawned for. -/
def TaskOwes (c : String) (reading : Reading) (peer : SocketAddr) (codec : FrameCodec)
    (message : WsMessage) (body : PacketBody) : TaskPc → Prop
  | .answering packet => Processed setup c peer body packet
  | .sending item => Reply setup c peer codec reading message item
  | _ => True

/-- The message at a place of the inbox, read in the connection's session. -/
def Conn.Entry (conn : Conn) (i : ℕ) (P : SocketAddr → FrameCodec → WsMessage → Prop) : Prop :=
  ∃ codec message, conn.codec = some codec ∧ conn.inbox[i]? = some message ∧ P conn.peer codec message

/-- The same with what the limiter was when it was read. -/
def Conn.EntryAt (conn : Conn) (notes : List Reading) (i : ℕ)
    (P : Reading → SocketAddr → FrameCodec → WsMessage → Prop) : Prop :=
  ∃ reading, notes[i]? = some reading ∧ conn.Entry i (P reading)

structure ReaderDebt (c : String) (notes : List Reading) (owes : Option ℕ → Option ℕ) (ran : List ℕ)
    (conn : Conn) (i : ℕ) : Prop where
  owes : owes none = some i
  entry : conn.EntryAt notes i fun reading peer codec message =>
    ReaderOwes setup c reading peer codec message conn.phase
  fresh : ∀ body, conn.phase = .acquiring body → i ∉ ran

structure TaskDebt (c : String) (notes : List Reading) (owes : Option ℕ → Option ℕ) (ran : List ℕ)
    (conn : Conn) (t : ℕ) (task : HandlerTask) (i : ℕ) : Prop where
  owes : owes (some t) = some i
  entry : conn.EntryAt notes i fun reading peer codec message =>
    Asks setup task.body codec message ∧
      TaskOwes setup c reading peer codec message task.body task.pc
  fresh : task.pc = .spawned → i ∉ ran

/-- What was queued, each item with the message it answers, and what was executed. -/
structure Books (c : String) (notes : List Reading) (queued : List (Option ℕ × ServerOutbound))
    (ran : List (ℕ × PacketBody)) (s : State) : Prop where
  outside : (s.conns c).phase.Outside →
    queued.filterMap Prod.fst = [] ∧ ran = [] ∧ ∀ t, ¬ s.Works c t
  solicited : ∀ i item, (some i, item) ∈ queued →
    (s.conns c).EntryAt notes i fun reading peer codec message =>
      Reply setup c peer codec reading message item
  unsolicited : ∀ item, (none, item) ∈ queued → item = .close ∨ EventItem setup item
  processed : ∀ i body, (i, body) ∈ ran → (s.conns c).Entry i fun _ codec => Asks setup body codec
  once : (ran.map Prod.fst).Nodup
  debts : ∃ owes : Option ℕ → Option ℕ,
    Balanced (s.conns c).inbox.length owes (queued.filterMap Prod.fst) ∧
    ((s.conns c).phase.Pending → ∃ i, ReaderDebt setup c notes owes (ran.map Prod.fst) (s.conns c) i) ∧
    ∀ t, s.Works c t → ∃ i, TaskDebt setup c notes owes (ran.map Prod.fst) (s.conns c) t (s.tasks t) i

end Answers

section Steps

variable {W : Type} {setup : Setup W} {s s' : State} {a : Action W} {c : String}
  {notes notes' : List Reading} {queued : List (Option ℕ × ServerOutbound)}
  {ran : List (ℕ × PacketBody)}

theorem Conn.Entry.lt {conn : Conn} {i : ℕ} {P : SocketAddr → FrameCodec → WsMessage → Prop}
    (h : conn.Entry i P) : i < conn.inbox.length := by
  obtain ⟨codec, message, -, hmessage, -⟩ := h
  obtain ⟨hlt, -⟩ := List.getElem?_eq_some_iff.mp hmessage
  exact hlt

theorem Conn.Entry.imp {conn : Conn} {i : ℕ} {P Q : SocketAddr → FrameCodec → WsMessage → Prop}
    (h : conn.Entry i P) (hpq : ∀ codec message, P conn.peer codec message → Q conn.peer codec message) :
    conn.Entry i Q := by
  obtain ⟨codec, message, hcodec, hmessage, hp⟩ := h
  exact ⟨codec, message, hcodec, hmessage, hpq codec message hp⟩

theorem Conn.Entry.continues {old new : Conn} {i : ℕ} {P : SocketAddr → FrameCodec → WsMessage → Prop}
    (h : old.Entry i P) (hcont : Continues old new) : new.Entry i P := by
  obtain ⟨codec, message, hcodec, hmessage, hp⟩ := h
  exact ⟨codec, message, hcont.codec ▸ hcodec, getElem?_of_isPrefix hcont.inbox hmessage, hcont.peer ▸ hp⟩

theorem Conn.EntryAt.imp {conn : Conn} {i : ℕ}
    {P Q : Reading → SocketAddr → FrameCodec → WsMessage → Prop} (h : conn.EntryAt notes i P)
    (hpq : ∀ reading codec message, P reading conn.peer codec message →
      Q reading conn.peer codec message) : conn.EntryAt notes i Q := by
  obtain ⟨reading, hreading, hentry⟩ := h
  exact ⟨reading, hreading, hentry.imp (hpq reading)⟩

theorem Conn.EntryAt.continues {old new : Conn} {i : ℕ}
    {P : Reading → SocketAddr → FrameCodec → WsMessage → Prop} (h : old.EntryAt notes i P)
    (hcont : Continues old new) (hnotes : notes <+: notes') : new.EntryAt notes' i P := by
  obtain ⟨reading, hreading, hentry⟩ := h
  exact ⟨reading, getElem?_of_isPrefix hnotes hreading, hentry.continues hcont⟩

theorem ReaderDebt.continues {owes : Option ℕ → Option ℕ} {done : List ℕ} {old new : Conn} {i : ℕ}
    (h : ReaderDebt setup c notes owes done old i) (hcont : Continues old new)
    (hnotes : notes <+: notes') (hp : new.phase = old.phase) :
    ReaderDebt setup c notes' owes done new i where
  owes := h.owes
  entry := by rw [hp]; exact h.entry.continues hcont hnotes
  fresh := by rw [hp]; exact h.fresh

theorem TaskDebt.continues {owes owes' : Option ℕ → Option ℕ} {done : List ℕ} {old new : Conn} {t i : ℕ}
    {task : HandlerTask} (h : TaskDebt setup c notes owes done old t task i)
    (hcont : Continues old new) (hnotes : notes <+: notes')
    (howes : owes' (some t) = owes (some t)) : TaskDebt setup c notes' owes' done new t task i where
  owes := howes.trans h.owes
  entry := h.entry.continues hcont hnotes
  fresh := h.fresh

theorem readerOwes_of_reads {codec : FrameCodec} {now : ℕ} {random : Except String Nonce}
    {message : WsMessage} {phase : Phase} (h : Reads setup s c codec now random (some message) phase) :
    ReaderOwes setup c (s.limiter, now) (s.conns c).peer codec message phase := by
  cases h with
  | ping payload => exact .pong payload
  | refused hrefused _ hitem => exact .refused hrefused hitem
  | @data bytes p _ hd hspawn => exact ⟨bytes, p, rfl, hd, isDataMessage_of_spawn hspawn, rfl⟩
  | _ => trivial

theorem reply_of_held {reading : Reading} {peer : SocketAddr} {codec : FrameCodec}
    {message : WsMessage} {p : Phase} {item : ServerOutbound} (hp : p.held = some item)
    (h : ReaderOwes setup c reading peer codec message p) :
    Reply setup c peer codec reading message item := by
  cases p with
  | queueing | ponging =>
    cases hp
    exact h
  | _ => cases hp

theorem books_init (setup : Setup W) (c : String) : Books setup c [] [] [] (State.init setup) where
  outside _ := ⟨rfl, rfl, fun t ht => ht.1⟩
  solicited := by simp
  unsolicited := by simp
  processed := by simp
  once := List.nodup_nil
  debts := ⟨fun _ => none, .empty, fun h => h.elim, fun t ht => ht.1.elim⟩

/-- The books after a step of the session: what is in them stays. -/
theorem Books.next (h : Books setup c notes queued ran s) (hcont : Continues (s.conns c) (s'.conns c))
    (hnotes : notes <+: notes') (more : List (Option ℕ × ServerOutbound)) (did : List (ℕ × PacketBody))
    (hout : ¬ (s'.conns c).phase.Outside)
    (hsome : ∀ i item, (some i, item) ∈ more →
      (s'.conns c).EntryAt notes' i fun reading peer codec message =>
        Reply setup c peer codec reading message item)
    (hnone : ∀ item, (none, item) ∈ more → item = .close ∨ EventItem setup item)
    (hdid : ∀ i body, (i, body) ∈ did → (s'.conns c).Entry i fun _ codec => Asks setup body codec)
    (honce : ((ran ++ did).map Prod.fst).Nodup)
    (hdebts : ∃ owes : Option ℕ → Option ℕ,
      Balanced (s'.conns c).inbox.length owes ((queued ++ more).filterMap Prod.fst) ∧
      ((s'.conns c).phase.Pending →
        ∃ i, ReaderDebt setup c notes' owes ((ran ++ did).map Prod.fst) (s'.conns c) i) ∧
      ∀ t, s'.Works c t →
        ∃ i, TaskDebt setup c notes' owes ((ran ++ did).map Prod.fst) (s'.conns c) t (s'.tasks t) i) :
    Books setup c notes' (queued ++ more) (ran ++ did) s' where
  outside hp := absurd hp hout
  solicited i item hmem := by
    rcases List.mem_append.mp hmem with hmem | hmem
    · exact (h.solicited i item hmem).continues hcont hnotes
    · exact hsome i item hmem
  unsolicited item hmem := by
    rcases List.mem_append.mp hmem with hmem | hmem
    · exact h.unsolicited item hmem
    · exact hnone item hmem
  processed i body hmem := by
    rcases List.mem_append.mp hmem with hmem | hmem
    · exact (h.processed i body hmem).continues hcont
    · exact hdid i body hmem
  once := honce
  debts := hdebts

/-- No debts change hands. -/
theorem Books.rests (h : Books setup c notes queued ran s) (hcont : Continues (s.conns c) (s'.conns c))
    (hnotes : notes <+: notes') {items : List ServerOutbound}
    (hout : ¬ (s'.conns c).phase.Outside ∨ (s'.conns c).phase = (s.conns c).phase)
    (hp : (s'.conns c).phase = (s.conns c).phase ∨ ¬ (s'.conns c).phase.Pending)
    (htasks : ∀ t, s'.Works c t → s'.tasks t = s.tasks t)
    (hitems : ∀ item ∈ items, item = .close ∨ EventItem setup item) :
    Books setup c notes' (queued ++ items.map (none, ·)) ran s' := by
  have hpaid : (queued ++ items.map fun item => ((none : Option ℕ), item)).filterMap Prod.fst =
      queued.filterMap Prod.fst := by
    simp [List.filterMap_append, List.filterMap_map]
  have hworks : ∀ t, s'.Works c t → s.Works c t := by
    intro t ht
    rw [State.Works, htasks t ht] at ht
    exact ht
  obtain ⟨owes, hbal, hreader, hworking⟩ := h.debts
  refine ⟨fun hp' => ?_, fun i item hmem => ?_, fun item hmem => ?_,
    fun i body hmem => (h.processed i body hmem).continues hcont, h.once, owes, ?_, fun hp' => ?_,
    fun t ht => ?_⟩
  · rcases hout with hout | hout
    · exact absurd hp' hout
    · obtain ⟨hq, hr, hw⟩ := h.outside (hout ▸ hp')
      exact ⟨hpaid.trans hq, hr, fun t ht => hw t (hworks t ht)⟩
  · rcases List.mem_append.mp hmem with hmem | hmem
    · exact (h.solicited i item hmem).continues hcont hnotes
    · simp at hmem
  · rcases List.mem_append.mp hmem with hmem | hmem
    · exact h.unsolicited item hmem
    · obtain ⟨item', hitem', heq⟩ := List.mem_map.mp hmem
      cases heq
      exact hitems item hitem'
  · rw [hpaid]
    exact hbal.mono hcont.inbox.length_le
  · rcases hp with hp | hp
    · obtain ⟨i, hi⟩ := hreader (hp ▸ hp')
      exact ⟨i, hi.continues hcont hnotes hp⟩
    · exact absurd hp' hp
  · obtain ⟨i, hi⟩ := hworking t (hworks t ht)
    rw [htasks t ht]
    exact ⟨i, hi.continues hcont hnotes rfl⟩

/-- Before the session there are no debts. -/
theorem Books.ofOutside (h : Books setup c notes queued ran s) (hold : (s.conns c).phase.Outside)
    (hp : ¬ (s'.conns c).phase.Pending) (htasks : s'.tasks = s.tasks) :
    Books setup c notes' queued ran s' := by
  obtain ⟨hq, rfl, hw⟩ := h.outside hold
  have hworks : ∀ t, ¬ s'.Works c t := by
    intro t ht
    rw [State.Works, htasks] at ht
    exact hw t ht
  refine ⟨fun _ => ⟨hq, rfl, hworks⟩, fun i item hmem => ?_, h.unsolicited, by simp, by simp,
    fun _ => none, ?_, fun hp' => absurd hp' hp, fun t ht => absurd ht (hworks t)⟩
  · have hmem' : i ∈ queued.filterMap Prod.fst := List.mem_filterMap.mpr ⟨_, hmem, rfl⟩
    rw [hq] at hmem'
    cases hmem'
  · rw [hq]
    exact Balanced.empty.mono (Nat.zero_le _)

theorem Books.reads (h : Books setup c notes queued ran s) (hcont : Continues (s.conns c) (s'.conns c))
    (hlength : notes.length = (s.conns c).inbox.length) {codec : FrameCodec} {now : ℕ}
    {random : Except String Nonce} {message : WsMessage} (hc : (s.conns c).codec = some codec)
    (hinbox : (s'.conns c).inbox = (s.conns c).inbox ++ [message])
    (hreads : Reads setup s c codec now random (some message) (s'.conns c).phase)
    (hp : (s'.conns c).phase.Pending) (htasks : s'.tasks = s.tasks) :
    Books setup c (notes ++ [(s.limiter, now)]) queued ran s' := by
  have hnotes : notes <+: notes ++ [(s.limiter, now)] := List.prefix_append ..
  obtain ⟨owes, hbal, -, hworking⟩ := h.debts
  have hlen : (s'.conns c).inbox.length = (s.conns c).inbox.length + 1 := by simp [hinbox]
  have hnew : (s'.conns c).EntryAt (notes ++ [(s.limiter, now)]) (s.conns c).inbox.length
      fun reading peer codec message =>
        ReaderOwes setup c reading peer codec message (s'.conns c).phase := by
    refine ⟨(s.limiter, now), by simp [← hlength], codec, message, hcont.codec.trans hc,
      by simp [hinbox], ?_⟩
    rw [hcont.peer]
    exact readerOwes_of_reads hreads
  have hbooks := h.next hcont hnotes [] [] (pending_not_outside hp) (by simp) (by simp) (by simp)
    (by simpa using h.once) ⟨Function.update owes none (some (s.conns c).inbox.length), ?_, fun _ => ?_,
      fun t ht => ?_⟩
  · simpa using hbooks
  · rw [hlen, List.append_nil]
    exact hbal.book none
  · refine ⟨_, Function.update_self .., hnew, fun _ _ hmem => ?_⟩
    -- what was executed was read before
    rw [List.append_nil] at hmem
    obtain ⟨⟨i, body⟩, hx, hi⟩ := List.mem_map.mp hmem
    have hlt := (h.processed i body hx).lt
    rw [show i = (s.conns c).inbox.length from hi] at hlt
    omega
  · rw [State.Works, htasks] at ht
    obtain ⟨i, hi⟩ := hworking t ht
    rw [htasks, List.append_nil]
    exact ⟨i, hi.continues hcont hnotes (Function.update_of_ne (by simp) ..)⟩

theorem Books.pays (h : Books setup c notes queued ran s) (hcont : Continues (s.conns c) (s'.conns c))
    (hnotes : notes <+: notes') {item : ServerOutbound} (hp : (s.conns c).phase.held = some item)
    (hp' : (s'.conns c).phase = .reading) (htasks : s'.tasks = s.tasks) :
    ∃ i, Books setup c notes' (queued ++ [(some i, item)]) ran s' := by
  obtain ⟨owes, hbal, hreader, hworking⟩ := h.debts
  obtain ⟨i, hi⟩ := hreader (pending_of_held hp)
  have hreply : (s'.conns c).EntryAt notes' i fun reading peer codec message =>
      Reply setup c peer codec reading message item :=
    (hi.entry.imp fun _ _ _ => reply_of_held hp).continues hcont hnotes
  have hbooks := h.next hcont hnotes [(some i, item)] []
    (by rw [hp']; exact Phase.not_outside (by simp) not_false) ?_ (by simp) (by simp)
    (by simpa using h.once) ⟨Function.update owes none none, ?_, fun hpending => ?_, fun t ht => ?_⟩
  · exact ⟨i, by simpa using hbooks⟩
  · intro j item' hmem
    cases List.mem_singleton.mp hmem
    exact hreply
  · rw [List.filterMap_append]
    exact (hbal.pay hi.owes).mono hcont.inbox.length_le
  · rw [hp'] at hpending
    exact hpending.elim
  · rw [State.Works, htasks] at ht
    obtain ⟨j, hj⟩ := hworking t ht
    rw [htasks, List.append_nil]
    exact ⟨j, hj.continues hcont hnotes (Function.update_of_ne (by simp) ..)⟩

theorem Books.spawns (h : Books setup c notes queued ran s) (hcont : Continues (s.conns c) (s'.conns c))
    (hnotes : notes <+: notes') {t : ℕ} {body : PacketBody} (hp : (s.conns c).phase = .acquiring body)
    (hp' : (s'.conns c).phase = .reading)
    (htasks : s'.tasks = Function.update s.tasks t ⟨c, body, .spawned⟩) :
    Books setup c notes' queued ran s' := by
  obtain ⟨owes, hbal, hreader, hworking⟩ := h.debts
  obtain ⟨i, hi⟩ := hreader (by rw [hp]; trivial)
  have hasks := hi.entry
  rw [hp] at hasks
  have hbooks := h.next hcont hnotes [] []
    (by rw [hp']; exact Phase.not_outside (by simp) not_false) (by simp) (by simp) (by simp)
    (by simpa using h.once)
    ⟨Function.update (Function.update owes none none) (some t) (some i), ?_, fun hpending => ?_,
      fun u hu => ?_⟩
  · simpa using hbooks
  · rw [List.append_nil]
    exact (hbal.pass hi.owes).mono hcont.inbox.length_le
  · rw [hp'] at hpending
    exact hpending.elim
  · rw [List.append_nil]
    by_cases hut : u = t
    · subst hut
      rw [htasks, Function.update_self]
      refine ⟨i, Function.update_self .., ?_, fun _ => hi.fresh body hp⟩
      exact (hasks.imp fun _ _ _ hask => ⟨hask, trivial⟩).continues hcont hnotes
    · rw [State.Works, htasks, Function.update_of_ne hut] at hu
      obtain ⟨j, hj⟩ := hworking u hu
      rw [htasks, Function.update_of_ne hut]
      refine ⟨j, hj.continues hcont hnotes ?_⟩
      rw [Function.update_of_ne (by simpa using hut), Function.update_of_ne (by simp)]

/-- A task goes on with its debt, perhaps after having run. -/
theorem Books.works (h : Books setup c notes queued ran s) (hcont : Continues (s.conns c) (s'.conns c))
    (hnotes : notes <+: notes') {t : ℕ} {pc : TaskPc} (hc : (s.tasks t).connectionId = c) (ht : (s.tasks t).pc.Running)
    (hp : (s'.conns c).phase = (s.conns c).phase)
    (htasks : s'.tasks = Function.update s.tasks t { s.tasks t with pc := pc }) (hpc : pc ≠ .spawned)
    (howes : ∀ reading codec message, Asks setup (s.tasks t).body codec message →
      TaskOwes setup c reading (s.conns c).peer codec message (s.tasks t).body (s.tasks t).pc →
      TaskOwes setup c reading (s.conns c).peer codec message (s.tasks t).body pc) :
    ∃ i, ∀ did, did = [] ∨ did = [(i, (s.tasks t).body)] ∧ (s.tasks t).pc = .spawned →
      Books setup c notes' queued (ran ++ did) s' := by
  obtain ⟨owes, hbal, hreader, hworking⟩ := h.debts
  obtain ⟨i, hi⟩ := hworking t ⟨ht, hc⟩
  refine ⟨i, fun did hdid => ?_⟩
  -- nobody else owes what the task runs for
  have hother : ∀ d j, d ≠ some t → owes d = some j → j ∉ ran.map Prod.fst →
      j ∉ (ran ++ did).map Prod.fst := by
    intro d j hd hj hran hmem
    rw [List.map_append, List.mem_append] at hmem
    rcases hmem with hmem | hmem
    · exact hran hmem
    · rcases hdid with rfl | ⟨rfl, -⟩
      · cases hmem
      · rw [List.mem_singleton.mp hmem] at hj
        exact hd (hbal.single d (some t) i hj hi.owes)
  have hout : ¬ (s'.conns c).phase.Outside := by
    intro hout
    rw [hp] at hout
    exact (h.outside hout).2.2 t ⟨ht, hc⟩
  have hbooks := h.next hcont hnotes [] did hout (by simp) (by simp) ?_ ?_ ⟨owes, ?_, fun hpending => ?_,
    fun u hu => ?_⟩
  · simpa using hbooks
  · intro j body hmem
    rcases hdid with rfl | ⟨rfl, -⟩
    · cases hmem
    · cases List.mem_singleton.mp hmem
      obtain ⟨reading, -, hentry⟩ := hi.entry
      exact (hentry.imp fun _ _ hask => hask.1).continues hcont
  · rcases hdid with rfl | ⟨rfl, hspawned⟩
    · simpa using h.once
    · rw [List.map_append]
      exact h.once.append (List.nodup_singleton _) (by simpa using hi.fresh hspawned)
  · rw [List.append_nil]
    exact hbal.mono hcont.inbox.length_le
  · obtain ⟨j, hj⟩ := hreader (hp ▸ hpending)
    refine ⟨j, hj.owes, ?_, fun body hbody => hother none j (by simp) hj.owes (hj.fresh body (hp ▸ hbody))⟩
    rw [hp]
    exact hj.entry.continues hcont hnotes
  · by_cases hut : u = t
    · subst hut
      rw [htasks, Function.update_self]
      refine ⟨i, hi.owes, ?_, fun hspawned => absurd hspawned hpc⟩
      refine Conn.EntryAt.continues (hi.entry.imp fun reading codec message hask => ?_) hcont hnotes
      exact ⟨hask.1, howes reading codec message hask.1 hask.2⟩
    · rw [State.Works, htasks, Function.update_of_ne hut] at hu
      obtain ⟨j, hj⟩ := hworking u hu
      rw [htasks, Function.update_of_ne hut]
      exact ⟨j, hj.owes, hj.entry.continues hcont hnotes, fun hspawned =>
        hother (some u) j (by simpa using hut) hj.owes (hj.fresh hspawned)⟩

theorem Books.answers (h : Books setup c notes queued ran s) (hcont : Continues (s.conns c) (s'.conns c))
    (hnotes : notes <+: notes') {t : ℕ} {item : ServerOutbound} (hc : (s.tasks t).connectionId = c)
    (ht : (s.tasks t).pc = .sending item) (hp : (s'.conns c).phase = (s.conns c).phase)
    (htasks : s'.tasks = Function.update s.tasks t { s.tasks t with pc := .finished }) :
    ∃ i, Books setup c notes' (queued ++ [(some i, item)]) ran s' := by
  have hworks : s.Works c t := ⟨by rw [ht]; trivial, hc⟩
  obtain ⟨owes, hbal, hreader, hworking⟩ := h.debts
  obtain ⟨i, hi⟩ := hworking t hworks
  have hreply : (s'.conns c).EntryAt notes' i fun reading peer codec message =>
      Reply setup c peer codec reading message item := by
    refine Conn.EntryAt.continues (hi.entry.imp fun reading codec message howes => ?_) hcont hnotes
    rw [ht] at howes
    exact howes.2
  have hout : ¬ (s'.conns c).phase.Outside := by
    intro hout
    rw [hp] at hout
    exact (h.outside hout).2.2 t hworks
  have hbooks := h.next hcont hnotes [(some i, item)] [] hout ?_ (by simp) (by simp) (by simpa using h.once)
    ⟨Function.update owes (some t) none, ?_, fun hpending => ?_, fun u hu => ?_⟩
  · exact ⟨i, by simpa using hbooks⟩
  · intro j item' hmem
    cases List.mem_singleton.mp hmem
    exact hreply
  · rw [List.filterMap_append]
    exact (hbal.pay hi.owes).mono hcont.inbox.length_le
  · obtain ⟨j, hj⟩ := hreader (hp ▸ hpending)
    have hnext := hj.continues hcont hnotes hp
    exact ⟨j, (Function.update_of_ne (by simp) ..).trans hj.owes, hnext.entry, by simpa using hnext.fresh⟩
  · have hut : u ≠ t := by
      rintro rfl
      rw [State.Works, htasks, Function.update_self] at hu
      exact hu.1
    rw [State.Works, htasks, Function.update_of_ne hut] at hu
    obtain ⟨j, hj⟩ := hworking u hu
    rw [htasks, Function.update_of_ne hut, List.append_nil]
    exact ⟨j, hj.continues hcont hnotes (Function.update_of_ne (by simpa using hut) ..)⟩

/-! ### Over whole runs -/

/-- What waits to be handed out is an event. -/
def PushItems (setup : Setup W) (s : State) : Prop :=
  ∀ k item, s.pushes k = some item → EventItem setup item

theorem PushItems.move (h : PushItems setup s) (hm : Move setup s a s') : PushItems setup s' := by
  cases hm with
  | aside _ hpushes =>
    intro k item hk
    rcases hpushes k item hk with hold | hnew
    · exact h k item hold
    · exact hnew.eventItem
  | _ => exact h

/-- One reading for each message in the inbox. -/
structure Noted (c : String) (notes : List Reading) (s : State) : Prop where
  length : notes.length = (s.conns c).inbox.length
  absent : (s.conns c).phase = .absent → (s.conns c).inbox = []

theorem noted_init (setup : Setup W) (c : String) : Noted c [] (State.init setup) :=
  ⟨rfl, fun _ => rfl⟩

theorem Noted.step (h : Noted c notes s) (hs : step setup a s = some s') :
    Noted c (notes ++ readBy c a s) s' := by
  rcases recorded_of_step hs c with ⟨hp, hinbox, -, -, hphase⟩ | ⟨hp, htrans⟩ | ⟨ha, hsame⟩
  · have hlength := h.length
    rw [h.absent hp] at hlength
    exact ⟨by simpa [readBy, hinbox] using hlength, fun _ => hinbox⟩
  · rename_i op
    refine ⟨?_, fun habsent => absurd habsent htrans.absent⟩
    rw [List.length_append, htrans.inbox, List.length_append, h.length]
    cases op with
    | received => simp [readBy]
    | _ => rfl
  · have hnone : readBy c a s = [] := by
      unfold readBy
      split
      · refine if_neg ?_
        rintro rfl
        exact ha _ rfl
      · rfl
    rw [hnone, List.append_nil]
    refine ⟨by rw [h.length, hsame.inbox], fun habsent => ?_⟩
    rw [hsame.inbox]
    exact h.absent (hsame.phase ▸ habsent)

theorem Books.step (h : Books setup c notes queued ran s) (hnoted : Noted c notes s)
    (hpushes : PushItems setup s) (hs : step setup a s = some s') :
    ∃ more did, more.map Prod.snd = appended c s s' a ∧ did.map Prod.snd = executed c s a ∧
      Books setup c (notes ++ readBy c a s) (queued ++ more) (ran ++ did) s' := by
  have hnotes : notes <+: notes ++ readBy c a s := List.prefix_append ..
  have hstep := accountStep_of_move (move_of_step hs) c
  generalize appended c s s' a = items at hstep ⊢
  cases hstep with
  | outside hold hp htasks hrun =>
    refine ⟨[], [], rfl, hrun.symm, ?_⟩
    simpa using h.ofOutside hold hp htasks
  | rests hcont hout hp htasks hitems hrun =>
    refine ⟨items.map (none, ·), [], by simp, hrun.symm, ?_⟩
    rw [List.append_nil]
    refine h.rests hcont hnotes hout hp htasks fun item hitem => ?_
    rcases hitems item hitem with hclose | hevent | ⟨k, hk⟩
    · exact .inl hclose
    · exact .inr hevent
    · exact .inr (hpushes k item hk)
  | reads hp hc hcont hinbox hreads hp' htasks =>
    refine ⟨[], [], rfl, rfl, ?_⟩
    simpa [readBy, taken, hp] using h.reads hcont hnoted.length hc hinbox hreads hp' htasks
  | @pays item hp hcont hp' htasks =>
    obtain ⟨i, hi⟩ := h.pays hcont hnotes hp hp' htasks
    exact ⟨[(some i, item)], [], rfl, rfl, by simpa using hi⟩
  | spawns hp hcont hp' htasks =>
    refine ⟨[], [], rfl, rfl, ?_⟩
    simpa using h.spawns hcont hnotes hp hp' htasks
  | @runs t w pc hc ht hcont hp htasks hpc =>
    have hrunning : (s.tasks t).pc.Running := by rw [ht]; trivial
    have hspawned : pc ≠ .spawned := by
      rcases hpc with rfl | ⟨packet, rfl, -⟩ <;> simp
    have howes : ∀ reading codec message, Asks setup (s.tasks t).body codec message →
        TaskOwes setup c reading (s.conns c).peer codec message (s.tasks t).body (s.tasks t).pc →
        TaskOwes setup c reading (s.conns c).peer codec message (s.tasks t).body pc := by
      intro reading codec message _ _
      rcases hpc with rfl | ⟨packet, rfl, hres⟩
      · trivial
      · rw [execTask, hc] at hres
        exact ⟨w, _, hres⟩
    obtain ⟨i, hi⟩ := h.works hcont hnotes hc hrunning hp htasks hspawned howes
    refine ⟨[], [(i, (s.tasks t).body)], rfl, (if_pos hc).symm, ?_⟩
    simpa using hi _ (.inr ⟨rfl, ht⟩)
  | @encodes t random packet item hc ht hcont hp htasks hitem =>
    have hrunning : (s.tasks t).pc.Running := by rw [ht]; trivial
    have howes : ∀ reading codec message, Asks setup (s.tasks t).body codec message →
        TaskOwes setup c reading (s.conns c).peer codec message (s.tasks t).body (s.tasks t).pc →
        TaskOwes setup c reading (s.conns c).peer codec message (s.tasks t).body (.sending item) := by
      intro reading codec message hask hold
      rw [ht] at hold
      exact .answered hask hold hitem
    obtain ⟨i, hi⟩ := h.works hcont hnotes hc hrunning hp htasks (by simp) howes
    exact ⟨[], [], rfl, rfl, by simpa using hi [] (.inl rfl)⟩
  | @answers t item hc ht hcont hp htasks =>
    obtain ⟨i, hi⟩ := h.answers hcont hnotes hc ht hp htasks
    exact ⟨[(some i, item)], [], rfl, rfl, by simpa using hi⟩

theorem books_run {actions : List (Action W)} (h : Machine.run (Wscall.Server.step setup) actions s = some s')
    (hpushes : PushItems setup s) (hnoted : Noted c notes s) (hs : Books setup c notes queued ran s) :
    ∃ more did, more.map Prod.snd = enqueued setup c actions s ∧
      did.map Prod.snd = executions setup c actions s ∧
      Books setup c (notes ++ readings setup c actions s) (queued ++ more) (ran ++ did) s' := by
  induction actions generalizing s notes queued ran with
  | nil =>
    cases h
    exact ⟨[], [], rfl, rfl, by simpa [readings, Machine.movesAlong] using hs⟩
  | cons a actions ih =>
    obtain ⟨s₁, h₁, h₂⟩ := Machine.run_cons_eq_some h
    obtain ⟨more, did, hmore, hdid, hbooks⟩ := hs.step hnoted hpushes h₁
    obtain ⟨more', did', hmore', hdid', hbooks'⟩ :=
      ih h₂ (hpushes.move (move_of_step h₁)) (hnoted.step h₁) hbooks
    refine ⟨more ++ more', did ++ did', ?_, ?_, ?_⟩
    · rw [enqueued, h₁, List.map_append, hmore, hmore']
    · rw [executions, h₁, List.map_append, hdid, hdid']
    · simpa only [readings, Machine.movesAlong, h₁, List.append_assoc] using hbooks'

/-- No message is answered twice. Everything that was ever queued for a connection is the answer to
one of the messages its reader took, each to another one, or an event or the close item. A refusal
for the limiter is the verdict of the limiter as the message found it. -/
theorem replies_once {actions : List (Action W)}
    (h : Machine.run (Wscall.Server.step setup) actions (State.init setup) = some s) (c : String) :
    ∃ queued : List (Option ℕ × ServerOutbound),
      queued.map Prod.snd = enqueued setup c actions (State.init setup) ∧
      (queued.filterMap Prod.fst).Nodup ∧
      (∀ i item, (some i, item) ∈ queued →
        (s.conns c).EntryAt (readings setup c actions (State.init setup)) i
          fun reading peer codec message => Reply setup c peer codec reading message item) ∧
      ∀ item, (none, item) ∈ queued → item = .close ∨ EventItem setup item := by
  obtain ⟨queued, ran, hqueued, -, hbooks⟩ := books_run h (by simp [PushItems, State.init])
    (noted_init setup c) (books_init setup c)
  obtain ⟨owes, hbal, -⟩ := hbooks.debts
  exact ⟨queued, hqueued, hbal.nodup, by simpa using hbooks.solicited, hbooks.unsolicited⟩

theorem replies_once_ping :
    ∃ s, Machine.run (step loginSetup) pingRun (State.init loginSetup) = some s ∧
      ∃ queued : List (Option ℕ × ServerOutbound), queued.length = 2 ∧
        queued.map Prod.snd = enqueued loginSetup "c" pingRun (State.init loginSetup) ∧
        (queued.filterMap Prod.fst).Nodup := by
  have hrun : (Machine.run (step loginSetup) pingRun (State.init loginSetup)).isSome = true := by
    decide +kernel
  have htwo : (enqueued loginSetup "c" pingRun (State.init loginSetup)).length = 2 := by
    decide +kernel
  obtain ⟨s, hs⟩ := Option.isSome_iff_exists.mp hrun
  obtain ⟨queued, hqueued, hnodup, -⟩ := replies_once hs "c"
  exact ⟨s, hs, queued, by rw [← htwo, ← hqueued, List.length_map], hqueued, hnodup⟩

/-- No request and no event is executed twice. -/
theorem executions_once {actions : List (Action W)}
    (h : Machine.run (Wscall.Server.step setup) actions (State.init setup) = some s) (c : String) :
    ∃ ran : List (ℕ × PacketBody),
      ran.map Prod.snd = executions setup c actions (State.init setup) ∧ (ran.map Prod.fst).Nodup ∧
      ∀ i body, (i, body) ∈ ran → (s.conns c).Entry i fun _ codec => Asks setup body codec := by
  obtain ⟨queued, ran, -, hran, hbooks⟩ := books_run h (by simp [PushItems, State.init])
    (noted_init setup c) (books_init setup c)
  exact ⟨ran, hran, hbooks.once, hbooks.processed⟩

theorem executions_once_echo :
    ∃ s, Machine.run (step loginSetup) (requestRun ++ [.task 0 (.run ())]) (State.init loginSetup) =
        some s ∧
      ∃ ran : List (ℕ × PacketBody), ran.length = 1 ∧
        ran.map Prod.snd = executions loginSetup "c" (requestRun ++ [.task 0 (.run ())])
          (State.init loginSetup) := by
  have hrun : (Machine.run (step loginSetup) (requestRun ++ [.task 0 (.run ())])
      (State.init loginSetup)).isSome = true := by decide +kernel
  have hone : (executions loginSetup "c" (requestRun ++ [.task 0 (.run ())])
      (State.init loginSetup)).length = 1 := by decide +kernel
  obtain ⟨s, hs⟩ := Option.isSome_iff_exists.mp hrun
  obtain ⟨ran, hran, -⟩ := executions_once hs "c"
  exact ⟨s, hs, ran, by rw [← hone, ← hran, List.length_map], hran⟩

end Steps

end Wscall.Server
