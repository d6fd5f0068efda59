import Wscall.Server.Steps

/-!
# What a connection has read and agreed on

Each step of a connection's task adds what it took from the stream to the inbox, and the two ends
of the key exchange are the only steps that give the connection its codec.
-/

namespace Wscall.Server
open RustStd Protocol

/-- The client's key has not been read. -/
def Phase.Unkeyed : Phase → Prop
  | .absent | .upgrading | .keyReading _ => True
  | _ => False

theorem Phase.Unkeyed.early {p : Phase} (h : p.Unkeyed) : p.Early := by
  cases p <;> trivial

section Transcript

variable {W : Type} (setup : Setup W)

/-- What a step of the connection's task does to its record. -/
structure Transcribes (old new : Conn) (op : ConnOp W) : Prop where
  inbox : new.inbox = old.inbox ++ taken op old.phase
  codec : new.codec = (agreedCodec setup op old.phase).or old.codec
  sent : new.sent = old.sent ++ handshakeSent setup op old.phase
  absent : new.phase ≠ .absent
  unkeyed : new.phase.Unkeyed → old.phase.Unkeyed ∧ ∀ message now random,
    op ≠ .received message now random
  key : ∀ secret clientPublic, new.phase = .keySending secret clientPublic →
    ∃ bytes now random, op = .received (some (.binary bytes)) now random ∧
      old.phase = .keyReading secret ∧ parsePeerPublic bytes = .ok clientPublic
  replying : ∀ result bytes, new.phase = .authReplying result bytes →
    old.phase = .authReplying result bytes ∨ ∃ codec random, old.codec = some codec ∧
      codec.encode setup.libs random (authResponse codec result) = .ok bytes

/-- The writer may have written, if there is one; nothing else was added. -/
structure Unread (old new : Conn) : Prop where
  inbox : new.inbox = old.inbox
  codec : new.codec = old.codec
  phase : new.phase = old.phase
  sent : ∃ more : List WireMessage, new.sent = old.sent ++ more ∧ ∀ m ∈ more, ¬ m.Handshake
  quiet : old.channel.writing = false → new.sent = old.sent

/-- What a step does to the record of one connection. -/
inductive Recorded (s s' : State) (c : String) : Action W → Prop
  | accepted {peer now} (hp : (s.conns c).phase = .absent) (hinbox : (s'.conns c).inbox = [])
      (hcodec : (s'.conns c).codec = none) (hsent : (s'.conns c).sent = [])
      (hphase : (s'.conns c).phase = .upgrading ∨ (s'.conns c).phase = .ended) :
      Recorded s s' c (.conn c (.accept peer now))
  | own {op} (hp : (s.conns c).phase ≠ .absent) (h : Transcribes setup (s.conns c) (s'.conns c) op) :
      Recorded s s' c (.conn c op)
  | other {a} (ha : ∀ op, a ≠ .conn c op) (h : Unread (s.conns c) (s'.conns c)) : Recorded s s' c a

end Transcript

section Steps

variable {W : Type} {setup : Setup W} {s s' : State} {c : String}

theorem Transcribes.enter {old : Conn} {op : ConnOp W} (h : Transcribes setup old (s.conns c) op) (w : W)
    (output : Option AuthOutput) :
    Transcribes setup old ((Wscall.Server.enter setup s c w output).conns c) op := by
  simp only [Wscall.Server.enter, State.setConn, Function.update_self]
  refine ⟨h.inbox, h.codec, h.sent, ?_, ?_, ?_, ?_⟩
  all_goals split <;> simp [Phase.Unkeyed]

theorem taken_of_handshake {op : ConnOp W} {p : Phase} (hp : p.Handshake) (hread : p ≠ .authReading) :
    taken op p = [] := by
  unfold taken
  split
  · exact absurd rfl hread
  · exact hp.elim
  · rfl

/-- The steps of the handshake. -/
theorem Shakes.transcribes {old new : Conn} {op : ConnOp W} (h : Shakes setup old op new) :
    Transcribes setup old new op := by
  cases h with
  | failed hp hread _ hcodec _ hsent =>
    refine ⟨by simp [taken_of_handshake hp hread], by simp [hcodec], by simp [hsent], ?_, ?_, ?_, ?_⟩
    all_goals simp [Phase.Unkeyed]
  | keyed hp hecdh =>
    refine ⟨by simp [taken], by simp [hp, agreedCodec, hecdh], by simp [handshakeSent], ?_, ?_, ?_, ?_⟩
    all_goals simp [Phase.Unkeyed, hp]
  | @offered bytes now random secret clientPublic hp hkey =>
    refine ⟨by simp [taken, hp], by simp [agreedCodec], by simp [handshakeSent], ?_, ?_,
      fun secret' clientPublic' heq => ?_, ?_⟩
    · simp
    · simp [Phase.Unkeyed]
    · cases heq
      exact ⟨bytes, now, random, rfl, hp, hkey⟩
    · simp
  | plain hp hecdh =>
    refine ⟨by simp [taken], by simp [hp, agreedCodec, hecdh], by simp [handshakeSent], ?_, ?_, ?_, ?_⟩
    all_goals simp [Phase.Unkeyed]
  | exchanged hp =>
    refine ⟨by simp [taken], by simp [hp, agreedCodec], by simp [hp, handshakeSent], ?_, ?_, ?_, ?_⟩
    all_goals simp [Phase.Unkeyed]
  | presented hp | unpresented hp =>
    refine ⟨by simp [taken, hp], by simp [agreedCodec], by simp [handshakeSent], ?_, ?_, ?_, ?_⟩
    all_goals simp [Phase.Unkeyed]
  | @asked w random credential outcome phase hp _ hphase =>
    refine ⟨by simp [taken], by simp [agreedCodec], by simp [handshakeSent], ?_, ?_, ?_,
      fun result bytes heq => ?_⟩
    · rcases hphase with rfl | ⟨_, _, rfl, -⟩ <;> simp
    · rcases hphase with rfl | ⟨_, _, rfl, -⟩ <;> simp [Phase.Unkeyed]
    · rcases hphase with rfl | ⟨_, _, rfl, -⟩ <;> simp
    · rcases hphase with rfl | ⟨_, _, rfl, -, codec, hc, henc⟩
      · cases heq
      · cases heq
        exact .inr ⟨codec, random, hc, henc⟩
  | accepted hp =>
    refine ⟨by simp [taken], by simp [hp, agreedCodec], by simp [hp, handshakeSent], ?_, ?_, ?_, ?_⟩
    · simp [hp]
    · simp [hp, Phase.Unkeyed]
    · simp [hp]
    · exact fun result bytes heq => .inl heq
  | rejected hp =>
    refine ⟨by simp [taken], by simp [hp, agreedCodec], by simp [hp, handshakeSent], ?_, ?_, ?_, ?_⟩
    all_goals simp [Phase.Unkeyed]

/-- After the handshake the inbox grows by what the reader takes, and nothing else. -/
theorem Transcribes.keep {conn : Conn} {op : ConnOp W} (hp : ¬ (s.conns c).phase.Handshake)
    (hinbox : conn.inbox = (s.conns c).inbox ++ taken op (s.conns c).phase)
    (hcodec : conn.codec = (s.conns c).codec) (hsent : conn.sent = (s.conns c).sent)
    (hearly : ¬ conn.phase.Early) (hshake : ¬ conn.phase.Handshake) :
    Transcribes setup (s.conns c) conn op := by
  have hnone : agreedCodec setup op (s.conns c).phase = none := by
    generalize (s.conns c).phase = p at hp
    unfold agreedCodec
    split
    · exact absurd trivial hp
    · exact absurd trivial hp
    · rfl
  have hsilent : handshakeSent setup op (s.conns c).phase = [] := by
    generalize (s.conns c).phase = p at hp
    unfold handshakeSent
    split
    · exact absurd trivial hp
    · exact absurd trivial hp
    · rfl
  refine ⟨hinbox, by rw [hcodec, hnone, Option.none_or], by rw [hsent, hsilent, List.append_nil],
    fun h => hearly (h ▸ trivial), fun h => absurd h.early hearly,
    fun secret key h => absurd (h ▸ trivial) hearly,
    fun result bytes h => absurd (h ▸ trivial) hshake⟩

theorem transcribes_of_move {op : ConnOp W} (hm : Move setup s (.conn c op) s')
    (hne : (s.conns c).phase ≠ .absent) : Transcribes setup (s.conns c) (s'.conns c) op := by
  have hlate : ∀ {p : Phase}, (s.conns c).phase = p → ¬ p.Handshake → ¬ (s.conns c).phase.Handshake :=
    fun hp hnot => hp ▸ hnot
  generalize ha : Action.conn c op = a at hm
  cases hm with
  | accepted habsent => cases ha; exact absurd habsent hne
  | shook h =>
    cases ha
    rw [State.setConn_self]
    exact h.transcribes
  | entered h =>
    cases ha
    refine Transcribes.enter ?_ _ _
    rw [State.setConn_self]
    exact h.transcribes
  | greeted hp =>
    cases ha
    refine .keep (hlate hp not_false) ?_ ?_ ?_ ?_ ?_ <;> simp [State.setConn, taken, Phase.Early, Phase.Handshake]
  | ungreeted hp =>
    cases ha
    refine .keep (hlate hp not_false) ?_ ?_ ?_ ?_ ?_ <;> simp [teardown, State.setConn, taken, Phase.Early, Phase.Handshake]
  | read hp hc hreads =>
    cases ha
    refine .keep (hlate hp not_false) ?_ ?_ ?_ ?_ ?_
    · simp [State.setConn, hp, taken]
    · simp [State.setConn]
    · simp [State.setConn]
    · simp only [State.setConn_self]
      cases hreads <;> exact not_false
    · simp only [State.setConn_self]
      cases hreads <;> exact not_false
  | hungUp hp =>
    cases ha
    refine .keep (hlate hp not_false) ?_ ?_ ?_ ?_ ?_ <;>
      simp [teardown, State.logged, State.setConn, hp, taken, Phase.Early, Phase.Handshake]
  | queued hp =>
    cases ha
    refine .keep (fun hshake => hshake.not_served (held_served hp)) ?_ ?_ ?_ ?_ ?_ <;>
      simp [State.setConn, taken, Phase.Early, Phase.Handshake]
  | unqueued hp =>
    cases ha
    refine .keep (hlate hp not_false) ?_ ?_ ?_ ?_ ?_ <;> simp [State.setPhase, State.setConn, taken, Phase.Early, Phase.Handshake]
  | unponged hp =>
    cases ha
    refine .keep (hlate hp not_false) ?_ ?_ ?_ ?_ ?_ <;> simp [teardown, State.setConn, taken, Phase.Early, Phase.Handshake]
  | acquired hp =>
    cases ha
    refine .keep (hlate hp not_false) ?_ ?_ ?_ ?_ ?_ <;> simp [State.setTask, State.setConn, taken, Phase.Early, Phase.Handshake]
  | graceOver hp =>
    cases ha
    refine .keep (hlate hp not_false) ?_ ?_ ?_ ?_ ?_ <;> simp [State.setConn, taken, Phase.Early, Phase.Handshake]
  | aside haside =>
    subst ha
    exact haside.elim
  | _ => cases ha

theorem Unread.of_sent {old new : Conn} (hinbox : new.inbox = old.inbox) (hcodec : new.codec = old.codec)
    (hphase : new.phase = old.phase) (hsent : new.sent = old.sent) : Unread old new :=
  ⟨hinbox, hcodec, hphase, ⟨[], by simp [hsent], by simp⟩, fun _ => hsent⟩

theorem Unread.refl (conn : Conn) : Unread conn conn := .of_sent rfl rfl rfl rfl

theorem Unread.setConn {s₁ : State} (hs : s₁.conns = s.conns) {d : String} {conn : Conn}
    (h : Unread (s.conns d) conn) : Unread (s.conns c) ((s₁.setConn d conn).conns c) := by
  by_cases hd : c = d
  · subst hd
    rwa [State.setConn_self]
  · rw [State.setConn_of_ne _ hd, hs]
    exact .refl _

theorem writeItem_not_handshake {libs : Libs} {codec : FrameCodec} {random : Except String Nonce}
    {item : ServerOutbound} {m : WireMessage} (h : m ∈ (writeItem libs codec random item).1) :
    ¬ m.Handshake := by
  unfold writeItem at h
  cases item with
  | packet p =>
    dsimp only at h
    split at h <;> cases h
    exact not_false
  | _ =>
    cases h
    exact not_false

theorem unread_of_move {a : Action W} (hm : Move setup s a s') (ha : ∀ op, a ≠ .conn c op) :
    Unread (s.conns c) (s'.conns c) := by
  have hne : ∀ {d op}, a = .conn d op → c ≠ d := by
    rintro d op rfl rfl
    exact ha op rfl
  cases hm with
  | accepted | shook | greeted | read | queued | acquired | graceOver =>
    rw [State.setConn_of_ne _ (hne rfl)]
    exact .refl _
  | unqueued =>
    rw [State.setPhase, State.setConn_of_ne _ (hne rfl)]
    exact .refl _
  | entered | ungreeted | hungUp | unponged =>
    have hd := hne rfl
    simp only [enter, teardown, State.logged, State.setConn, Function.update_of_ne hd]
    exact .refl _
  | ticked hw =>
    refine .setConn rfl ⟨rfl, rfl, rfl, ⟨[.ping], rfl, by simp [WireMessage.Handshake]⟩, fun hquiet => ?_⟩
    rw [hw] at hquiet
    cases hquiet
  | wrote hw _ _ hm =>
    refine .setConn rfl ⟨rfl, rfl, rfl, ⟨_, rfl, fun m hmem => ?_⟩, fun hquiet => ?_⟩
    · exact writeItem_not_handshake (by rw [hm]; exact Option.mem_toList.mp hmem)
    · rw [hw] at hquiet
      cases hquiet
  | stopped | delivered | finished => exact .setConn rfl (.of_sent rfl rfl rfl rfl)
  | ran | encoded | aside => exact .refl _
  | @answered t item ht halive hroom =>
    by_cases hc : c = (s.tasks t).connectionId
    · rw [hc]
      simp only [finishTask, State.setConn_self]
      exact .of_sent rfl rfl rfl rfl
    · simp only [finishTask, State.setTask, State.setConn, Function.update_of_ne hc]
      exact .refl _

theorem recorded_of_step {a : Action W} (hs : step setup a s = some s') (c : String) :
    Recorded setup s s' c a := by
  have hm := move_of_step hs
  by_cases ha : ∃ op, a = .conn c op
  · obtain ⟨op, rfl⟩ := ha
    by_cases hne : (s.conns c).phase = .absent
    · generalize ha : Action.conn c op = a at hm
      cases hm with
      | accepted hp hphase =>
        cases ha
        refine .accepted hp ?_ ?_ ?_ ?_
        all_goals simp only [State.setConn_self, Conn.new]
        exact hphase
      | shook h | entered h =>
        cases ha
        have hshake := h.handshake
        rw [hne] at hshake
        exact hshake.elim
      | queued hp =>
        cases ha
        rw [hne] at hp
        cases hp
      | greeted hp | ungreeted hp | read hp | hungUp hp | unqueued hp | unponged hp | acquired hp
      | graceOver hp =>
        cases ha
        rw [hne] at hp
        cases hp
      | aside haside =>
        subst ha
        exact haside.elim
      | _ => cases ha
    · exact .own hne (transcribes_of_move hm hne)
  · have ha : ∀ op, a ≠ .conn c op := fun op h => ha ⟨op, h⟩
    exact .other ha (unread_of_move hm ha)

end Steps

end Wscall.Server
