import Wscall.Server.Progress
import Wscall.Server.Transcript

/-!
# What becomes of one message

The reader answers a message itself or has a task run for it, the answer is handed to the queue of
the connection, and the writer takes it from there. A `Course` follows one message through a run
of the server, whose steps do not look at it.
-/

namespace Wscall.Server
open RustStd Protocol

/-- Who has the message, or its answer. -/
inductive Holder where
  | reader
  | task (t : ℕ)
  /-- In the queue, behind so many items. -/
  | queue (ahead : ℕ)
  | gone
  deriving DecidableEq

/-- The reader and the handler have let go of it. -/
def Holder.Settled : Holder → Prop
  | .reader | .task _ => False
  | .queue _ | .gone => True

instance (h : Holder) : Decidable h.Settled := by
  cases h <;> unfold Holder.Settled <;> infer_instance

structure Course (W : Type) where
  holder : Holder
  /-- Where `process_packet` ran for it, and what its callbacks found. -/
  ran : Option (State × W)
  /-- Where `queue_for` looked the connection up and encoded the answer. -/
  looked : Option (State × Except String Nonce)
  /-- Where the item was handed to the channel. -/
  handed : Option State
  queued : List ServerOutbound
  /-- The writer's turn on the item, and whether the socket took it. -/
  taken : Option (Except String Nonce × Bool)
  written : List WireMessage
  /-- Where the reader had let go of the message. -/
  released : Option State

namespace Course

variable {W : Type}

/-- The message has been read in `s`, which led to `s'`. -/
def start (c : String) (s s' : State) (random : Except String Nonce) : Course W :=
  let read : Course W := ⟨.reader, none, none, none, [], none, [], none⟩
  match (s'.conns c).phase with
  | .acquiring _ => read
  | .queueing _ => { read with looked := some (s, random) }
  | _ => { read with holder := .gone, looked := some (s, random), released := some s' }

def hand (k : Course W) (c : String) (s : State) (items : List ServerOutbound) : Course W :=
  { k with
    handed := some s
    queued := k.queued ++ items
    holder := if (s.conns c).channel.alive then .queue (s.conns c).channel.queue.length else .gone }

def byReader (k : Course W) (c : String) (s s' : State) : ConnOp W → Course W
  | .queued => { k with released := some s' }.hand c s (appended c s s' (.conn c .queued : Action W))
  | .acquired t => { k with holder := .task t, released := some s' }
  | _ => k

/-- A task goes on unless it has finished. -/
def heldBy (t : ℕ) : TaskPc → Holder
  | .finished => .gone
  | _ => .task t

def byTask (k : Course W) (c : String) (t : ℕ) (s s' : State) : TaskOp W → Course W
  | .run w => { k with ran := some (s, w), holder := heldBy t (s'.tasks t).pc }
  | .queue random => { k with looked := some (s, random), holder := heldBy t (s'.tasks t).pc }
  | .send => k.hand c s (appended c s s' (.task t .send : Action W))

/-- The writer's turn on the queue, of which the item is the first or has one less before it. -/
def byWriter (k : Course W) (c : String) (s s' : State) (random : Except String Nonce) (ok : Bool) :
    ℕ → Course W
  | 0 => { k with
      holder := .gone
      taken := some (random, ok)
      written := (s'.conns c).sent.drop (s.conns c).sent.length }
  | n + 1 => { k with holder := if (s'.conns c).channel.alive then .queue n else .gone }

/-- The item is lost with the queue. -/
def unlessDead (k : Course W) (c : String) (s' : State) : Course W :=
  if (s'.conns c).channel.alive then k else { k with holder := .gone }

def inQueue (k : Course W) (c : String) (n : ℕ) (s s' : State) : Action W → Course W
  | .writer d (.next random ok) =>
    if d = c then k.byWriter c s s' random ok n else k.unlessDead c s'
  | _ => k.unlessDead c s'

/-- What a step makes of it. -/
def next (c : String) (a : Action W) (s s' : State) (k : Course W) : Course W :=
  match k.holder, a with
  | .reader, .conn d op => if d = c then k.byReader c s s' op else k
  | .task t, .task u op => if u = t then k.byTask c t s s' op else k
  | .queue n, a => k.inQueue c n s s' a
  | _, _ => k

end Course

/-- The server, with the course of one message of a connection. -/
def tracked {W : Type} (setup : Setup W) (c : String) :
    Action W → State × Course W → Option (State × Course W) :=
  Machine.noting (step setup) (Course.next c)

/-! ### Where a message can be -/

section Places

variable {W : Type} (setup : Setup W) (c : String)

/-- The packet encodes where `queue_for` does the encoding. -/
def Encodes (random : Except String Nonce) (packet : PacketEnvelope) : Prop :=
  setup.server.isEcdh = true ∨ ∃ bytes, setup.server.codec.encode setup.libs random packet = .ok bytes

/-- The connection was in the table and the packet encoded when it was to be queued, and the
channel was open when it was handed over. -/
def Course.Queues (packet : PacketEnvelope) (k : Course W) : Prop :=
  ∃ s random s₁, k.looked = some (s, random) ∧ k.handed = some s₁ ∧ (s.clients c).isSome = true ∧
    Encodes setup random packet ∧ (s₁.conns c).channel.alive = true

/-- Nothing has been handed to the channel. -/
structure Course.Fresh (k : Course W) : Prop where
  handed : k.handed = none
  queued : k.queued = []
  taken : k.taken = none
  written : k.written = []

/-- `queue_for` has made this item of the packet. -/
def Course.Looked (packet : PacketEnvelope) (item : ServerOutbound) (k : Course W) : Prop :=
  ∃ s random, k.looked = some (s, random) ∧ (s.clients c).isSome = true ∧
    setup.server.handle.outbound setup.libs random packet = .ok item

/-- What `queue_for` made of a packet. -/
inductive Course.Delivers (packet : PacketEnvelope) (k : Course W) : Prop
  | dropped {s random} (hlooked : k.looked = some (s, random))
      (hno : Unqueueable setup s c random packet) (hhanded : k.handed = none) (hqueued : k.queued = [])
  | unsent {item s₁} (hlooked : k.Looked setup c packet item) (hhanded : k.handed = some s₁)
      (hdead : (s₁.conns c).channel.alive = false) (hqueued : k.queued = [])
  | sent {item s₁} (hlooked : k.Looked setup c packet item) (hhanded : k.handed = some s₁)
      (halive : (s₁.conns c).channel.alive = true) (hqueued : k.queued = [item])

/-- The reader was back in its loop, with the connection in the table. -/
def Course.Back (k : Course W) : Prop :=
  ∃ s, k.released = some s ∧ (s.conns c).phase = .reading ∧ (s.clients c).isSome = true

/-- How it ended for a message of which the reader made this. -/
inductive Course.Ended (body : PacketBody) (k : Course W) : WscallServer.Intake → Prop
  | unwound (hran : k.ran = none) (hqueued : k.queued = []) : Ended body k .unwind
  | refused {packet} (hran : k.ran = none) (h : k.Delivers setup c packet) (hback : k.Back c) :
      Ended body k (.answer packet)
  | silent {s w} (hran : k.ran = some (s, w))
      (hres : ∀ packet, (execTask setup s ⟨c, body, .spawned⟩ w).result ≠ some (some packet))
      (hqueued : k.queued = []) : Ended body k .spawn
  | answered {s w packet} (hran : k.ran = some (s, w))
      (hres : (execTask setup s ⟨c, body, .spawned⟩ w).result = some (some packet))
      (h : k.Delivers setup c packet) : Ended body k .spawn

/-- Where the item is, once there is no holder but the queue. -/
inductive Course.Ships (s : State) (k : Course W) : Prop
  | queued {n item} (hh : k.holder = .queue n) (hq : k.queued = [item])
      (hpos : (s.conns c).channel.queue[n]? = some item) (halive : (s.conns c).channel.alive = true)
      (htaken : k.taken = none) (hwritten : k.written = [])
  | taken {item codec random ok} (hh : k.holder = .gone) (hq : k.queued = [item])
      (hc : (s.conns c).codec = some codec) (htaken : k.taken = some (random, ok))
      (hwritten : k.written =
        if ok then (writeItem setup.libs codec random item).1.toList else [])
  | lost (hh : k.holder = .gone) (htaken : k.taken = none) (hwritten : k.written = [])

/-- Where a message is of which the reader made this. -/
inductive Course.At (body : PacketBody) (s : State) (k : Course W) : WscallServer.Intake → Prop
  | refused {packet item} (hh : k.holder = .reader) (hp : (s.conns c).phase = .queueing item)
      (hran : k.ran = none) (hlooked : k.Looked setup c packet item) (hfresh : k.Fresh) :
      At body s k (.answer packet)
  | waiting (hh : k.holder = .reader) (hp : (s.conns c).phase = .acquiring body)
      (hran : k.ran = none) (hfresh : k.Fresh) : At body s k .spawn
  | spawned {t} (hh : k.holder = .task t) (ht : s.tasks t = ⟨c, body, .spawned⟩)
      (hran : k.ran = none) (hfresh : k.Fresh) : At body s k .spawn
  | answering {t packet s₀ w} (hh : k.holder = .task t) (ht : s.tasks t = ⟨c, body, .answering packet⟩)
      (hran : k.ran = some (s₀, w))
      (hres : (execTask setup s₀ ⟨c, body, .spawned⟩ w).result = some (some packet))
      (hfresh : k.Fresh) : At body s k .spawn
  | sending {t packet item s₀ w} (hh : k.holder = .task t) (ht : s.tasks t = ⟨c, body, .sending item⟩)
      (hran : k.ran = some (s₀, w))
      (hres : (execTask setup s₀ ⟨c, body, .spawned⟩ w).result = some (some packet))
      (hlooked : k.Looked setup c packet item) (hfresh : k.Fresh) : At body s k .spawn
  | ended {intake} (hend : k.Ended setup c body intake) (hship : k.Ships setup c s) :
      At body s k intake

end Places

/-! ### Single steps -/

section Steps

variable {W : Type} {setup : Setup W} {s s' : State} {a : Action W} {c : String} {body : PacketBody}
  {k : Course W} {intake : WscallServer.Intake}

theorem encodes_iff {random : Except String Nonce} {packet : PacketEnvelope} :
    Encodes setup random packet ↔
      ∃ item, setup.server.handle.outbound setup.libs random packet = .ok item := by
  unfold Encodes ServerHandle.outbound
  cases he : setup.server.isEcdh with
  | true => simp [WscallServer.handle, he]
  | false =>
    cases henc : setup.server.codec.encode setup.libs random packet <;>
      simp [WscallServer.handle, he, henc, bind, Except.bind, pure, Except.pure]

/-- Either nothing was queued or exactly the packet, and which one is said by `Queues`. -/
theorem Course.Delivers.queued_or {packet : PacketEnvelope} (h : k.Delivers setup c packet) :
    (k.queued = [] ∧ ¬ k.Queues setup c packet) ∨
      ∃ item random, k.queued = [item] ∧
        setup.server.handle.outbound setup.libs random packet = .ok item ∧
        k.Queues setup c packet := by
  cases h with
  | dropped hlooked hno hhanded hqueued =>
    refine .inl ⟨hqueued, ?_⟩
    rintro ⟨s, random, s₁, -, hhanded', -⟩
    rw [hhanded] at hhanded'
    cases hhanded'
  | unsent hlooked hhanded hdead hqueued =>
    refine .inl ⟨hqueued, ?_⟩
    rintro ⟨s, random, s₁, -, hhanded', -, -, halive⟩
    rw [hhanded] at hhanded'
    cases hhanded'
    rw [hdead] at halive
    cases halive
  | @sent item s₁ hlooked hhanded halive hqueued =>
    obtain ⟨s, random, hl, hin, hitem⟩ := hlooked
    exact .inr ⟨item, random, hqueued, hitem, s, random, s₁, hl, hhanded, hin,
      encodes_iff.mpr ⟨item, hitem⟩, halive⟩

theorem tasks_of_move (hm : Move setup s a s') {t : ℕ} (hpc : (s.tasks t).pc ≠ .absent)
    (ha : ∀ op, a ≠ .task t op) : s'.tasks t = s.tasks t := by
  cases hm with
  | @acquired d u body hp hu hroom =>
    refine Function.update_of_ne ?_ ..
    rintro rfl
    exact hpc hu
  | ran | encoded | answered | finished =>
    refine Function.update_of_ne ?_ ..
    rintro rfl
    exact ha _ rfl
  | _ => rfl

/-- The handshake and the greeting are over. -/
def Phase.Started (p : Phase) : Prop := ¬ p.Outside ∧ p ≠ .notifying

/-- That stays so, and the codec is kept from there on. -/
theorem started_of_move (hm : Move setup s a s') (h : (s.conns c).phase.Started) :
    (s'.conns c).phase.Started ∧ (s'.conns c).codec = (s.conns c).codec := by
  have hobs := observes_move hm c
  unfold Observes at hobs
  generalize appended c s s' a = items at hobs
  cases hobs with
  | fresh hold => exact absurd (.inl hold) h.1
  | kept hmove hcodec =>
    exact ⟨⟨fun hout => h.1 (hmove.outside hout), fun hn => h.2 (hmove.notifying hn).1⟩,
      hcodec.resolve_right h.1⟩
  | opened hold => exact absurd hold h.1
  | pushed hmove hcodec =>
    exact ⟨⟨fun hout => h.1 (hmove.outside hout), fun hn => h.2 (hmove.notifying hn).1⟩, hcodec⟩
  | dropped hphase hn hcodec =>
    exact ⟨⟨fun hout => h.1 (hphase hout), fun hnot => h.2 (hn hnot).1⟩, hcodec⟩
  | wrote hphase _ _ _ hcodec => exact ⟨hphase ▸ h, hcodec⟩

theorem queueing_of_step {op : ConnOp W} {item : ServerOutbound}
    (hp : (s.conns c).phase = .queueing item) (hs : step setup (.conn c op) s = some s') :
    op = .queued ∧ (s'.conns c).phase = .reading ∧ s'.clients = s.clients ∧
      ((s.conns c).channel.alive = true ∧ (s'.conns c).channel = (s.conns c).channel.push item ∨
        (s.conns c).channel.alive = false ∧ (s'.conns c).channel = (s.conns c).channel) := by
  simp only [step, hp] at hs
  cases op with
  | queued =>
    refine ⟨rfl, ?_⟩
    simp only [stepConn] at hs
    split at hs
    · split at hs <;> cases hs
      rw [State.setConn_self]
      exact ⟨rfl, rfl, .inl ⟨‹_›, rfl⟩⟩
    · rename_i hdead
      cases hs
      rw [State.setPhase, State.setConn_self]
      exact ⟨rfl, rfl, .inr ⟨Bool.eq_false_iff.mpr hdead, rfl⟩⟩
  | _ => cases hs

theorem acquiring_of_step {op : ConnOp W} (hp : (s.conns c).phase = .acquiring body)
    (hs : step setup (.conn c op) s = some s') :
    ∃ t, op = .acquired t ∧ (s.conns c).inFlight < setup.server.maxInFlight ∧
      s'.tasks t = ⟨c, body, .spawned⟩ := by
  simp only [step, hp] at hs
  cases op with
  | acquired t =>
    simp only [stepConn] at hs
    split at hs
    · split at hs <;> cases hs
      exact ⟨t, rfl, ‹_›, by simp [State.setConn, State.setTask]⟩
    · cases hs
  | _ => cases hs

theorem spawned_of_step {t : ℕ} {op : TaskOp W} (ht : s.tasks t = ⟨c, body, .spawned⟩)
    (hs : step setup (.task t op) s = some s') :
    ∃ w, op = .run w ∧
      ((∃ packet, (execTask setup s ⟨c, body, .spawned⟩ w).result = some (some packet) ∧
          s'.tasks t = ⟨c, body, .answering packet⟩) ∨
        (∀ packet, (execTask setup s ⟨c, body, .spawned⟩ w).result ≠ some (some packet)) ∧
          (s'.tasks t).pc = .finished) := by
  simp only [step, ht] at hs
  cases op with
  | run w =>
    refine ⟨w, rfl, ?_⟩
    simp only [stepTask] at hs
    split at hs <;> cases hs
    · exact .inl ⟨_, ‹_›, by simp [State.setTask]⟩
    · exact .inr ⟨‹_›, by simp [finishTask, State.setConn, State.setTask]⟩
  | _ => cases hs

theorem answering_of_step {t : ℕ} {op : TaskOp W} {packet : PacketEnvelope}
    (ht : s.tasks t = ⟨c, body, .answering packet⟩) (hs : step setup (.task t op) s = some s') :
    ∃ random, op = .queue random ∧
      ((∃ item, (s.clients c).isSome = true ∧
          setup.server.handle.outbound setup.libs random packet = .ok item ∧
          s'.tasks t = ⟨c, body, .sending item⟩) ∨
        Unqueueable setup s c random packet ∧ (s'.tasks t).pc = .finished) := by
  simp only [step, ht] at hs
  cases op with
  | queue random =>
    refine ⟨random, rfl, ?_⟩
    simp only [stepTask] at hs
    split at hs
    · rename_i hnone
      cases hs
      exact .inr ⟨.inl hnone, by simp [finishTask, State.setConn, State.setTask]⟩
    · rename_i entry hentry
      split at hs <;> cases hs
      · exact .inl ⟨_, by rw [hentry]; rfl, ‹_›, by simp [State.setTask]⟩
      · exact .inr ⟨.inr ⟨_, ‹_›⟩, by simp [finishTask, State.setConn, State.setTask]⟩
  | _ => cases hs

theorem sending_of_step {t : ℕ} {op : TaskOp W} {item : ServerOutbound}
    (ht : s.tasks t = ⟨c, body, .sending item⟩) (hs : step setup (.task t op) s = some s') :
    op = .send ∧
      ((s.conns c).channel.alive = true ∧
          (s'.conns c).channel = (s.conns c).channel.push item ∨
        (s.conns c).channel.alive = false ∧ (s'.conns c).channel = (s.conns c).channel) := by
  simp only [step, ht] at hs
  cases op with
  | send =>
    refine ⟨rfl, ?_⟩
    simp only [stepTask] at hs
    split at hs
    · split at hs <;> cases hs
      exact .inl ⟨‹_›, by simp [finishTask, State.setConn, State.setTask]⟩
    · rename_i hdead
      cases hs
      exact .inr ⟨Bool.eq_false_iff.mpr hdead, by simp [finishTask, State.setConn, State.setTask]⟩
  | _ => cases hs

/-! The queue, but for the writer's turns on it. -/

/-- What was in the queue stays where it is, or the queue is gone. -/
def Grows (old new : Channel) : Prop :=
  new.alive = false ∨ new.alive = old.alive ∧ old.queue <+: new.queue

theorem Grows.refl (channel : Channel) : Grows channel channel := .inr ⟨rfl, List.prefix_rfl⟩

theorem Grows.push (channel : Channel) (item : ServerOutbound) : Grows channel (channel.push item) :=
  .inr ⟨rfl, List.prefix_append ..⟩

theorem Grows.setConn {d : String} {conn : Conn} {s₁ : State} (hs : s₁.conns = s.conns)
    (h : c = d → Grows (s.conns c).channel conn.channel) :
    Grows (s.conns c).channel ((s₁.setConn d conn).conns c).channel := by
  by_cases hcd : c = d
  · have hnew := h hcd
    rwa [hcd, State.setConn_self, ← hcd]
  · rw [State.setConn_of_ne _ hcd, hs]
    exact .refl _

theorem Grows.teardown {d : String} {s₁ : State} (hne : c ≠ d → s₁.conns c = s.conns c)
    (hq : c = d → (s₁.conns c).channel.alive = (s.conns c).channel.alive ∧
      (s₁.conns c).channel.queue = (s.conns c).channel.queue) :
    Grows (s.conns c).channel ((Wscall.Server.teardown s₁ d).conns c).channel := by
  by_cases hcd : c = d
  · subst hcd
    obtain ⟨halive, hqueue⟩ := hq rfl
    simp only [Wscall.Server.teardown, State.setConn_self]
    rcases trySend_close (s₁.conns c).channel with hnone | ⟨-, -, hsome⟩
    · rw [hnone]
      exact .inr ⟨halive, hqueue ▸ List.prefix_rfl⟩
    · rw [hsome]
      exact .inr ⟨halive, hqueue ▸ List.prefix_append ..⟩
  · simp only [Wscall.Server.teardown, State.setConn_of_ne _ hcd, hne hcd]
    exact .refl _

theorem grows_of_move (hm : Move setup s a s') (hout : ¬ (s.conns c).phase.Outside)
    (ha : ∀ random ok, a ≠ .writer c (.next random ok)) :
    Grows (s.conns c).channel (s'.conns c).channel := by
  cases hm with
  | accepted hp => exact .setConn rfl fun h => absurd (.inl (h ▸ hp)) hout
  | shook h => exact .setConn rfl fun hcd => absurd (.inr (hcd ▸ h.handshake)) hout
  | @entered d op conn w output h =>
    have hcd : c ≠ d := fun hcd => hout (.inr (hcd ▸ h.handshake))
    simp only [enter, State.setConn_of_ne _ hcd]
    exact .refl _
  | greeted => exact .setConn rfl fun h => h ▸ .push ..
  | ungreeted =>
    refine .teardown (fun h => State.setConn_of_ne _ h _) ?_
    rintro rfl
    simp only [State.setConn_self, and_self]
  | hungUp =>
    refine .teardown (fun h => State.setConn_of_ne _ h _) ?_
    rintro rfl
    simp only [State.logged, State.setConn_self, and_self]
  | unponged => exact .teardown (fun _ => rfl) fun _ => ⟨rfl, rfl⟩
  | queued | delivered => exact .setConn rfl fun h => h ▸ .push ..
  | read | unqueued | acquired | ticked | finished => exact .setConn rfl fun h => h ▸ .refl _
  | graceOver | stopped => exact .setConn rfl fun _ => .inl rfl
  | wrote => exact .setConn rfl fun h => absurd (by rw [h]) (ha _ true)
  | ran | encoded | aside => exact .refl _
  | @answered t item ht halive hroom =>
    simp only [finishTask, State.setTask]
    by_cases hc : c = (s.tasks t).connectionId
    · rw [hc]
      simp only [State.setConn_self]
      exact .push ..
    · simp only [State.setConn_of_ne _ hc]
      exact .refl _

theorem next_of_step {random : Except String Nonce} {ok : Bool}
    (hs : step setup (.writer c (.next random ok)) s = some s') :
    ∃ item rest codec, (s.conns c).channel.queue = item :: rest ∧ (s.conns c).codec = some codec ∧
      (s'.conns c).sent = (s.conns c).sent ++
        (if ok then (writeItem setup.libs codec random item).1.toList else []) ∧
      (s'.conns c).channel =
        if ok && (writeItem setup.libs codec random item).2 then { (s.conns c).channel with queue := rest }
        else ⟨[], false, false⟩ := by
  simp only [step, stepWriter] at hs
  split at hs
  · split at hs
    · rename_i item rest codec hq hc
      refine ⟨item, rest, codec, hq, hc, ?_⟩
      cases ok <;> cases hs <;> simp
    · cases hs
  · cases hs

end Steps

/-! ### The course of a message -/

section Course

variable {W : Type} {setup : Setup W} {s s' : State} {a : Action W} {c : String} {body : PacketBody}
  {k : Course W} {intake : WscallServer.Intake}

theorem Course.next_of_reader (hh : k.holder = .reader) (ha : ∀ op, a ≠ .conn c op) :
    k.next c a s s' = k := by
  unfold Course.next
  rw [hh]
  cases a with
  | conn d op => exact if_neg (by rintro rfl; exact ha op rfl)
  | _ => rfl

theorem Course.next_of_task {t : ℕ} (hh : k.holder = .task t) (ha : ∀ op, a ≠ .task t op) :
    k.next c a s s' = k := by
  unfold Course.next
  rw [hh]
  cases a with
  | task u op => exact if_neg (by rintro rfl; exact ha op rfl)
  | _ => rfl

theorem Course.next_of_gone (hh : k.holder = .gone) : k.next c a s s' = k := by
  unfold Course.next
  rw [hh]

/-- An item that finds the channel open is at the end of the queue. -/
theorem Course.hand_sent (hfresh : k.Fresh) {packet : PacketEnvelope} {item : ServerOutbound}
    (hlooked : k.Looked setup c packet item) (halive : (s.conns c).channel.alive = true)
    (hq : (s'.conns c).channel = (s.conns c).channel.push item) :
    (k.hand c s [item]).Delivers setup c packet ∧ (k.hand c s [item]).Ships setup c s' := by
  have hqueued : (k.hand c s [item]).queued = [item] := by simp [Course.hand, hfresh.queued]
  refine ⟨.sent hlooked rfl halive hqueued, .queued (if_pos halive) hqueued ?_ ?_ hfresh.taken
    hfresh.written⟩
  · simp [hq, Channel.push]
  · rw [hq]
    exact halive

theorem Course.hand_unsent (hfresh : k.Fresh) {packet : PacketEnvelope} {item : ServerOutbound}
    (hlooked : k.Looked setup c packet item) (hdead : (s.conns c).channel.alive = false) :
    (k.hand c s []).Delivers setup c packet ∧ (k.hand c s []).Ships setup c s' := by
  refine ⟨.unsent hlooked rfl hdead ?_, .lost (if_neg ?_) hfresh.taken hfresh.written⟩
  · simp [Course.hand, hfresh.queued]
  · rw [hdead]
    simp

/-- The reader hands over an answer of its own. -/
theorem Course.At.step_refused {packet : PacketEnvelope} {item : ServerOutbound}
    (hh : k.holder = .reader) (hp : (s.conns c).phase = .queueing item) (hran : k.ran = none)
    (hlooked : k.Looked setup c packet item) (hfresh : k.Fresh) (hlisted : Listed s)
    (hs : step setup a s = some s') : (k.next c a s s').At setup c body s' (.answer packet) := by
  by_cases ha : ∃ op, a = .conn c op
  · obtain ⟨op, rfl⟩ := ha
    obtain ⟨rfl, hp', hclients, hcase⟩ := queueing_of_step hp hs
    have hin : (s'.clients c).isSome = true := by
      rw [hclients]
      exact hlisted c (hp ▸ trivial)
    have hnext : k.next c (.conn c .queued) s s' = { k with released := some s' }.hand c s
        (appended c s s' (.conn c .queued : Action W)) := by
      simp only [Course.next, hh, if_true, Course.byReader]
    have hfresh' : { k with released := some s' }.Fresh :=
      ⟨hfresh.handed, hfresh.queued, hfresh.taken, hfresh.written⟩
    rw [hnext]
    rcases hcase with ⟨halive, hq⟩ | ⟨hdead, hq⟩
    · have hitems : (s'.conns c).channel.queue = (s.conns c).channel.queue ++ [item] := by
        rw [hq]
        rfl
      rw [appended_eq (by simp) hitems]
      obtain ⟨hsent, hship⟩ := Course.hand_sent hfresh' hlooked halive hq
      exact .ended (.refused hran hsent ⟨s', rfl, hp', hin⟩) hship
    · rw [appended_nil (by rw [hq])]
      obtain ⟨hunsent, hship⟩ := Course.hand_unsent hfresh' hlooked hdead
      exact .ended (.refused hran hunsent ⟨s', rfl, hp', hin⟩) hship
  · have ha : ∀ op, a ≠ .conn c op := fun op h => ha ⟨op, h⟩
    rw [Course.next_of_reader hh ha]
    exact .refused hh ((unread_of_move (move_of_step hs) ha).phase.trans hp) hran hlooked hfresh

/-- The reader gets its permit and spawns the task. -/
theorem Course.At.step_waiting (hh : k.holder = .reader) (hp : (s.conns c).phase = .acquiring body)
    (hran : k.ran = none) (hfresh : k.Fresh) (hs : step setup a s = some s') :
    (k.next c a s s').At setup c body s' .spawn := by
  by_cases ha : ∃ op, a = .conn c op
  · obtain ⟨op, rfl⟩ := ha
    obtain ⟨t, rfl, -, ht⟩ := acquiring_of_step hp hs
    have hnext : k.next c (.conn c (.acquired t)) s s' =
        { k with holder := .task t, released := some s' } := by
      simp only [Course.next, hh, if_true, Course.byReader]
    rw [hnext]
    exact .spawned rfl ht hran ⟨hfresh.handed, hfresh.queued, hfresh.taken, hfresh.written⟩
  · have ha : ∀ op, a ≠ .conn c op := fun op h => ha ⟨op, h⟩
    rw [Course.next_of_reader hh ha]
    exact .waiting hh ((unread_of_move (move_of_step hs) ha).phase.trans hp) hran hfresh

/-- The task runs `process_packet`. -/
theorem Course.At.step_spawned {t : ℕ} (hh : k.holder = .task t)
    (ht : s.tasks t = ⟨c, body, .spawned⟩) (hran : k.ran = none) (hfresh : k.Fresh)
    (hs : step setup a s = some s') : (k.next c a s s').At setup c body s' .spawn := by
  by_cases ha : ∃ op, a = .task t op
  · obtain ⟨op, rfl⟩ := ha
    obtain ⟨w, rfl, hcase⟩ := spawned_of_step ht hs
    have hnext : k.next c (.task t (.run w)) s s' =
        { k with ran := some (s, w), holder := Course.heldBy t (s'.tasks t).pc } := by
      simp only [Course.next, hh, if_true, Course.byTask]
    rw [hnext]
    rcases hcase with ⟨packet, hres, ht'⟩ | ⟨hres, hpc⟩
    · exact .answering (by simp only [ht', Course.heldBy]) ht' rfl hres
        ⟨hfresh.handed, hfresh.queued, hfresh.taken, hfresh.written⟩
    · exact .ended (.silent rfl hres hfresh.queued)
        (.lost (by simp only [hpc, Course.heldBy]) hfresh.taken hfresh.written)
  · have ha : ∀ op, a ≠ .task t op := fun op h => ha ⟨op, h⟩
    rw [Course.next_of_task hh ha]
    exact .spawned hh ((tasks_of_move (move_of_step hs) (by rw [ht]; simp) ha).trans ht) hran hfresh

/-- The task calls `queue_for`. -/
theorem Course.At.step_answering {t : ℕ} {packet : PacketEnvelope} {s₀ : State} {w : W}
    (hh : k.holder = .task t) (ht : s.tasks t = ⟨c, body, .answering packet⟩)
    (hran : k.ran = some (s₀, w))
    (hres : (execTask setup s₀ ⟨c, body, .spawned⟩ w).result = some (some packet)) (hfresh : k.Fresh)
    (hs : step setup a s = some s') : (k.next c a s s').At setup c body s' .spawn := by
  by_cases ha : ∃ op, a = .task t op
  · obtain ⟨op, rfl⟩ := ha
    obtain ⟨random, rfl, hcase⟩ := answering_of_step ht hs
    have hnext : k.next c (.task t (.queue random)) s s' =
        { k with looked := some (s, random), holder := Course.heldBy t (s'.tasks t).pc } := by
      simp only [Course.next, hh, if_true, Course.byTask]
    rw [hnext]
    rcases hcase with ⟨item, hin, hitem, ht'⟩ | ⟨hno, hpc⟩
    · exact .sending (by simp only [ht', Course.heldBy]) ht' hran hres ⟨s, random, rfl, hin, hitem⟩
        ⟨hfresh.handed, hfresh.queued, hfresh.taken, hfresh.written⟩
    · exact .ended (.answered hran hres (.dropped rfl hno hfresh.handed hfresh.queued))
        (.lost (by simp only [hpc, Course.heldBy]) hfresh.taken hfresh.written)
  · have ha : ∀ op, a ≠ .task t op := fun op h => ha ⟨op, h⟩
    rw [Course.next_of_task hh ha]
    exact .answering hh ((tasks_of_move (move_of_step hs) (by rw [ht]; simp) ha).trans ht) hran hres
      hfresh

/-- The task hands its answer over. -/
theorem Course.At.step_sending {t : ℕ} {packet : PacketEnvelope} {item : ServerOutbound} {s₀ : State}
    {w : W} (hh : k.holder = .task t) (ht : s.tasks t = ⟨c, body, .sending item⟩)
    (hran : k.ran = some (s₀, w))
    (hres : (execTask setup s₀ ⟨c, body, .spawned⟩ w).result = some (some packet))
    (hlooked : k.Looked setup c packet item) (hfresh : k.Fresh) (hs : step setup a s = some s') :
    (k.next c a s s').At setup c body s' .spawn := by
  by_cases ha : ∃ op, a = .task t op
  · obtain ⟨op, rfl⟩ := ha
    obtain ⟨rfl, hcase⟩ := sending_of_step ht hs
    have hnext : k.next c (.task t .send) s s' =
        k.hand c s (appended c s s' (.task t .send : Action W)) := by
      simp only [Course.next, hh, if_true, Course.byTask]
    rw [hnext]
    rcases hcase with ⟨halive, hq⟩ | ⟨hdead, hq⟩
    · have hitems : (s'.conns c).channel.queue = (s.conns c).channel.queue ++ [item] := by
        rw [hq]
        rfl
      rw [appended_eq (by simp) hitems]
      obtain ⟨hsent, hship⟩ := Course.hand_sent hfresh hlooked halive hq
      exact .ended (.answered hran hres hsent) hship
    · rw [appended_nil (by rw [hq])]
      obtain ⟨hunsent, hship⟩ := Course.hand_unsent hfresh hlooked hdead
      exact .ended (.answered hran hres hunsent) hship
  · have ha : ∀ op, a ≠ .task t op := fun op h => ha ⟨op, h⟩
    rw [Course.next_of_task hh ha]
    exact .sending hh ((tasks_of_move (move_of_step hs) (by rw [ht]; simp) ha).trans ht) hran hres
      hlooked hfresh

/-- What the writer does to a course. -/
structure Course.Shipping (old new : Course W) : Prop where
  ran : new.ran = old.ran
  looked : new.looked = old.looked
  handed : new.handed = old.handed
  queued : new.queued = old.queued
  released : new.released = old.released

theorem Course.Delivers.shipping {packet : PacketEnvelope} {k' : Course W}
    (h : k.Delivers setup c packet) (hk : Course.Shipping k k') : k'.Delivers setup c packet := by
  have hlook : ∀ {item}, k.Looked setup c packet item → k'.Looked setup c packet item := by
    rintro item ⟨s, random, hl, hrest⟩
    exact ⟨s, random, hk.looked.trans hl, hrest⟩
  cases h with
  | dropped hlooked hno hhanded hqueued =>
    exact .dropped (hk.looked.trans hlooked) hno (hk.handed.trans hhanded) (hk.queued.trans hqueued)
  | unsent hlooked hhanded hdead hqueued =>
    exact .unsent (hlook hlooked) (hk.handed.trans hhanded) hdead (hk.queued.trans hqueued)
  | sent hlooked hhanded halive hqueued =>
    exact .sent (hlook hlooked) (hk.handed.trans hhanded) halive (hk.queued.trans hqueued)

theorem Course.Ended.shipping {k' : Course W} (h : k.Ended setup c body intake)
    (hk : Course.Shipping k k') : k'.Ended setup c body intake := by
  cases h with
  | unwound hran hqueued => exact .unwound (hk.ran.trans hran) (hk.queued.trans hqueued)
  | refused hran h hback =>
    obtain ⟨s, hrel, hrest⟩ := hback
    exact .refused (hk.ran.trans hran) (h.shipping hk) ⟨s, hk.released.trans hrel, hrest⟩
  | silent hran hres hqueued => exact .silent (hk.ran.trans hran) hres (hk.queued.trans hqueued)
  | answered hran hres h => exact .answered (hk.ran.trans hran) hres (h.shipping hk)

theorem Course.unlessDead_shipping : Course.Shipping k (k.unlessDead c s') := by
  unfold Course.unlessDead
  split <;> exact ⟨rfl, rfl, rfl, rfl, rfl⟩

theorem Course.next_shipping (hh : k.holder.Settled) : Course.Shipping k (k.next c a s s') := by
  unfold Course.next
  generalize k.holder = holder at hh
  split
  · exact hh.elim
  · exact hh.elim
  · unfold Course.inQueue
    split
    · split
      · unfold Course.byWriter
        split <;> exact ⟨rfl, rfl, rfl, rfl, rfl⟩
      · exact Course.unlessDead_shipping
    · exact Course.unlessDead_shipping
  · exact ⟨rfl, rfl, rfl, rfl, rfl⟩

theorem Course.Ships.settled (h : k.Ships setup c s) : k.holder.Settled := by
  cases h with
  | queued hh | taken hh | lost hh =>
    rw [hh]
    trivial

theorem Course.next_of_queue {n : ℕ} (hh : k.holder = .queue n)
    (ha : ∀ random ok, a ≠ .writer c (.next random ok)) : k.next c a s s' = k.unlessDead c s' := by
  unfold Course.next
  rw [hh]
  unfold Course.inQueue
  dsimp only
  split
  · rename_i d random ok
    refine if_neg ?_
    rintro rfl
    exact ha random ok rfl
  · rfl

/-- The item moves up with each turn of the writer. -/
theorem Course.Ships.step_writer {n : ℕ} {item : ServerOutbound} (hh : k.holder = .queue n)
    (hq : k.queued = [item]) (hpos : (s.conns c).channel.queue[n]? = some item)
    (halive : (s.conns c).channel.alive = true) (htaken : k.taken = none) (hwritten : k.written = [])
    {random : Except String Nonce} {ok : Bool} (hstarted : (s.conns c).phase.Started)
    (hs : step setup (.writer c (.next random ok)) s = some s') :
    (k.next c (.writer c (.next random ok)) s s').Ships setup c s' := by
  obtain ⟨first, rest, codec, hqueue, hc, hsent, hch⟩ := next_of_step hs
  have hnext : k.next c (.writer c (.next random ok)) s s' = k.byWriter c s s' random ok n := by
    simp only [Course.next, hh, Course.inQueue, if_true]
  rw [hnext]
  rw [hqueue] at hpos
  cases n with
  | zero =>
    cases hpos
    refine .taken rfl hq ((started_of_move (move_of_step hs) hstarted).2.trans hc) rfl ?_
    simp only [Course.byWriter, hsent, List.drop_left]
  | succ n =>
    rw [List.getElem?_cons_succ] at hpos
    by_cases hon : (ok && (writeItem setup.libs codec random first).2) = true
    · rw [if_pos hon] at hch
      refine .queued (if_pos (by rw [hch]; exact halive)) hq ?_ ?_ htaken hwritten <;> rw [hch]
      · exact hpos
      · exact halive
    · rw [if_neg hon] at hch
      refine .lost (if_neg ?_) htaken hwritten
      rw [hch]
      simp

theorem Course.Ships.step (h : k.Ships setup c s) (hstarted : (s.conns c).phase.Started)
    (hs : Wscall.Server.step setup a s = some s') : (k.next c a s s').Ships setup c s' := by
  cases h with
  | taken hh hq hc htaken hwritten =>
    rw [Course.next_of_gone hh]
    exact .taken hh hq ((started_of_move (move_of_step hs) hstarted).2.trans hc) htaken hwritten
  | lost hh htaken hwritten =>
    rw [Course.next_of_gone hh]
    exact .lost hh htaken hwritten
  | @queued n item hh hq hpos halive htaken hwritten =>
    by_cases ha : ∃ random ok, a = .writer c (.next random ok)
    · obtain ⟨random, ok, rfl⟩ := ha
      exact step_writer hh hq hpos halive htaken hwritten hstarted hs
    · have ha : ∀ random ok, a ≠ .writer c (.next random ok) :=
        fun random ok h => ha ⟨random, ok, h⟩
      rw [Course.next_of_queue hh ha, Course.unlessDead]
      rcases grows_of_move (move_of_step hs) hstarted.1 ha with hdead | ⟨hsame, hgrow⟩
      · rw [hdead, if_neg (by simp)]
        exact .lost rfl htaken hwritten
      · rw [hsame, if_pos halive]
        exact .queued hh hq (getElem?_of_isPrefix hgrow hpos) (hsame.trans halive) htaken hwritten

theorem Course.At.step (h : k.At setup c body s intake) (hstarted : (s.conns c).phase.Started)
    (hlisted : Listed s) (hs : Wscall.Server.step setup a s = some s') :
    (k.next c a s s').At setup c body s' intake := by
  cases h with
  | refused hh hp hran hlooked hfresh => exact step_refused hh hp hran hlooked hfresh hlisted hs
  | waiting hh hp hran hfresh => exact step_waiting hh hp hran hfresh hs
  | spawned hh ht hran hfresh => exact step_spawned hh ht hran hfresh hs
  | answering hh ht hran hres hfresh => exact step_answering hh ht hran hres hfresh hs
  | sending hh ht hran hres hlooked hfresh => exact step_sending hh ht hran hres hlooked hfresh hs
  | ended hend hship =>
    exact .ended (hend.shipping (Course.next_shipping hship.settled)) (hship.step hstarted hs)

end Course

end Wscall.Server
