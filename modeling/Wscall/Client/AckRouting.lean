import Wscall.Client.Traffic

/-!
# Acknowledgements and their connection

The task of an event sends through the channel that is stored when its handlers are through
(`client_runtime.rs:770-779`), not through the one of the reader that got the event.
-/

namespace Wscall.Client.Traffic
open RustStd Protocol

/-- An ack that is queued or written is on the connection its event came from. -/
def AcksAtHome (s : State) : Prop :=
  ∀ g received packet, .ack received packet ∈ s.outbound g → received = g

/-- When the handlers of an event that wants an ack are through, its connection is the live
one, or none is. -/
def HandledInTime (s : State) : Action → Prop
  | .event t (.handled (some _)) => ∀ received eventId,
    s.events t = .handling received eventId true →
      s.client.isConnected = true → s.client.attempts = received
  | _ => True

/-- Nothing happens to the events, and no ack is queued. -/
structure Away (s s' : State) : Prop where
  client : s'.client = s.client
  events : s'.events = s.events
  acks : ∀ g received packet, .ack received packet ∈ s'.outbound g → .ack received packet ∈ s.outbound g

namespace Away

variable {s s' s'' : State} {g : ℕ}

theorem of_outbound (hclient : s'.client = s.client) (hevents : s'.events = s.events)
    (hout : s'.outbound = s.outbound) : Away s s' :=
  ⟨hclient, hevents, fun _ _ _ h => by rwa [hout] at h⟩

theorem trans (h : Away s s') (h' : Away s' s'') : Away s s'' :=
  ⟨h'.client.trans h.client, h'.events.trans h.events, fun g r p hp => h.acks g r p (h'.acks g r p hp)⟩

theorem send {item : Item} (hitem : ∀ received packet, item ≠ .ack received packet)
    (h : s.send g item = some s') : Away s s' := by
  rw [State.send_eq_some h]
  refine ⟨rfl, rfl, fun g' received packet hmem => ?_⟩
  have hmem := (State.perm_push g g' item).mem_iff.mp hmem
  rcases List.mem_append.mp hmem with hmem | hmem
  · exact hmem
  · split at hmem
    · exact absurd (List.mem_singleton.mp hmem).symm (hitem received packet)
    · cases hmem

theorem setQueue {items : List Item} (h : items ⊆ s.queue g) : Away s (s.setQueue g items) := by
  refine ⟨rfl, rfl, fun g' received packet hmem => ?_⟩
  by_cases hg : g' = g
  · subst hg
    rw [State.outbound_setQueue_self] at hmem
    rcases List.mem_append.mp hmem with hmem | hmem
    · exact List.mem_append_left _ (h hmem)
    · exact List.mem_append_right _ hmem
  · rwa [State.outbound_setQueue_ne hg] at hmem

theorem remove (k : Kind) (id : UInt64) (cell : Cell) : Away s (s.remove k id cell) :=
  of_outbound (by simp) (by simp) (by simp)

theorem call {cfg : Config} {c : CallId} {op : CallOp} {pc : Pc}
    (h : stepCall cfg s c op pc = some s') : Away s s' := by
  have hset : ∀ {s : State} {pc}, Away s (s.setCall c pc) := of_outbound rfl rfl rfl
  unfold stepCall at h
  split at h
  · split_ifs at h
    · dsimp only at h
      split at h <;> cases h
      all_goals exact (remove ..).trans (of_outbound rfl rfl rfl)
    · cases h
      exact hset
  · obtain ⟨s₁, hsend, h⟩ := Option.map_eq_some_iff.mp h
    rw [← h]
    exact (send (by simp) hsend).trans hset
  · split at h <;> cases h
    exact (remove ..).trans hset
  · split at h <;> cases h <;> exact hset
  · split at h <;> cases h
    exact (remove ..).trans hset
  · cases h
    exact hset
  · cases h
    exact hset
  · cases h

theorem writer {cfg : Config} {op : WriterOp} (h : Writes cfg s g op s') : Away s s' := by
  have hpop : ∀ {item rest}, s.queue g = item :: rest → Away s (s.setQueue g rest) := by
    intro item rest hq
    refine setQueue ?_
    rw [hq]
    exact List.subset_cons_self ..
  cases h with
  | written hq hpacket hframe =>
    exact ⟨rfl, rfl, fun g' _ _ hmem => (State.perm_write hq _ g').mem_iff.mp hmem⟩
  | refused hq hpacket hframe => exact hpop hq
  | control pc hq hpacket => exact (hpop hq).trans (of_outbound rfl rfl rfl)
  | flushed => exact of_outbound rfl rfl rfl

theorem beforeLifecycle {a : Lifecycle.Action} (h : Traffic.beforeLifecycle s a = some s') :
    Away s s' := by
  rcases beforeLifecycle_cases h with ⟨closers, rfl⟩ | ⟨g, hsend⟩
  · exact of_outbound rfl rfl rfl
  · exact send (by simp) hsend

theorem afterLifecycle (a : Lifecycle.Action) : Away s (Traffic.afterLifecycle s a) := by
  rcases afterLifecycle_cases s a with heq | ⟨g, -, heq⟩
  · rw [heq]
    exact of_outbound rfl rfl rfl
  · rw [heq]
    exact setQueue (List.nil_subset _)

end Away

structure Homed (s : State) : Prop where
  core : Lifecycle.Core s.client
  sending : ∀ t received g packet, s.events t = .sending received g packet → received = g
  acks : AcksAtHome s

namespace Homed

variable {s s' : State} {g t : ℕ}

theorem away (hs : Homed s) (h : Away s s') : Homed s' := by
  refine ⟨h.client ▸ hs.core, ?_, fun g received packet hmem => hs.acks g received packet (h.acks _ _ _ hmem)⟩
  rw [h.events]
  exact hs.sending

theorem setClient (hs : Homed s) {client : Lifecycle.State} (hcore : Lifecycle.Core client) :
    Homed { s with client := client } :=
  ⟨hcore, hs.sending, hs.acks⟩

theorem setEvent (hs : Homed s) {pc : EventPc}
    (hpc : ∀ received g packet, pc = .sending received g packet → received = g) :
    Homed (s.setEvent t pc) := by
  refine ⟨hs.core, fun t' received g packet h => ?_, hs.acks⟩
  by_cases ht : t' = t
  · subst ht
    simp only [State.setEvent, Function.update_self] at h
    exact hpc received g packet h
  · simp only [State.setEvent, Function.update_of_ne ht] at h
    exact hs.sending t' received g packet h

theorem lifecycle (hs : Homed s) {cfg : Config} {a : Lifecycle.Action} {reason : String}
    (h : stepLifecycle cfg s a reason = some s') : Homed s' := by
  obtain ⟨client, hclient, h⟩ := Option.bind_eq_some_iff.mp h
  obtain ⟨s₁, hs₁, h⟩ := Option.bind_eq_some_iff.mp h
  cases h
  have h₁ := hs.away (.beforeLifecycle hs₁)
  have hcore := hs.core.step hclient
  refine Homed.away ?_ (.afterLifecycle a)
  split
  · have hdrain : Away s₁ (s₁.drain reason) := .of_outbound rfl rfl rfl
    exact (h₁.away hdrain).setClient hcore
  · exact h₁.setClient hcore

theorem reader (hs : Homed s) {op : ReaderOp} (h : stepReader s g op = some s') : Homed s' := by
  unfold stepReader at h
  split at h
  · split at h
    · cases h
      exact hs.away (.remove ..)
    · split at h <;> cases h
      · exact hs.setEvent (by simp)
      · exact hs
  · exact hs.away (.send (by simp) h)

theorem pushAck (hs : Homed s) {packet : PacketEnvelope} (h : s.send g (.ack g packet) = some s') :
    Homed s' := by
  rw [State.send_eq_some h]
  refine ⟨hs.core, hs.sending, fun g' received p hmem => ?_⟩
  have hmem := (State.perm_push g g' _).mem_iff.mp hmem
  rcases List.mem_append.mp hmem with hmem | hmem
  · exact hs.acks g' received p hmem
  · split at hmem
    · rename_i hg
      cases List.mem_singleton.mp hmem
      exact hg.symm
    · cases hmem

theorem event (hs : Homed s) {cfg : Config} {op : EventOp} (hp : HandledInTime s (.event t op))
    (h : stepEvent cfg s t op (s.events t) = some s') : Homed s' := by
  generalize hpc : s.events t = pc at h
  unfold stepEvent at h
  split at h
  · rename_i received eventId expectAck
    split at h <;> cases h
    · rename_i g hwriter
      refine hs.setEvent fun received' g' packet heq => ?_
      cases heq
      have hcore := hs.core.writer
      rw [hwriter] at hcore
      split at hcore
      · rename_i hcon
        cases hcore
        exact (hp received eventId hpc hcon).symm
      · cases hcore
    · exact hs.setEvent (by simp)
  · rename_i received g packet
    have hhome := hs.sending t received g packet hpc
    subst hhome
    obtain ⟨s₁, hsend, h⟩ := Option.map_eq_some_iff.mp h
    rw [← h]
    exact (hs.pushAck hsend).setEvent (by simp)
  · split at h <;> cases h
    exact hs.setEvent (by simp)
  · cases h

theorem step (hs : Homed s) {cfg : Config} {a : Action} (hp : HandledInTime s a)
    (h : Traffic.step cfg a s = some s') : Homed s' := by
  unfold Traffic.step at h
  split at h
  · exact hs.lifecycle h
  · exact hs.away (.call h)
  · split at h
    · exact hs.away (.writer (stepWriter_writes h))
    · cases h
  · split at h
    · exact hs.away (.send (by simp) h)
    · cases h
  · split at h
    · exact hs.reader h
    · cases h
  · exact hs.event hp h
  · split at h
    · split at h <;> cases h
      exact hs.away ((Away.setQueue (List.nil_subset _)).trans (.of_outbound rfl rfl rfl))
    · cases h
  · split at h <;> cases h
    rename_i g k hpc
    have hcore : Lifecycle.Core (s.client.setTask g k .done) :=
      hs.core.setTask (by simp [hpc]) (hs.core.notifying_off hpc)
    exact (hs.setClient hcore).away (.afterLifecycle _)

end Homed

theorem homed_init : Homed State.init := by
  refine ⟨Lifecycle.core_init, ?_, ?_⟩
  all_goals simp [State.init, AcksAtHome, State.outbound]

/-- Acks stay on their connection in the runs in which no handler outlives the connection of
its event into the next one. -/
theorem acks_at_home {cfg : Config} {acts : List Action} {s : State}
    (hall : Machine.Along (step cfg) HandledInTime acts State.init)
    (h : Machine.run (step cfg) acts State.init = some s) : AcksAtHome s :=
  (Machine.run_invariant_along (fun _ _ _ hp hs h => hs.step hp h) hall h homed_init).acks

/-- A client whose messages nobody encodes. -/
def idleClient : Config where
  lifecycle := Lifecycle.plainConfig
  libs := ⟨⟨127, fun _ => .error .serde, fun _ => .error .serde⟩,
    ⟨fun _ _ _ => none, fun _ _ _ => none⟩, ⟨fun _ _ _ => none, fun _ _ _ => none⟩⟩
  codec := FrameCodec.plaintext
  defaultEncryption := .none
  sessionKey _ := Vector.replicate 32 0

/-- The server of the first connection emits event 5 and asks for an ack. -/
def emitted : List Action :=
  dial ++ [.reader 1 (.packet (.eventEmit 5 "tick" .empty [] .emptyObject true) 0)]

def handled : Action := .event 0 (.handled (some .null))

def reconnected : List Action :=
  [.lifecycle (.task 1 .reader .stop) "reader loop stopped", .lifecycle (.task 1 .reader .signal) "",
    .lifecycle (.supervisor .wake) "", .lifecycle (.supervisor .slept) ""] ++ dial

def EventPc.received? : EventPc → Option ℕ
  | .handling received _ _ => some received
  | _ => none

def ackOn (g received : ℕ) (s : State) : Bool :=
  match s.queue g with
  | [.ack received' _] => received' == received
  | _ => false

theorem acks_at_home_first :
    ∃ s, Machine.run (step idleClient) (emitted ++ [handled] ++ [.event 0 .sent]) State.init = some s ∧
      ackOn 1 1 s ∧ AcksAtHome s := by
  have hrun : (Machine.run (step idleClient) (emitted ++ [handled] ++ [.event 0 .sent])
      State.init).any (ackOn 1 1) = true := by decide +kernel
  have hlive : (Machine.run (step idleClient) emitted State.init).all
      (fun s => (s.events 0).received? == some s.client.attempts) = true := by decide +kernel
  have hall : Machine.Along (step idleClient) HandledInTime
      (emitted ++ [handled] ++ [.event 0 .sent]) State.init := by
    refine (Machine.Along.append (Machine.along_of_forall (fun a ha s => ?_) _) (fun s hs => ?_)).append
      (fun s _ => Machine.along_singleton trivial)
    · simp only [emitted, dial, List.map_cons, List.map_nil, List.cons_append, List.nil_append,
        List.mem_cons, List.not_mem_nil, or_false] at ha
      rcases ha with rfl | rfl | rfl | rfl | rfl | rfl <;> trivial
    · rw [hs] at hlive
      refine Machine.along_singleton fun received eventId hpc _ => ?_
      simp only [Option.all_some, hpc, EventPc.received?, beq_iff_eq, Option.some.injEq] at hlive
      exact hlive.symm
  obtain ⟨s, hs, hack⟩ := (Option.any_eq_true ..).mp hrun
  exact ⟨s, hs, hack, acks_at_home hall hs⟩

/-- The first connection is lost while the handlers run, and the ack goes to the second. -/
theorem ack_on_next_connection :
    ∃ s, Machine.run (step idleClient) (emitted ++ reconnected ++ [handled, .event 0 .sent])
        State.init = some s ∧ ¬ AcksAtHome s := by
  have hrun : (Machine.run (step idleClient) (emitted ++ reconnected ++ [handled, .event 0 .sent])
      State.init).any (ackOn 2 1) = true := by decide +kernel
  obtain ⟨s, hs, hack⟩ := (Option.any_eq_true ..).mp hrun
  refine ⟨s, hs, fun hhome => ?_⟩
  unfold ackOn at hack
  split at hack
  · rename_i received packet hq
    have hmem : .ack received packet ∈ s.outbound 2 := List.mem_append_left _ (by simp [hq])
    have hsame := hhome 2 received packet hmem
    simp [hsame] at hack
  · cases hack

end Wscall.Client.Traffic
