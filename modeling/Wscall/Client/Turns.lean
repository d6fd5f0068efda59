import Mathlib.Logic.Relation
import Wscall.Client.Orphans

/-!
# The turns of a client's tasks

Every step of `Traffic` is a few touches of the tables and the channels, except that an invocation
starts or a reader gets an answer. What follows about whole runs is proved touch by touch.
-/

namespace Wscall.Client.Traffic
open RustStd Protocol

def Config.ackPacket (cfg : Config) (eventId : UInt64) (receipt : Value) : PacketEnvelope :=
  .withEncryption (.eventAck eventId true receipt none) cfg.defaultEncryption

/-- The invocations, their table and the channels are the same. -/
structure Alike (s s' : State) : Prop where
  next : s'.next = s.next
  pending : s'.pending = s.pending
  calls : s'.calls = s.calls
  cells : s'.cells = s.cells
  events : s'.events = s.events
  queue : s'.queue = s.queue
  written : s'.written = s.written

inductive Touch (cfg : Config) (s : State) : State → Prop
  | alike {s'} (h : Alike s s') : Touch cfg s s'
  | trimmed {g items} (h : List.Sublist items (s.queue g)) : Touch cfg s (s.setQueue g items)
  | pushed {g item} (h : item.packet? = none) : Touch cfg s (s.setQueue g (s.queue g ++ [item]))
  | drained (reason : String) : Touch cfg s (s.drain reason)
  | wrote {g item rest packet frame random} (hq : s.queue g = item :: rest)
      (hpacket : item.packet? = some packet)
      (hframe : (cfg.sessionCodec g).encode cfg.libs random packet = .ok frame) :
      Touch cfg s { s.setQueue g rest with
        written := Function.update s.written g (s.written g ++ [(item, frame)]) }
  | sent {c id g packet} (hpc : s.calls c = .sending id g packet) :
      Touch cfg s ((s.setQueue g (s.queue g ++ [.request c packet])).setCall c (.waiting id))
  | dropped (k : Kind) (id : UInt64) : Touch cfg s (s.remove k id .closed)
  | failed (c : CallId) (e : ClientError) (he : ¬ Remote (.error e)) :
      Touch cfg s (s.setCall c (.returned (.error e)))
  | received {c r} (hcell : s.cells c = .full r) : Touch cfg s (s.setCall c (.returned r))
  | abandoned {c pc} (hpc : pc = .dropped ∨ pc = .cancelled) (hsends : (s.calls c).sends ≤ pc.sends) :
      Touch cfg s (s.setCall c pc)
  | handled {t pc} (hpc : ∀ received g packet, pc = .sending received g packet →
        ∃ eventId receipt, packet = cfg.ackPacket eventId receipt) : Touch cfg s (s.setEvent t pc)
  | acked {t received g packet} (hpc : s.events t = .sending received g packet) :
      Touch cfg s (s.setQueue g (s.queue g ++ [.ack received packet]))

abbrev Touches (cfg : Config) : State → State → Prop := Relation.ReflTransGen (Touch cfg)

def Action.Apart : Action → Prop
  | .call _ (.start _) | .reader _ (.packet _ _) => False
  | _ => True

/-- The state in which an invocation has drawn its id. -/
def State.draw (s : State) (k : Kind) : State :=
  { s.remove k (s.next k + 1) .closed with next := Function.update s.next k (s.next k + 1) }

inductive Turn (cfg : Config) (s : State) : Action → State → Prop
  | apart {a s'} (ha : a.Apart) (h : Touches cfg s s') : Turn cfg s a s'
  | refused {c request} (hcon : s.client.isConnected = false) :
      Turn cfg s (.call c (.start request)) (s.setCall c (.returned (.error .disconnected)))
  | unsent {c request} (hcon : s.client.isConnected = true) (hw : s.client.writer = none) :
      Turn cfg s (.call c (.start request)) ((s.draw c.kind).setCall c (.returned (.error .disconnected)))
  | started {c request g} (hcon : s.client.isConnected = true) (hw : s.client.writer = some g)
      (hidle : s.calls c = .idle) (hkind : request.kind = c.kind) :
      Turn cfg s (.call c (.start request)) (((s.draw c.kind).enter c (s.next c.kind + 1)).setCall c
        (.sending (s.next c.kind + 1) g
          (.withEncryption (request.body (s.next c.kind + 1)) cfg.defaultEncryption)))
  | answered {g body t k id r} (h : answer body = some (k, id, r)) :
      Turn cfg s (.reader g (.packet body t)) (s.remove k id (.full r))
  | told {g body t s'} (hbody : answer body = none) (h : Touches cfg s s') :
      Turn cfg s (.reader g (.packet body t)) s'

section Inversion

variable {cfg : Config} {s s' : State} {g : ℕ}

theorem touches_of_call {c : CallId} {op : CallOp} (hop : ∀ request, op ≠ .start request)
    (h : stepCall cfg s c op (s.calls c) = some s') : Touches cfg s s' := by
  generalize hpc : s.calls c = pc at h
  unfold stepCall at h
  split at h
  · exact absurd rfl (hop _)
  · obtain ⟨s₁, hsend, h⟩ := Option.map_eq_some_iff.mp h
    rw [← h, State.send_eq_some hsend]
    exact .single (.sent hpc)
  · split at h <;> cases h
    exact .tail (.single (.dropped ..)) (.failed _ _ not_false)
  · split at h <;> cases h
    · exact .single (.received ‹_›)
    · exact .single (.failed _ _ not_false)
  · split at h <;> cases h
    exact .tail (.single (.dropped ..)) (.failed _ _ not_false)
  · cases h
    exact .single (.abandoned (.inl rfl) (by simp [hpc, Pc.sends]))
  · cases h
    exact .single (.abandoned (.inr rfl) (by simp [hpc, Pc.sends]))
  · cases h

theorem turn_of_start {c : CallId} {request : Request}
    (h : stepCall cfg s c (.start request) (s.calls c) = some s') :
    Turn cfg s (.call c (.start request)) s' := by
  generalize hpc : s.calls c = pc at h
  cases pc with
  | idle =>
    simp only [stepCall] at h
    split_ifs at h with hready hcon
    · have hclient := State.remove_client (s := s) c.kind (s.next c.kind + 1) .closed
      cases hw : s.client.writer with
      | some g =>
        rw [show (s.remove c.kind (s.next c.kind + 1) .closed).client.writer = some g by
          rw [hclient, hw]] at h
        cases h
        exact .started hcon hw hpc hready.2
      | none =>
        rw [show (s.remove c.kind (s.next c.kind + 1) .closed).client.writer = none by
          rw [hclient, hw]] at h
        cases h
        exact .unsent hcon hw
    · cases h
      exact .refused (by simpa using hcon)
  | _ => cases h

theorem touches_of_writer {op : WriterOp} (h : Writes cfg s g op s') : Touches cfg s s' := by
  have hpop : ∀ {item rest}, s.queue g = item :: rest → Touch cfg s (s.setQueue g rest) := by
    intro item rest hq
    refine .trimmed ?_
    rw [hq]
    exact List.sublist_cons_self ..
  cases h with
  | written hq hpacket hframe =>
    exact .tail (.single (.wrote hq hpacket hframe)) (.alike ⟨rfl, rfl, rfl, rfl, rfl, rfl, rfl⟩)
  | refused hq hpacket hframe => exact .single (hpop hq)
  | control pc hq hpacket =>
    exact .tail (.single (hpop hq)) (.alike ⟨rfl, rfl, rfl, rfl, rfl, rfl, rfl⟩)
  | flushed => exact .single (.alike ⟨rfl, rfl, rfl, rfl, rfl, rfl, rfl⟩)

theorem touches_of_send {item : Item} (h : s.send g item = some s') (hitem : item.packet? = none) :
    Touches cfg s s' := by
  rw [State.send_eq_some h]
  exact .single (.pushed hitem)

theorem turn_of_reader {op : ReaderOp} (h : stepReader s g op = some s') :
    Turn cfg s (.reader g op) s' := by
  unfold stepReader at h
  split at h
  · split at h
    · cases h
      exact .answered ‹_›
    · rename_i hnone
      split at h <;> cases h
      · exact .told hnone (.single (.handled (by simp)))
      · exact .told hnone .refl
  · exact .apart trivial (touches_of_send h rfl)

theorem touches_of_event {t : ℕ} {op : EventOp} (h : stepEvent cfg s t op (s.events t) = some s') :
    Touches cfg s s' := by
  generalize hpc : s.events t = pc at h
  unfold stepEvent at h
  split at h
  · split at h <;> cases h
    · refine .single (.handled fun received g packet heq => ?_)
      cases heq
      exact ⟨_, _, rfl⟩
    · exact .single (.handled (by simp))
  · obtain ⟨s₁, hsend, h⟩ := Option.map_eq_some_iff.mp h
    rw [← h, State.send_eq_some hsend]
    exact .tail (.single (.acked hpc)) (.handled (by simp))
  · split at h <;> cases h
    exact .single (.handled (by simp))
  · cases h

theorem touches_afterLifecycle (s : State) (a : Lifecycle.Action) :
    Touches cfg s (afterLifecycle s a) := by
  rcases afterLifecycle_cases s a with heq | ⟨g, -, heq⟩
  · rw [heq]
  · rw [heq]
    exact .single (.trimmed (List.nil_sublist _))

theorem touches_of_lifecycle {a : Lifecycle.Action} {reason : String}
    (h : stepLifecycle cfg s a reason = some s') : Touches cfg s s' := by
  obtain ⟨client, -, h⟩ := Option.bind_eq_some_iff.mp h
  obtain ⟨s₁, hs₁, h⟩ := Option.bind_eq_some_iff.mp h
  cases h
  have h₁ : Touches cfg s s₁ := by
    rcases beforeLifecycle_cases hs₁ with ⟨closers, rfl⟩ | ⟨g, hsend⟩
    · exact .single (.alike ⟨rfl, rfl, rfl, rfl, rfl, rfl, rfl⟩)
    · exact touches_of_send hsend rfl
  refine .trans (h₁.trans ?_) (touches_afterLifecycle _ a)
  split
  · exact .tail (.single (.drained reason)) (.alike ⟨rfl, rfl, rfl, rfl, rfl, rfl, rfl⟩)
  · exact .single (.alike ⟨rfl, rfl, rfl, rfl, rfl, rfl, rfl⟩)

theorem turn_of_step {a : Action} (h : step cfg a s = some s') : Turn cfg s a s' := by
  cases a with
  | lifecycle a reason => exact .apart trivial (touches_of_lifecycle h)
  | call c op =>
    cases op with
    | start request => exact turn_of_start h
    | _ => exact .apart trivial (touches_of_call (by simp) h)
  | writer g op =>
    rw [step] at h
    split_ifs at h
    exact .apart trivial (touches_of_writer (stepWriter_writes h))
  | heartbeat g =>
    rw [step] at h
    split_ifs at h
    exact .apart trivial (touches_of_send h rfl)
  | reader g op =>
    rw [step] at h
    split_ifs at h
    exact turn_of_reader h
  | event t op => exact .apart trivial (touches_of_event h)
  | connectedPanics =>
    rw [step] at h
    split at h
    · split at h <;> cases h
      exact .apart trivial (.tail (.single (.trimmed (List.nil_sublist _)))
        (.alike ⟨rfl, rfl, rfl, rfl, rfl, rfl, rfl⟩))
    · cases h
  | disconnectedPanics g k =>
    rw [step] at h
    split_ifs at h
    cases h
    refine .apart trivial (.trans ?_ (touches_afterLifecycle ..))
    exact .single (.alike ⟨rfl, rfl, rfl, rfl, rfl, rfl, rfl⟩)

end Inversion

end Wscall.Client.Traffic
