import Wscall.Client.Traffic
import Wscall.Protocol.RoundTrip

/-!
# Requests that wait for an answer

A request whose entry is in the table is in the channel of the live connection or has gone
to its socket, as long as the writer can encode it.
-/

namespace Wscall.Client.Traffic
open RustStd Protocol

/-- What the answer to a packet is matched by. -/
def request? : PacketBody → Option (Kind × UInt64)
  | .apiRequest id .. => some (.api, id)
  | .eventEmit id .. => some (.event, id)
  | _ => none

theorem request?_body (r : Request) (id : UInt64) : request? (r.body id) = some (r.kind, id) := by
  cases r <;> rfl

namespace Item

def asks (e : Entry) : Item → Prop
  | .request c packet => c = e.owner ∧ request? packet.body = some (e.kind, e.id)
  | _ => False

def isRequest (c : CallId) : Item → Bool
  | .request c' _ => c' = c
  | _ => false

instance (e : Entry) (item : Item) : Decidable (item.asks e) :=
  match item with
  | .request c packet =>
    inferInstanceAs (Decidable (c = e.owner ∧ request? packet.body = some (e.kind, e.id)))
  | .ack .. | .ping | .pong _ | .close => .isFalse id

theorem asks.isRequest {e : Entry} {item : Item} (h : item.asks e) : item.isRequest e.owner := by
  cases item with
  | request c packet => simp [Item.isRequest, h.1]
  | _ => exact h.elim

end Item

namespace State

def requests (s : State) (g : ℕ) (c : CallId) : ℕ := (s.outbound g).countP (·.isRequest c)

variable {s : State}

theorem requests_push (g g' : ℕ) (item : Item) (c : CallId) :
    (s.setQueue g (s.queue g ++ [item])).requests g' c =
      s.requests g' c + if g' = g ∧ item.isRequest c then 1 else 0 := by
  rw [requests, (perm_push g g' item).countP_eq, List.countP_append, ← requests]
  by_cases hg : g' = g <;> simp [hg, List.countP_singleton]

theorem requests_eq (g : ℕ) (c : CallId) : s.requests g c =
    (s.queue g).countP (·.isRequest c) + ((s.written g).map Prod.fst).countP (·.isRequest c) :=
  List.countP_append

theorem requests_setQueue_lt {g : ℕ} {items : List Item} {c : CallId}
    (h : items.countP (·.isRequest c) < (s.queue g).countP (·.isRequest c)) :
    (s.setQueue g items).requests g c < s.requests g c := by
  rw [requests, outbound_setQueue_self, List.countP_append, requests_eq]
  omega

theorem requests_setQueue_le {g : ℕ} {items : List Item} (h : items.Sublist (s.queue g)) (g' : ℕ)
    (c : CallId) : (s.setQueue g items).requests g' c ≤ s.requests g' c := by
  by_cases hg : g' = g
  · subst hg
    rw [requests, outbound_setQueue_self]
    exact (h.append_right _).countP_le
  · rw [requests, outbound_setQueue_ne hg]
    exact le_rfl

theorem requests_pos {g : ℕ} {e : Entry} {item : Item} (hitem : item ∈ s.outbound g)
    (hasks : item.asks e) : 0 < s.requests g e.owner :=
  List.countP_pos_iff.mpr ⟨item, hitem, hasks.isRequest⟩

theorem mem_pop {g g' : ℕ} {item other : Item} {rest : List Item} (hq : s.queue g = item :: rest)
    (h : other ∈ s.outbound g') : other ∈ (s.setQueue g rest).outbound g' ∨ g' = g ∧ other = item := by
  by_cases hg : g' = g
  · subst hg
    rw [outbound_setQueue_self]
    rw [outbound, hq, List.cons_append, List.mem_cons] at h
    exact h.symm.imp_right fun heq => ⟨rfl, heq⟩
  · rw [outbound_setQueue_ne hg]
    exact .inl h

section Remove

variable (k : Kind) (id : UInt64) (cell : Cell)

theorem remove_cells (c : CallId) : (s.remove k id cell).cells c = s.cells c ∨
    ∃ e ∈ s.pending, (e.kind = k ∧ e.id = id) ∧ e.owner = c := by
  unfold remove
  split
  · exact .inl rfl
  · rename_i e hfind
    by_cases hc : c = e.owner
    · have hkey := List.find?_some hfind
      exact .inr ⟨e, List.mem_of_find?_eq_some hfind, by simpa using hkey, hc.symm⟩
    · exact .inl (Function.update_of_ne hc ..)

variable {k id cell}

theorem mem_remove {e : Entry} (h : e ∈ (s.remove k id cell).pending) :
    e ∈ s.pending ∧ ¬ (e.kind = k ∧ e.id = id) := by
  unfold remove at h
  split at h
  · rename_i hnone
    exact ⟨h, by simpa using List.find?_eq_none.mp hnone e h⟩
  · simpa [imp_iff_not_or] using h

end Remove

end State

/-- No entry whose call has queued its packet is without that packet: it is in the channel of
the current generation or went to its socket. -/
def NoOrphans (s : State) : Prop :=
  ∀ e ∈ s.pending, (s.calls e.owner).Queued →
    ∃ item ∈ s.outbound s.client.attempts, item.asks e

instance (pc : Pc) : Decidable pc.Queued :=
  match pc with
  | .waiting _ | .cancelled => .isTrue trivial
  | .idle | .sending .. | .dropped | .returned _ => .isFalse id

instance (s : State) : Decidable (NoOrphans s) := by unfold NoOrphans; infer_instance

/-- The writer can encode the request it takes, if somebody waits for the answer; no
`on_connected` handler panics in its call while such a request is queued. -/
def Sendable (cfg : Config) (s : State) : Action → Prop
  | .writer g (.receive random) =>
    g = s.client.attempts → ∀ e ∈ s.pending, ∀ packet rest,
      s.queue g = .request e.owner packet :: rest →
        ∃ frame, (cfg.sessionCodec g).encode cfg.libs random packet = .ok frame
  | .connectedPanics =>
    ∀ e ∈ s.pending, ∀ packet, .request e.owner packet ∉ s.queue s.client.attempts
  | _ => True

namespace Pc

def sends : Pc → ℕ
  | .waiting _ | .cancelled | .returned _ => 1
  | _ => 0

def Holds (e : Entry) (g : ℕ) (cell : Cell) : Pc → Prop
  | .sending id g' packet =>
    (e.id = id ∧ cell = .empty) ∧ g' = g ∧ request? packet.body = some (e.kind, id)
  | .waiting id => e.id = id ∧ cell = .empty
  | .dropped | .cancelled => True
  | .idle | .returned _ => False

theorem Queued.sends {pc : Pc} (h : pc.Queued) : pc.sends = 1 := by
  cases pc <;> first | rfl | exact h.elim

end Pc

structure Tracked (s : State) : Prop where
  core : Lifecycle.Core s.client
  connected : ∀ e ∈ s.pending, s.client.isConnected = true
  kind : ∀ e ∈ s.pending, e.kind = e.owner.kind
  holds : ∀ e ∈ s.pending, (s.calls e.owner).Holds e s.client.attempts (s.cells e.owner)
  sent : ∀ g c, s.requests g c ≤ (s.calls c).sends
  kept : NoOrphans s

theorem tracked_init : Tracked State.init := by
  refine ⟨Lifecycle.core_init, ?_, ?_, ?_, ?_, ?_⟩
  all_goals simp [State.init, NoOrphans, State.requests, State.outbound]

namespace Tracked

variable {s s' : State} {g : ℕ} {c : CallId} {pc : Pc}

theorem of_outbound (hs : Tracked s) (hclient : s'.client = s.client) (hpending : s'.pending = s.pending)
    (hcalls : s'.calls = s.calls) (hcells : s'.cells = s.cells)
    (hless : ∀ g c, s'.requests g c ≤ s.requests g c)
    (hkeep : ∀ e ∈ s.pending, (s.calls e.owner).Queued →
      ∀ item ∈ s.outbound s.client.attempts, item.asks e → item ∈ s'.outbound s.client.attempts) :
    Tracked s' := by
  refine ⟨hclient ▸ hs.core, ?_, ?_, ?_, fun g c => ?_, ?_⟩
  · rw [hpending, hclient]
    exact hs.connected
  · rw [hpending]
    exact hs.kind
  · rw [hpending, hclient, hcalls, hcells]
    exact hs.holds
  · rw [hcalls]
    exact (hless g c).trans (hs.sent g c)
  · unfold NoOrphans
    rw [hpending, hclient, hcalls]
    intro e he hq
    obtain ⟨item, hitem, hasks⟩ := hs.kept e he hq
    exact ⟨item, hkeep e he hq item hitem hasks, hasks⟩

theorem congr (hs : Tracked s) (hclient : s'.client = s.client) (hpending : s'.pending = s.pending)
    (hcalls : s'.calls = s.calls) (hcells : s'.cells = s.cells) (hout : s'.outbound = s.outbound) :
    Tracked s' :=
  hs.of_outbound hclient hpending hcalls hcells (fun g c => by simp [State.requests, hout])
    (fun _ _ _ item hitem _ => by rwa [hout])

theorem push (hs : Tracked s) (g : ℕ) {item : Item} (hitem : ∀ c, item.isRequest c = false) :
    Tracked (s.setQueue g (s.queue g ++ [item])) := by
  refine hs.of_outbound rfl rfl rfl rfl (fun g' c => ?_) (fun _ _ _ other hother _ => ?_)
  · simp [State.requests_push, hitem c]
  · exact (State.perm_push g _ item).mem_iff.mpr (List.mem_append_left _ hother)

theorem send (hs : Tracked s) {item : Item} (hitem : ∀ c, item.isRequest c = false)
    (h : s.send g item = some s') : Tracked s' := by
  rw [State.send_eq_some h]
  exact hs.push g hitem

theorem remove (hs : Tracked s) (k : Kind) (id : UInt64) (cell : Cell) :
    Tracked (s.remove k id cell) := by
  refine ⟨?_, fun e he => ?_, fun e he => ?_, fun e he => ?_, fun g c => ?_, fun e he => ?_⟩
  · rw [State.remove_client]
    exact hs.core
  · rw [State.remove_client]
    exact hs.connected e (State.mem_remove he).1
  · exact hs.kind e (State.mem_remove he).1
  · obtain ⟨hmem, hkey⟩ := State.mem_remove he
    have hold := hs.holds e hmem
    rw [State.remove_client, State.remove_calls]
    rcases State.remove_cells k id cell e.owner with hcell | ⟨f, hf, hfkey, howner⟩
    · rwa [hcell]
    · -- the owner has one entry while it can still look at its cell
      have hfold := hs.holds f hf
      have hkind : e.kind = k := by rw [hs.kind e hmem, ← howner, ← hs.kind f hf, hfkey.1]
      rw [howner] at hfold
      generalize s.calls e.owner = pc at hold hfold ⊢
      cases pc with
      | idle => exact hold
      | sending id' g' packet => exact absurd ⟨hkind, by rw [hold.1.1, ← hfold.1.1, hfkey.2]⟩ hkey
      | waiting id' => exact absurd ⟨hkind, by rw [hold.1, ← hfold.1, hfkey.2]⟩ hkey
      | dropped => trivial
      | cancelled => trivial
      | returned r => exact hold
  · rw [State.requests, State.remove_outbound, State.remove_calls]
    exact hs.sent g c
  · rw [State.remove_client, State.remove_calls, State.remove_outbound]
    exact hs.kept e (State.mem_remove he).1

theorem setCall (hs : Tracked s)
    (hholds : ∀ e ∈ s.pending, e.owner = c → pc.Holds e s.client.attempts (s.cells c))
    (hsends : (s.calls c).sends ≤ pc.sends) (hqueued : pc.Queued → (s.calls c).Queued) :
    Tracked (s.setCall c pc) := by
  have hself : (s.setCall c pc).calls c = pc := Function.update_self ..
  have hother : ∀ c', c' ≠ c → (s.setCall c pc).calls c' = s.calls c' :=
    fun c' hne => Function.update_of_ne hne ..
  refine ⟨hs.core, hs.connected, hs.kind, fun e he => ?_, fun g c' => ?_, fun e he hq => ?_⟩
  · by_cases hc : e.owner = c
    · rw [hc, hself]
      exact hholds e he hc
    · rw [hother _ hc]
      exact hs.holds e he
  · by_cases hc : c' = c
    · rw [hc, hself]
      exact (hs.sent g c).trans hsends
    · rw [hother _ hc]
      exact hs.sent g c'
  · refine hs.kept e he ?_
    by_cases hc : e.owner = c
    · rw [hc, hself] at hq
      rw [hc]
      exact hqueued hq
    · rwa [hother _ hc] at hq

theorem returns (hs : Tracked s) (hfree : ∀ e ∈ s.pending, e.owner ≠ c) (r : Outcome) :
    Tracked (s.setCall c (.returned r)) := by
  refine hs.setCall (fun e he hc => absurd hc (hfree e he)) ?_ False.elim
  cases s.calls c <;> simp [Pc.sends]

theorem free_of_idle (hs : Tracked s) (hpc : s.calls c = .idle) : ∀ e ∈ s.pending, e.owner ≠ c := by
  intro e he hc
  have := hs.holds e he
  rw [hc, hpc] at this
  exact this

theorem free_remove (hs : Tracked s) {id : UInt64} {cell : Cell}
    (hid : ∀ e ∈ s.pending, e.owner = c → e.id = id) :
    ∀ e ∈ (s.remove c.kind id cell).pending, e.owner ≠ c := by
  intro e he hc
  obtain ⟨hmem, hkey⟩ := State.mem_remove he
  exact hkey ⟨by rw [hs.kind e hmem, hc], hid e hmem hc⟩

theorem enter (hs : Tracked s) {id : UInt64} {packet : PacketEnvelope} (hpc : s.calls c = .idle)
    (hwriter : s.client.writer = some g) (hpacket : request? packet.body = some (c.kind, id)) :
    Tracked ((s.enter c id).setCall c (.sending id g packet)) := by
  have hfree := hs.free_of_idle hpc
  have hcore := hs.core.writer
  obtain ⟨hcon, hgen⟩ : s.client.isConnected = true ∧ g = s.client.attempts := by
    rw [hwriter] at hcore
    split at hcore <;> simp_all
  have hcalls : ∀ e ∈ s.pending, Function.update s.calls c (.sending id g packet) e.owner =
      s.calls e.owner := fun e he => Function.update_of_ne (hfree e he) ..
  refine ⟨hs.core, fun _ _ => hcon, fun e he => ?_, fun e he => ?_, fun g' c' => ?_, fun e he hq => ?_⟩
  · rcases List.mem_cons.mp he with rfl | he
    · rfl
    · exact hs.kind e he
  · rcases List.mem_cons.mp he with rfl | he
    · simp [State.enter, State.setCall, Pc.Holds, hgen, hpacket]
    · simp only [State.setCall, State.enter, hcalls e he, Function.update_of_ne (hfree e he)]
      exact hs.holds e he
  · have hold := hs.sent g' c'
    by_cases hc : c' = c
    · subst hc
      rw [hpc] at hold
      exact hold.trans (Nat.zero_le _)
    · exact hold.trans (by simp [State.setCall, Function.update_of_ne hc, State.enter])
  · rcases List.mem_cons.mp he with rfl | he
    · simp [State.setCall, Pc.Queued] at hq
    · refine hs.kept e he ?_
      rwa [← hcalls e he]

theorem sendRequest (hs : Tracked s) {id : UInt64} {packet : PacketEnvelope}
    (hpc : s.calls c = .sending id g packet) :
    Tracked ((s.setQueue g (s.queue g ++ [.request c packet])).setCall c (.waiting id)) := by
  have hself : Function.update s.calls c (.waiting id) c = .waiting id := Function.update_self ..
  have hother : ∀ c', c' ≠ c → Function.update s.calls c (.waiting id) c' = s.calls c' :=
    fun c' hne => Function.update_of_ne hne ..
  have hown : ∀ e ∈ s.pending, e.owner = c → (e.id = id ∧ s.cells c = .empty) ∧
      g = s.client.attempts ∧ request? packet.body = some (e.kind, id) := by
    intro e he hc
    have := hs.holds e he
    rwa [hc, hpc] at this
  refine ⟨hs.core, hs.connected, hs.kind, fun e he => ?_, fun g' c' => ?_, fun e he hq => ?_⟩
  · by_cases hc : e.owner = c
    · simp only [State.setCall, State.setQueue, hc, hself]
      exact (hown e he hc).1
    · simp only [State.setCall, State.setQueue, hother _ hc]
      exact hs.holds e he
  · have hold := hs.sent g' c'
    have hpush := State.requests_push (s := s) g g' (.request c packet) c'
    by_cases hc : c' = c
    · -- it had nothing in the channels, and now has this item
      subst hc
      rw [hpc] at hold
      simp only [State.setCall, State.setQueue, hself, Pc.sends] at hold hpush ⊢
      refine hpush.le.trans ?_
      split <;> omega
    · have hne : ¬ c = c' := fun h => hc h.symm
      simp only [Item.isRequest, hne, decide_false, Bool.false_eq_true, and_false, if_false] at hpush
      simp only [State.setCall, State.setQueue, hother _ hc]
      exact hpush.le.trans hold
  · by_cases hc : e.owner = c
    · obtain ⟨⟨hid, -⟩, hgen, hreq⟩ := hown e he hc
      refine ⟨.request c packet, ?_, hc.symm, by rw [hid]; exact hreq⟩
      exact (State.perm_push g _ _).mem_iff.mpr (by simp [← hgen, State.setCall, State.setQueue])
    · simp only [State.setCall, State.setQueue, hother _ hc] at hq
      obtain ⟨item, hitem, hasks⟩ := hs.kept e he hq
      exact ⟨item, (State.perm_push g _ _).mem_iff.mpr (List.mem_append_left _ hitem), hasks⟩

/-! #### The supervisor and the ends of connections -/

theorem drain (hs : Tracked s) (reason : String) : Tracked (s.drain reason) := by
  refine ⟨hs.core, ?_, ?_, ?_, hs.sent, ?_⟩
  all_goals
    intro e he
    cases he

theorem setClient (hs : Tracked s) {client : Lifecycle.State} (hcore : Lifecycle.Core client)
    (hsame : ∀ e ∈ s.pending,
      client.isConnected = true ∧ client.attempts = s.client.attempts) :
    Tracked { s with client := client } := by
  refine ⟨hcore, fun e he => (hsame e he).1, hs.kind, fun e he => ?_, hs.sent, fun e he hq => ?_⟩
  · rw [(hsame e he).2]
    exact hs.holds e he
  · rw [(hsame e he).2]
    exact hs.kept e he hq

theorem beforeLifecycle (hs : Tracked s) {a : Lifecycle.Action}
    (h : Traffic.beforeLifecycle s a = some s') : Tracked s' ∧ s'.client = s.client := by
  rcases beforeLifecycle_cases h with ⟨closers, rfl⟩ | ⟨g, hsend⟩
  · exact ⟨hs.congr rfl rfl rfl rfl rfl, rfl⟩
  · exact ⟨hs.send (fun _ => rfl) hsend, by rw [State.send_eq_some hsend]; rfl⟩

theorem afterLifecycle (hs : Tracked s) (a : Lifecycle.Action) :
    Tracked (Traffic.afterLifecycle s a) := by
  -- the queue of a writer that is gone: not the one of the live connection
  rcases afterLifecycle_cases s a with heq | ⟨g, hdone, heq⟩
  · rw [heq]
    exact hs
  · rw [heq]
    refine hs.of_outbound rfl rfl rfl rfl (State.requests_setQueue_le (List.nil_sublist _))
      (fun e he _ item hitem _ => ?_)
    have hne : s.client.attempts ≠ g := by
      intro hgen
      exact hs.core.writer_ne_done (hs.connected e he) (hgen ▸ hdone)
    rwa [State.outbound_setQueue_ne hne]

theorem lifecycle (hs : Tracked s) {cfg : Config} {a : Lifecycle.Action} {reason : String}
    (h : stepLifecycle cfg s a reason = some s') : Tracked s' := by
  obtain ⟨client, hclient, h⟩ := Option.bind_eq_some_iff.mp h
  obtain ⟨s₁, hs₁, h⟩ := Option.bind_eq_some_iff.mp h
  cases h
  obtain ⟨h₁, heq⟩ := hs.beforeLifecycle hs₁
  have hcore := hs.core.step hclient
  refine Tracked.afterLifecycle ?_ a
  cases hs.core.change hclient with
  | quiet hquiet hnote =>
    rw [hnote]
    refine h₁.setClient hcore fun e he => ⟨?_, ?_⟩
    · rw [hquiet.isConnected, ← heq]
      exact h₁.connected e he
    · rw [hquiet.attempts, heq]
  | started hoff _ _ hnote | published _ hoff _ _ _ hnote =>
    rw [hnote]
    refine h₁.setClient hcore fun e he => ?_
    have hon := h₁.connected e he
    rw [heq, hoff] at hon
    cases hon
  | lost _ _ _ _ hnote =>
    rw [hnote]
    refine (h₁.drain reason).setClient hcore fun e he => ?_
    cases he

theorem disconnectedPanics (hs : Tracked s) {k : Lifecycle.Task}
    (hpc : s.client.tasks g k = .notifying) :
    Tracked { s with client := s.client.setTask g k .done } := by
  have hcore : Lifecycle.Core (s.client.setTask g k .done) :=
    hs.core.setTask (by simp [hpc]) (hs.core.notifying_off hpc)
  exact hs.setClient hcore fun e he => ⟨hs.connected e he, rfl⟩

theorem connectedPanics (hs : Tracked s) {left : ℕ} (hphase : s.client.phase = .emitting g left)
    (hfree : ∀ e ∈ s.pending, ∀ packet, .request e.owner packet ∉ s.queue s.client.attempts) :
    Tracked { s.setQueue g [] with crashed := true } := by
  -- the supervisor takes the receiver with it; nothing waited for is in the channel
  have hgen := hs.core.current g (by simp [hphase, Lifecycle.Phase.current, Lifecycle.Phase.unspawned])
  subst hgen
  refine hs.of_outbound rfl rfl rfl rfl (State.requests_setQueue_le (List.nil_sublist _))
    (fun e he _ item hitem hasks => ?_)
  have hwritten : item ∈ (s.written s.client.attempts).map Prod.fst := by
    rcases List.mem_append.mp hitem with hitem | hitem
    · cases item with
      | request c packet =>
        rw [hasks.1] at hitem
        exact absurd hitem (hfree e he packet)
      | _ => exact hasks.elim
    · exact hitem
  exact List.mem_append_right _ hwritten

/-! #### The tasks -/

theorem call (hs : Tracked s) {cfg : Config} {op : CallOp}
    (h : stepCall cfg s c op (s.calls c) = some s') : Tracked s' := by
  generalize hpc : s.calls c = pc at h
  have hown : ∀ e ∈ s.pending, e.owner = c → pc.Holds e s.client.attempts (s.cells c) := by
    intro e he hc
    have := hs.holds e he
    rwa [hc, hpc] at this
  unfold stepCall at h
  split at h
  · rename_i request
    split_ifs at h with hready hcon
    · obtain ⟨-, hkind⟩ := hready
      dsimp only at h
      have hs₁ : Tracked { s.remove c.kind (s.next c.kind + 1) .closed with
          next := Function.update s.next c.kind (s.next c.kind + 1) } :=
        (hs.remove c.kind (s.next c.kind + 1) .closed).congr rfl rfl rfl rfl rfl
      have hpc₁ : (s.remove c.kind (s.next c.kind + 1) .closed).calls c = .idle := by simp [hpc]
      split at h <;> cases h
      · rename_i hwriter
        refine hs₁.enter hpc₁ hwriter ?_
        rw [← hkind]
        exact request?_body request _
      · exact hs₁.returns (hs₁.free_of_idle hpc₁) _
    · cases h
      exact hs.returns (hs.free_of_idle hpc) _
  · obtain ⟨s₁, hsend, h⟩ := Option.map_eq_some_iff.mp h
    rw [← h, State.send_eq_some hsend]
    exact hs.sendRequest hpc
  · split at h <;> cases h
    refine (hs.remove ..).returns (hs.free_remove fun e he hc => ?_) _
    exact (hown e he hc).1.1
  · have hfree : s.cells c ≠ .empty → ∀ e ∈ s.pending, e.owner ≠ c :=
      fun hcell e he hc => hcell (hown e he hc).2
    split at h <;> cases h
    · exact hs.returns (hfree (by simp [*])) _
    · exact hs.returns (hfree (by simp [*])) _
  · split at h <;> cases h
    refine (hs.remove ..).returns (hs.free_remove fun e he hc => ?_) _
    exact (hown e he hc).1
  · cases h
    exact hs.setCall (fun _ _ _ => trivial) (by simp [hpc, Pc.sends]) False.elim
  · cases h
    exact hs.setCall (fun _ _ _ => trivial) (by simp [hpc, Pc.sends]) (fun _ => by simp [hpc, Pc.Queued])
  · cases h

theorem pop (hs : Tracked s) {item : Item} {rest : List Item} (hq : s.queue g = item :: rest)
    (hitem : g = s.client.attempts → ∀ e ∈ s.pending, ¬ item.asks e) :
    Tracked (s.setQueue g rest) := by
  have hsub : rest.Sublist (s.queue g) := by
    rw [hq]
    exact List.sublist_cons_self ..
  refine hs.of_outbound rfl rfl rfl rfl (State.requests_setQueue_le hsub)
    (fun e he _ other hother hasks => ?_)
  refine (State.mem_pop hq hother).resolve_right fun hbad => ?_
  exact hitem hbad.1.symm e he (hbad.2 ▸ hasks)

theorem writer (hs : Tracked s) {cfg : Config} {op : WriterOp} (hp : Sendable cfg s (.writer g op))
    (h : Writes cfg s g op s') : Tracked s' := by
  cases h with
  | @written random item rest packet frame hq hpacket hframe =>
    refine hs.of_outbound rfl rfl rfl rfl (fun g' c => ?_) (fun e he _ other hother _ => ?_)
    · exact ((State.perm_write hq frame g').countP_eq _).le
    · exact (State.perm_write hq frame _).mem_iff.mpr hother
  | @refused random item rest packet hq hpacket hframe =>
    refine hs.pop hq fun hg e he hasks => ?_
    cases item with
    | request c p =>
      cases hpacket
      rw [hasks.1] at hq
      obtain ⟨frame, hok⟩ := hp hg e he packet rest hq
      exact hframe frame hok
    | _ => exact hasks.elim
  | @control random item rest pc hq hpacket =>
    refine (hs.pop hq fun _ e he hasks => ?_).congr rfl rfl rfl rfl rfl
    cases item with
    | request c p => cases hpacket
    | _ => exact hasks.elim
  | flushed => exact hs.congr rfl rfl rfl rfl rfl

theorem reader (hs : Tracked s) {op : ReaderOp} (h : stepReader s g op = some s') : Tracked s' := by
  unfold stepReader at h
  split at h
  · split at h
    · cases h
      exact hs.remove ..
    · split at h <;> cases h
      · exact hs.congr rfl rfl rfl rfl rfl
      · exact hs
  · exact hs.send (fun _ => rfl) h

theorem event (hs : Tracked s) {cfg : Config} {t : ℕ} {op : EventOp} {pc : EventPc}
    (h : stepEvent cfg s t op pc = some s') : Tracked s' := by
  unfold stepEvent at h
  split at h
  · split at h <;> cases h <;> exact hs.congr rfl rfl rfl rfl rfl
  · obtain ⟨s₁, hsend, h⟩ := Option.map_eq_some_iff.mp h
    rw [← h]
    exact (hs.send (fun _ => rfl) hsend).congr rfl rfl rfl rfl rfl
  · split at h <;> cases h
    exact hs.congr rfl rfl rfl rfl rfl
  · cases h

theorem step (hs : Tracked s) {cfg : Config} {a : Action} (hp : Sendable cfg s a)
    (h : Traffic.step cfg a s = some s') : Tracked s' := by
  unfold Traffic.step at h
  split at h
  · exact hs.lifecycle h
  · exact hs.call h
  · split at h
    · exact hs.writer hp (stepWriter_writes h)
    · cases h
  · split at h
    · exact hs.send (fun _ => rfl) h
    · cases h
  · split at h
    · exact hs.reader h
    · cases h
  · exact hs.event h
  · split at h
    · rename_i hphase
      split at h <;> cases h
      exact hs.connectedPanics hphase hp
    · cases h
  · split at h <;> cases h
    rename_i hpc
    exact (hs.disconnectedPanics hpc).afterLifecycle _

/-! #### The condition is needed -/

theorem queued_of_mem (hs : Tracked s) {e : Entry} (he : e ∈ s.pending)
    (hpos : 0 < s.requests g e.owner) : (s.calls e.owner).Queued := by
  have hsent := hs.sent g e.owner
  have hold := hs.holds e he
  generalize s.calls e.owner = pc at hsent hold ⊢
  cases pc with
  | waiting id => trivial
  | cancelled => trivial
  | returned r => exact hold.elim
  | _ =>
    simp only [Pc.sends] at hsent
    omega

theorem orphaned (hs : Tracked s) {e : Entry} (he : e ∈ s.pending) (hpending : s'.pending = s.pending)
    (hclient : s'.client = s.client) (hcalls : s'.calls = s.calls)
    (hless : s'.requests s.client.attempts e.owner < s.requests s.client.attempts e.owner) :
    ¬ NoOrphans s' := by
  intro hafter
  have hq := hs.queued_of_mem he (Nat.zero_lt_of_lt hless)
  obtain ⟨item, hitem, hasks⟩ := hafter e (by rwa [hpending]) (by rwa [hcalls])
  rw [hclient] at hitem
  have hpos := State.requests_pos hitem hasks
  have hsent := hs.sent s.client.attempts e.owner
  rw [hq.sends] at hsent
  omega

theorem sendable (hs : Tracked s) {cfg : Config} {a : Action} (h : Traffic.step cfg a s = some s')
    (hafter : NoOrphans s') : Sendable cfg s a := by
  cases a with
  | writer g op =>
    cases op with
    | flushed => trivial
    | receive random =>
      intro hg e he packet rest hq
      subst hg
      simp only [Traffic.step] at h
      split at h
      · cases stepWriter_writes h with
        | written hq' hpacket hframe =>
          rw [hq] at hq'
          cases hq'
          cases hpacket
          exact ⟨_, hframe⟩
        | refused hq' hpacket hframe =>
          rw [hq] at hq'
          cases hq'
          refine absurd hafter (hs.orphaned he rfl rfl rfl (State.requests_setQueue_lt ?_))
          simp [hq, Item.isRequest]
        | control pc hq' hpacket =>
          rw [hq] at hq'
          cases hq'
          cases hpacket
      · cases h
  | connectedPanics =>
    intro e he packet hmem
    simp only [Traffic.step] at h
    split at h
    · rename_i g left hphase
      have hgen := hs.core.current g
        (by simp [hphase, Lifecycle.Phase.current, Lifecycle.Phase.unspawned])
      subst hgen
      split at h <;> cases h
      refine absurd hafter (hs.orphaned he rfl rfl rfl (State.requests_setQueue_lt ?_))
      rw [List.countP_nil]
      exact List.countP_pos_iff.mpr ⟨_, hmem, by simp [Item.isRequest]⟩
    · cases h
  | _ => trivial

end Tracked

/-- Requests are never orphaned exactly in the runs in which every request that is waited for
can be encoded, and no handler's panic throws one away. -/
theorem no_orphans_iff (cfg : Config) (acts : List Action) :
    Machine.Always (step cfg) NoOrphans acts State.init ↔
      Machine.Along (step cfg) (Sendable cfg) acts State.init :=
  Machine.always_iff_along (fun _ hs => hs.kept) (fun _ _ _ hp hs h => hs.step hp h)
    (fun _ _ _ hs h hafter => hs.sendable h hafter) tracked_init

/-- serde_json on one body: the text of `ApiRequest` 1 for route `upload`. -/
def uploadJson : SerdeJson where
  nestingLimit := 127
  toWriter
    | .object [("k", .number (.posInt 0)), ("i", .number (.posInt 1)), ("r", .string "upload"),
        ("p", .null), ("m", .object [("client_name", .string "rust-demo")])] =>
      .ok (asBytes
        "\x7b\"k\":0,\"i\":1,\"r\":\"upload\",\"p\":null,\"m\":\x7b\"client_name\":\"rust-demo\"\x7d\x7d")
    | _ => .error .serde
  fromSlice _ := .error .serde

/-- A plaintext client that was given a limit of 128 bytes. -/
def smallClient : Config where
  lifecycle := Lifecycle.plainConfig
  libs := ⟨uploadJson, FrameCodec.tagOnly, FrameCodec.tagOnly⟩
  codec := FrameCodec.plaintext.withMaxFrameBytes 128
  defaultEncryption := .none
  sessionKey _ := Vector.replicate 32 0

def upload (size : ℕ) : List Action :=
  [.call ⟨.api, 0⟩ (.start (.api "upload" .null [⟨"f", "f", "t", List.replicate size 0⟩])),
    .call ⟨.api, 0⟩ .sent, .writer 1 (.receive (.error "not used"))]

/-- The writer drops a request that carries 64 bytes, and its caller is left to time out. -/
theorem oversized_request_orphaned :
    ∃ s, Machine.run (step smallClient) (dial ++ upload 64) State.init = some s ∧ ¬ NoOrphans s := by
  have hrun : (Machine.run (step smallClient) (dial ++ upload 64) State.init).any
      (fun s => ¬ NoOrphans s) = true := by decide +kernel
  obtain ⟨s, hs, horphan⟩ := (Option.any_eq_true ..).mp hrun
  exact ⟨s, hs, by simpa using horphan⟩

example : (Machine.run (step smallClient) (dial ++ upload 8) State.init).map
    (fun s => ((s.queue 1).length, (s.written 1).length)) = some (0, 1) := by
  decide +kernel

end Wscall.Client.Traffic
