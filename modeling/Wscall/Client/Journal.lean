import Mathlib.Data.List.Perm.Subperm
import Wscall.Client.Turns

/-!
# What a client has asked and what it was answered

A journal beside the run: the number and the request of every invocation that got as far as a
packet, and the packets the readers took. It says whose frames are on the wire and where a result
came from.
-/

namespace Wscall.Client.Traffic
open RustStd Protocol

structure Journal where
  made : CallId → Option (ℕ × Request)
  /-- How many ids were drawn from each counter. -/
  drawn : Kind → ℕ
  /-- What the readers took, with the connection it came on. -/
  heard : List (ℕ × PacketBody)

namespace Journal

def init : Journal := ⟨fun _ => none, fun _ => 0, []⟩

def draw (j : Journal) (k : Kind) : Journal :=
  { j with drawn := Function.update j.drawn k (j.drawn k + 1) }

/-- The invocation keeps the number that was drawn last. -/
def make (j : Journal) (c : CallId) (request : Request) : Journal :=
  { j with made := Function.update j.made c (some (j.drawn c.kind, request)) }

def hear (j : Journal) (g : ℕ) (body : PacketBody) : Journal :=
  { j with heard := j.heard ++ [(g, body)] }

def next (j : Journal) (s : State) : Action → Journal
  | .call c (.start request) =>
    if s.client.isConnected then
      if s.client.writer.isSome then (j.draw c.kind).make c request else j.draw c.kind
    else j
  | .reader g (.packet body _) => j.hear g body
  | _ => j

theorem next_of_apart (j : Journal) (s : State) {a : Action} (ha : a.Apart) : j.next s a = j := by
  cases a with
  | call c op =>
    cases op with
    | start => exact ha.elim
    | _ => rfl
  | reader g op =>
    cases op with
    | packet => exact ha.elim
    | _ => rfl
  | _ => rfl

theorem draw_self (j : Journal) (k : Kind) : (j.draw k).drawn k = j.drawn k + 1 :=
  Function.update_self ..

theorem draw_of_ne (j : Journal) {k k' : Kind} (h : k' ≠ k) : (j.draw k).drawn k' = j.drawn k' :=
  Function.update_of_ne h ..

theorem make_self (j : Journal) (c : CallId) (request : Request) :
    (j.make c request).made c = some (j.drawn c.kind, request) := Function.update_self ..

theorem make_of_ne (j : Journal) {c d : CallId} (h : d ≠ c) (request : Request) :
    (j.make c request).made d = j.made d := Function.update_of_ne h ..

/-- A packet that arrived answers the invocation with the result. -/
def Answers (j : Journal) (c : CallId) (r : Outcome) : Prop :=
  ∃ g body n request, (g, body) ∈ j.heard ∧ j.made c = some (n, request) ∧
    answer body = some (c.kind, UInt64.ofNat n, r)

/-! ### Numbers -/

/-- Two invocations of one kind do not share a number. -/
structure Numbered (j : Journal) : Prop where
  range : ∀ c n request, j.made c = some (n, request) →
    request.kind = c.kind ∧ 0 < n ∧ n ≤ j.drawn c.kind
  unique : ∀ c d n request request', j.made c = some (n, request) → j.made d = some (n, request') →
    c.kind = d.kind → c = d

variable {j : Journal}

theorem Numbered.draw (h : j.Numbered) (k : Kind) : (j.draw k).Numbered := by
  refine ⟨fun c n request hc => ?_, h.unique⟩
  obtain ⟨hkind, hpos, hn⟩ := h.range c n request hc
  refine ⟨hkind, hpos, ?_⟩
  by_cases hk : c.kind = k
  · rw [hk, draw_self, ← hk]
    omega
  · rwa [draw_of_ne _ hk]

/-- The number that was drawn is new. -/
theorem Numbered.make (h : j.Numbered) {c : CallId} {request : Request} (hkind : request.kind = c.kind) :
    ((j.draw c.kind).make c request).Numbered := by
  have hdraw := h.draw c.kind
  have hold : ∀ d n request', d.kind = c.kind → j.made d = some (n, request') →
      n ≠ (j.draw c.kind).drawn c.kind := by
    intro d n request' hk hd
    have hle := (h.range d n request' hd).2.2
    rw [hk] at hle
    rw [draw_self]
    omega
  refine ⟨fun d n request' hd => ?_, fun d d' n request' request'' hd hd' hk => ?_⟩
  · by_cases hdc : d = c
    · subst hdc
      rw [make_self] at hd
      cases hd
      refine ⟨hkind, ?_, le_rfl⟩
      rw [draw_self]
      omega
    · rw [make_of_ne _ hdc] at hd
      exact hdraw.range d n request' hd
  · by_cases hdc : d = c <;> by_cases hdc' : d' = c
    · rw [hdc, hdc']
    · subst hdc
      rw [make_self] at hd
      rw [make_of_ne _ hdc'] at hd'
      cases hd
      exact absurd rfl (hold d' _ _ hk.symm hd')
    · subst hdc'
      rw [make_self] at hd'
      rw [make_of_ne _ hdc] at hd
      cases hd'
      exact absurd rfl (hold d _ _ hk hd)
    · rw [make_of_ne _ hdc] at hd
      rw [make_of_ne _ hdc'] at hd'
      exact h.unique d d' n request' request'' hd hd' hk

/-! ### The journal only grows -/

structure Grows (j j' : Journal) : Prop where
  made : ∀ c x, j.made c = some x → j'.made c = some x
  heard : ∀ x, x ∈ j.heard → x ∈ j'.heard

theorem grows_make {c : CallId} (hc : j.made c = none) (request : Request) :
    Grows j (j.make c request) := by
  refine ⟨fun d x hd => ?_, fun _ h => h⟩
  have hne : d ≠ c := by
    rintro rfl
    rw [hc] at hd
    cases hd
  rw [make_of_ne _ hne]
  exact hd

theorem grows_hear (j : Journal) (g : ℕ) (body : PacketBody) : Grows j (j.hear g body) :=
  ⟨fun _ _ h => h, fun _ h => List.mem_append_left _ h⟩

theorem Answers.mono {j' : Journal} (hj : Grows j j') {c : CallId} {r : Outcome} (h : j.Answers c r) :
    j'.Answers c r := by
  obtain ⟨g, body, n, request, hheard, hmade, hanswer⟩ := h
  exact ⟨g, body, n, request, hj.heard _ hheard, hj.made _ _ hmade, hanswer⟩

end Journal

/-- The packet of an invocation. -/
def Config.packet (cfg : Config) (n : ℕ) (request : Request) : PacketEnvelope :=
  .withEncryption (request.body (UInt64.ofNat n)) cfg.defaultEncryption

/-! ### Invocations and their entries -/

structure Matched (j : Journal) (s : State) : Prop where
  next : ∀ k, s.next k = UInt64.ofNat (j.drawn k)
  idle : ∀ c, s.calls c = .idle → j.made c = none
  numbered : j.Numbered
  pending : ∀ e ∈ s.pending, e.kind = e.owner.kind ∧
    ∃ n request, j.made e.owner = some (n, request) ∧ e.id = UInt64.ofNat n
  cells : ∀ c r, s.cells c = .full r → Remote r → j.Answers c r
  returned : ∀ c r, s.calls c = .returned r → Remote r → j.Answers c r

theorem matched_init : Matched .init State.init := by
  refine ⟨?_, ?_, ⟨?_, ?_⟩, ?_, ?_, ?_⟩ <;> simp [Journal.init, State.init]

namespace Matched

variable {j : Journal} {s s' : State} {c : CallId} {g : ℕ}

theorem congr (hs : Matched j s) (hnext : s'.next = s.next) (hpending : s'.pending = s.pending)
    (hcalls : s'.calls = s.calls) (hcells : s'.cells = s.cells) : Matched j s' := by
  refine ⟨?_, ?_, hs.numbered, ?_, ?_, ?_⟩
  · rw [hnext]
    exact hs.next
  · rw [hcalls]
    exact hs.idle
  · rw [hpending]
    exact hs.pending
  · rw [hcells]
    exact hs.cells
  · rw [hcalls]
    exact hs.returned

theorem hear (hs : Matched j s) (g : ℕ) (body : PacketBody) : Matched (j.hear g body) s :=
  have hgrows := j.grows_hear g body
  ⟨hs.next, hs.idle, ⟨hs.numbered.range, hs.numbered.unique⟩, hs.pending,
    fun c r h hr => (hs.cells c r h hr).mono hgrows,
    fun c r h hr => (hs.returned c r h hr).mono hgrows⟩

theorem setCall (hs : Matched j s) (pc : Pc) (hidle : pc ≠ .idle)
    (hreturned : ∀ r, pc = .returned r → Remote r → j.Answers c r) : Matched j (s.setCall c pc) := by
  refine ⟨hs.next, fun d h => ?_, hs.numbered, hs.pending, hs.cells, fun d r h => ?_⟩
  · by_cases hd : d = c
    · subst hd
      exact absurd ((Function.update_self ..).symm.trans h) hidle
    · exact hs.idle d ((Function.update_of_ne hd ..).symm.trans h)
  · by_cases hd : d = c
    · subst hd
      exact hreturned r ((Function.update_self ..).symm.trans h)
    · exact hs.returned d r ((Function.update_of_ne hd ..).symm.trans h)

theorem remove (hs : Matched j s) (k : Kind) (id : UInt64) {cell : Cell}
    (hcell : ∀ r, cell = .full r → ∀ e ∈ s.pending, e.kind = k → e.id = id → j.Answers e.owner r) :
    Matched j (s.remove k id cell) := by
  unfold State.remove
  split
  · exact hs
  · rename_i e hfind
    have hmem := List.mem_of_find?_eq_some hfind
    have hkey : e.kind = k ∧ e.id = id := by simpa using List.find?_some hfind
    refine ⟨hs.next, hs.idle, hs.numbered, fun f hf => ?_, fun d r h hr => ?_, hs.returned⟩
    · exact hs.pending f (List.mem_filter.mp hf).1
    · by_cases hd : d = e.owner
      · subst hd
        exact hcell r ((Function.update_self ..).symm.trans h) e hmem hkey.1 hkey.2
      · exact hs.cells d r ((Function.update_of_ne hd ..).symm.trans h) hr

theorem drain (hs : Matched j s) (reason : String) : Matched j (s.drain reason) := by
  have hfold : ∀ (entries : List Entry) (cells : CallId → Cell) (c : CallId) (r : Outcome),
      entries.foldl (fun cells e =>
        Function.update cells e.owner (.full (.error (.connectionClosed reason)))) cells c = .full r →
      Remote r → cells c = .full r := by
    intro entries
    induction entries with
    | nil => exact fun cells c r h _ => h
    | cons e entries ih =>
      intro cells c r h hr
      have hold := ih _ c r h hr
      dsimp only at hold
      by_cases hc : c = e.owner
      · rw [hc, Function.update_self] at hold
        cases hold
        exact hr.elim
      · rwa [Function.update_of_ne hc] at hold
  exact ⟨hs.next, hs.idle, hs.numbered, by simp [State.drain],
    fun c r h hr => hs.cells c r (hfold s.pending s.cells c r h hr) hr, hs.returned⟩

theorem draw (hs : Matched j s) (k : Kind) : Matched (j.draw k) (s.draw k) := by
  have hs₁ : Matched j (s.remove k (s.next k + 1) .closed) := hs.remove k (s.next k + 1) (by simp)
  refine ⟨fun k' => ?_, hs₁.idle, hs.numbered.draw k, hs₁.pending, hs₁.cells, hs₁.returned⟩
  by_cases hk : k' = k
  · subst hk
    rw [Journal.draw_self, UInt64.ofNat_add, ← hs.next]
    exact Function.update_self ..
  · rw [Journal.draw_of_ne _ hk, ← hs.next]
    exact Function.update_of_ne hk ..

/-- An invocation gets the number that was just drawn, and an entry under it. -/
theorem start (hs : Matched j s) (hidle : s.calls c = .idle) {request : Request}
    (hkind : request.kind = c.kind) (packet : PacketEnvelope) :
    Matched ((j.draw c.kind).make c request) (((s.draw c.kind).enter c (s.next c.kind + 1)).setCall c
      (.sending (s.next c.kind + 1) g packet)) := by
  have hs₁ := hs.draw c.kind
  have hgrows : (j.draw c.kind).Grows ((j.draw c.kind).make c request) :=
    Journal.grows_make (j := j.draw c.kind) (hs.idle c hidle) request
  refine ⟨hs₁.next, fun d hd => ?_, hs.numbered.make hkind, fun e he => ?_, fun d r hd hr => ?_,
    fun d r hd hr => ?_⟩
  · have hne : d ≠ c := by
      rintro rfl
      cases (Function.update_self ..).symm.trans hd
    rw [Journal.make_of_ne _ hne]
    exact hs₁.idle d ((Function.update_of_ne hne ..).symm.trans hd)
  · rcases List.mem_cons.mp he with rfl | he
    · refine ⟨rfl, _, request, Journal.make_self .., ?_⟩
      rw [Journal.draw_self, UInt64.ofNat_add, ← hs.next]
      rfl
    · obtain ⟨hk, n, request', hn, hid⟩ := hs₁.pending e he
      exact ⟨hk, n, request', hgrows.made _ _ hn, hid⟩
  · have hne : d ≠ c := by
      rintro rfl
      cases (Function.update_self ..).symm.trans hd
    exact (hs₁.cells d r ((Function.update_of_ne hne ..).symm.trans hd) hr).mono hgrows
  · have hne : d ≠ c := by
      rintro rfl
      cases (Function.update_self ..).symm.trans hd
    exact (hs₁.returned d r ((Function.update_of_ne hne ..).symm.trans hd) hr).mono hgrows

theorem touch (hs : Matched j s) {cfg : Config} (h : Touch cfg s s') : Matched j s' := by
  cases h with
  | alike h => exact hs.congr h.next h.pending h.calls h.cells
  | trimmed | pushed | wrote | handled | acked => exact hs.congr rfl rfl rfl rfl
  | drained reason => exact hs.drain reason
  | @sent c id g packet hpc =>
    exact (hs.setCall (c := c) (.waiting id) (by simp) (by simp)).congr rfl rfl rfl rfl
  | dropped k id => exact hs.remove k id (by simp)
  | failed c e he =>
    refine hs.setCall _ (by simp) fun r heq hr => ?_
    cases heq
    exact absurd hr he
  | @received c r hcell =>
    refine hs.setCall _ (by simp) fun r' heq => ?_
    cases heq
    exact hs.cells c r hcell
  | abandoned hpc =>
    rcases hpc with rfl | rfl <;> exact hs.setCall _ (by simp) (by simp)

theorem touches (hs : Matched j s) {cfg : Config} (h : Touches cfg s s') : Matched j s' := by
  induction h with
  | refl => exact hs
  | tail _ h ih => exact ih.touch h

theorem turn (hs : Matched j s) {cfg : Config} {a : Action} (h : Turn cfg s a s') :
    Matched (j.next s a) s' := by
  cases h with
  | apart ha h =>
    rw [Journal.next_of_apart _ _ ha]
    exact hs.touches h
  | @refused c request hcon =>
    rw [Journal.next, hcon, if_neg (by simp)]
    have htouch : Touch cfg s _ := .failed c .disconnected not_false
    exact hs.touch htouch
  | @unsent c request hcon hw =>
    rw [Journal.next, if_pos hcon, hw, if_neg (by simp)]
    have htouch : Touch cfg (s.draw c.kind) _ := .failed c .disconnected not_false
    exact (hs.draw c.kind).touch htouch
  | @started c request g hcon hw hidle hkind =>
    rw [Journal.next, if_pos hcon, hw, if_pos (by simp)]
    exact hs.start hidle hkind _
  | @answered g body t k id r h =>
    refine (hs.hear g body).remove k id fun r' heq e he hk hid => ?_
    cases heq
    obtain ⟨hkind, n, request, hn, hid'⟩ := hs.pending e he
    refine ⟨g, body, n, request, List.mem_append_right _ (List.mem_singleton_self _), hn, ?_⟩
    rw [h, ← hkind, ← hid', hk, hid]
  | @told g body t s' hbody h => exact (hs.hear g body).touches h

end Matched

/-! ### Packets and their frames -/

/-- The packet is the one of an invocation, or acknowledges an event. -/
def Item.From (cfg : Config) (j : Journal) : Item → Prop
  | .request c packet => ∃ n request, j.made c = some (n, request) ∧ packet = cfg.packet n request
  | .ack _ packet => ∃ eventId receipt, packet = cfg.ackPacket eventId receipt
  | _ => True

structure Shipped (cfg : Config) (j : Journal) (s : State) : Prop where
  sending : ∀ c id g packet, s.calls c = .sending id g packet →
    (Item.request c packet).From cfg j
  events : ∀ t received g packet, s.events t = .sending received g packet →
    (Item.ack received packet).From cfg j
  items : ∀ g item, item ∈ s.outbound g → item.From cfg j
  frames : ∀ g item frame, (item, frame) ∈ s.written g → ∃ random packet,
    item.packet? = some packet ∧ (cfg.sessionCodec g).encode cfg.libs random packet = .ok frame
  /-- An invocation queues one packet, on one connection. -/
  home : ∀ c, ∃ home, ∀ g, s.requests g c ≤ if g = home then (s.calls c).sends else 0

theorem shipped_init (cfg : Config) : Shipped cfg .init State.init := by
  refine ⟨?_, ?_, ?_, ?_, fun c => ⟨0, fun g => ?_⟩⟩
  all_goals simp [State.init, State.outbound, State.requests]

theorem Item.From.mono {cfg : Config} {j j' : Journal} (hj : j.Grows j') {item : Item}
    (h : item.From cfg j) : item.From cfg j' := by
  cases item with
  | request c packet =>
    obtain ⟨n, request, hn, hpacket⟩ := h
    exact ⟨n, request, hj.made _ _ hn, hpacket⟩
  | _ => exact h

namespace Shipped

variable {cfg : Config} {j j' : Journal} {s s' : State} {c : CallId} {g : ℕ}

theorem grows (hs : Shipped cfg j s) (hj : j.Grows j') : Shipped cfg j' s :=
  ⟨fun c id g packet h => (hs.sending c id g packet h).mono hj,
    fun t received g packet h => hs.events t received g packet h,
    fun g item h => (hs.items g item h).mono hj, hs.frames, hs.home⟩

/-- Nothing is queued; something may have gone, or to the socket. -/
theorem less (hs : Shipped cfg j s) (hcalls : s'.calls = s.calls) (hevents : s'.events = s.events)
    (hout : ∀ g, (s'.outbound g).Subperm (s.outbound g))
    (hframes : ∀ g item frame, (item, frame) ∈ s'.written g → (item, frame) ∈ s.written g ∨
      ∃ random packet, item.packet? = some packet ∧
        (cfg.sessionCodec g).encode cfg.libs random packet = .ok frame) : Shipped cfg j s' := by
  refine ⟨?_, ?_, fun g item hitem => hs.items g item ((hout g).subset hitem), fun g item frame h => ?_,
    fun c => ?_⟩
  · rw [hcalls]
    exact hs.sending
  · rw [hevents]
    exact hs.events
  · exact (hframes g item frame h).elim (hs.frames g item frame) id
  · obtain ⟨home, hhome⟩ := hs.home c
    refine ⟨home, fun g => ?_⟩
    rw [hcalls]
    exact ((hout g).countP_le _).trans (hhome g)

theorem congr (hs : Shipped cfg j s) (hcalls : s'.calls = s.calls) (hevents : s'.events = s.events)
    (hqueue : s'.queue = s.queue) (hwritten : s'.written = s.written) : Shipped cfg j s' := by
  refine hs.less hcalls hevents (fun g => ?_) (fun g item frame h => .inl (hwritten ▸ h))
  rw [State.outbound, State.outbound, hqueue, hwritten]

theorem setQueue (hs : Shipped cfg j s) {items : List Item} (h : items.Sublist (s.queue g)) :
    Shipped cfg j (s.setQueue g items) := by
  refine hs.less rfl rfl (fun g' => ?_) (fun _ _ _ hmem => .inl hmem)
  by_cases hg : g' = g
  · subst hg
    rw [State.outbound_setQueue_self]
    exact (h.append_right _).subperm
  · rw [State.outbound_setQueue_ne hg]

theorem setCall (hs : Shipped cfg j s) (pc : Pc)
    (hsending : ∀ id g packet, pc = .sending id g packet → (Item.request c packet).From cfg j)
    (hsends : (s.calls c).sends ≤ pc.sends) : Shipped cfg j (s.setCall c pc) := by
  refine ⟨fun d id g packet h => ?_, hs.events, hs.items, hs.frames, fun d => ?_⟩
  · by_cases hd : d = c
    · subst hd
      exact hsending id g packet ((Function.update_self ..).symm.trans h)
    · exact hs.sending d id g packet ((Function.update_of_ne hd ..).symm.trans h)
  · obtain ⟨home, hhome⟩ := hs.home d
    refine ⟨home, fun g => (hhome g).trans ?_⟩
    have hle : (s.calls d).sends ≤ ((s.setCall c pc).calls d).sends := by
      by_cases hd : d = c
      · subst hd
        simpa [State.setCall] using hsends
      · simp [State.setCall, Function.update_of_ne hd]
    split
    · exact hle
    · exact le_rfl

theorem setEvent (hs : Shipped cfg j s) (t : ℕ) (pc : EventPc)
    (hpc : ∀ received g packet, pc = .sending received g packet →
      (Item.ack received packet).From cfg j) : Shipped cfg j (s.setEvent t pc) := by
  refine ⟨hs.sending, fun u received g packet h => ?_, hs.items, hs.frames, hs.home⟩
  by_cases hu : u = t
  · subst hu
    exact hpc received g packet ((Function.update_self ..).symm.trans h)
  · exact hs.events u received g packet ((Function.update_of_ne hu ..).symm.trans h)

theorem remove (hs : Shipped cfg j s) (k : Kind) (id : UInt64) (cell : Cell) :
    Shipped cfg j (s.remove k id cell) := by
  unfold State.remove
  split
  · exact hs
  · exact hs.congr rfl rfl rfl rfl

theorem items_push (hs : Shipped cfg j s) {item : Item} (hitem : item.From cfg j) (g' : ℕ) (other : Item)
    (h : other ∈ (s.setQueue g (s.queue g ++ [item])).outbound g') : other.From cfg j := by
  rcases List.mem_append.mp ((State.perm_push g g' item).mem_iff.mp h) with h | h
  · exact hs.items g' other h
  · split at h
    · rwa [List.mem_singleton.mp h]
    · cases h

theorem push (hs : Shipped cfg j s) {item : Item} (hitem : item.From cfg j)
    (hrequest : ∀ c, item.isRequest c = false) :
    Shipped cfg j (s.setQueue g (s.queue g ++ [item])) := by
  refine ⟨hs.sending, hs.events, hs.items_push hitem, hs.frames, fun c => ?_⟩
  obtain ⟨home, hhome⟩ := hs.home c
  refine ⟨home, fun g' => ?_⟩
  rw [State.requests_push, hrequest c, if_neg (by simp)]
  exact hhome g'

theorem sendRequest (hs : Shipped cfg j s) {id : UInt64} {packet : PacketEnvelope}
    (hpc : s.calls c = .sending id g packet) :
    Shipped cfg j ((s.setQueue g (s.queue g ++ [.request c packet])).setCall c (.waiting id)) := by
  have hfrom := hs.sending c id g packet hpc
  refine ⟨fun d id' g' packet' h => ?_, hs.events, hs.items_push hfrom, hs.frames, fun d => ?_⟩
  · have hd : d ≠ c := by
      rintro rfl
      cases (Function.update_self ..).symm.trans h
    exact hs.sending d id' g' packet' ((Function.update_of_ne hd ..).symm.trans h)
  · obtain ⟨home, hhome⟩ := hs.home d
    by_cases hd : d = c
    · -- nothing of it was queued before, so its packet may go anywhere
      subst hd
      refine ⟨g, fun g' => ?_⟩
      have hpush := State.requests_push (s := s) g g' (.request d packet) d
      have hzero := hhome g'
      rw [hpc] at hzero
      have hnone : s.requests g' d = 0 := by
        split at hzero <;> simpa [Pc.sends] using hzero
      refine hpush.le.trans ?_
      simp only [State.setCall, Function.update_self, hnone]
      by_cases hg : g' = g <;> simp [hg, Item.isRequest, Pc.sends]
    · refine ⟨home, fun g' => ?_⟩
      have hpush := State.requests_push (s := s) g g' (.request c packet) d
      have hne : ¬ c = d := fun h => hd h.symm
      simp only [Item.isRequest, hne, decide_false, Bool.false_eq_true, and_false, if_false] at hpush
      refine hpush.le.trans ?_
      simp only [State.setCall, Function.update_of_ne hd]
      exact hhome g'

theorem write (hs : Shipped cfg j s) {item : Item} {rest : List Item} {packet : PacketEnvelope}
    {frame : Bytes} {random : Except String Nonce} (hq : s.queue g = item :: rest)
    (hpacket : item.packet? = some packet)
    (hframe : (cfg.sessionCodec g).encode cfg.libs random packet = .ok frame) :
    Shipped cfg j { s.setQueue g rest with
      written := Function.update s.written g (s.written g ++ [(item, frame)]) } := by
  refine hs.less rfl rfl (fun g' => (State.perm_write hq frame g').subperm) (fun g' item' frame' h => ?_)
  dsimp only at h
  by_cases hg : g' = g
  · subst hg
    rw [Function.update_self] at h
    rcases List.mem_append.mp h with h | h
    · exact .inl h
    · cases List.mem_singleton.mp h
      exact .inr ⟨random, packet, hpacket, hframe⟩
  · rw [Function.update_of_ne hg] at h
    exact .inl h

/-! #### Steps -/

theorem touch (hs : Shipped cfg j s) (h : Touch cfg s s') : Shipped cfg j s' := by
  have hreturns : ∀ (c : CallId) (r : Outcome), (s.calls c).sends ≤ (Pc.returned r).sends := by
    intro c r
    cases s.calls c <;> simp [Pc.sends]
  cases h with
  | alike h => exact hs.congr h.calls h.events h.queue h.written
  | trimmed h => exact hs.setQueue h
  | @pushed g item h =>
    cases item with
    | request => cases h
    | ack => cases h
    | _ => exact hs.push trivial (by simp [Item.isRequest])
  | drained => exact hs.congr rfl rfl rfl rfl
  | wrote hq hpacket hframe => exact hs.write hq hpacket hframe
  | sent hpc => exact hs.sendRequest hpc
  | dropped k id => exact hs.remove k id .closed
  | failed | received => exact hs.setCall _ (by simp) (hreturns _ _)
  | abandoned hpc hsends =>
    refine hs.setCall _ ?_ hsends
    rcases hpc with rfl | rfl <;> simp
  | handled hpc => exact hs.setEvent _ _ hpc
  | acked hpc => exact hs.push (hs.events _ _ _ _ hpc) (by simp [Item.isRequest])

theorem touches (hs : Shipped cfg j s) (h : Touches cfg s s') : Shipped cfg j s' := by
  induction h with
  | refl => exact hs
  | tail _ h ih => exact ih.touch h

theorem turn (hm : Matched j s) (hs : Shipped cfg j s) {a : Action} (h : Turn cfg s a s') :
    Shipped cfg (j.next s a) s' := by
  have hdraw : ∀ k, Shipped cfg (j.draw k) (s.draw k) := fun k =>
    have hgrows : j.Grows (j.draw k) := ⟨fun _ _ h => h, fun _ h => h⟩
    ((hs.remove k (s.next k + 1) .closed).grows hgrows).congr rfl rfl rfl rfl
  cases h with
  | apart ha h =>
    rw [Journal.next_of_apart _ _ ha]
    exact hs.touches h
  | refused hcon =>
    rw [Journal.next, hcon, if_neg (by simp)]
    exact hs.touch (.failed _ _ not_false)
  | @unsent c request hcon hw =>
    rw [Journal.next, if_pos hcon, hw, if_neg (by simp)]
    exact (hdraw c.kind).touch (.failed _ _ not_false)
  | @started c request g hcon hw hidle hkind =>
    rw [Journal.next, if_pos hcon, hw, if_pos (by simp)]
    have hmade : Shipped cfg ((j.draw c.kind).make c request) ((s.draw c.kind).enter c (s.next c.kind + 1)) :=
      ((hdraw c.kind).grows (Journal.grows_make (j := j.draw c.kind) (hm.idle c hidle) request)).congr
        rfl rfl rfl rfl
    refine hmade.setCall _ (fun id g' packet heq => ?_) ?_
    · cases heq
      refine ⟨_, request, Journal.make_self .., ?_⟩
      rw [Config.packet, Journal.draw_self, UInt64.ofNat_add, ← hm.next]
      rfl
    · simp [State.draw, State.enter, hidle, Pc.sends]
  | @answered g body t k id r h => exact (hs.grows (j.grows_hear g body)).remove k id _
  | @told g body t s' hbody h => exact (hs.grows (j.grows_hear g body)).touches h

end Shipped

theorem written_remove (s : State) (k : Kind) (id : UInt64) (cell : Cell) :
    (s.remove k id cell).written = s.written := by
  unfold State.remove
  split <;> rfl

theorem written_of_touches {cfg : Config} {s s' : State} (h : Touches cfg s s') (g : ℕ) :
    s.written g <+: s'.written g := by
  induction h with
  | refl => exact List.prefix_rfl
  | tail _ h ih =>
    refine ih.trans ?_
    cases h with
    | alike h => simp [h.written]
    | @wrote g' item rest packet frame =>
      by_cases hg : g = g'
      · subst hg
        simp
      · simp [hg]
    | dropped k id => simp [written_remove]
    | _ => exact List.prefix_rfl

/-- Frames are only ever added to what a socket was given. -/
theorem written_of_turn {cfg : Config} {s s' : State} {a : Action} (h : Turn cfg s a s') (g : ℕ) :
    s.written g <+: s'.written g := by
  cases h with
  | apart _ h | told _ h => exact written_of_touches h g
  | refused => exact List.prefix_rfl
  | unsent | started | answered =>
    simp [State.draw, State.enter, State.setCall, written_remove]

end Wscall.Client.Traffic
