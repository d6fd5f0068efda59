import Wscall.Server.Course

/-!
# From the read to the wire

The course of a message over whole runs: it starts where the message is read, and while the
connection is served its own tasks can bring it to an end.
-/

namespace Wscall.Server
open RustStd Protocol

section Runs

variable {W : Type} {setup : Setup W} {s s' : State} {a : Action W} {c : String} {body : PacketBody}
  {k : Course W} {intake : WscallServer.Intake}

/-- What a server can come to. -/
def Reachable (setup : Setup W) (s : State) : Prop :=
  ∃ actions, Machine.run (Wscall.Server.step setup) actions (State.init setup) = some s

theorem Reachable.step (h : Reachable setup s) (hs : Wscall.Server.step setup a s = some s') :
    Reachable setup s' := by
  obtain ⟨actions, hrun⟩ := h
  refine ⟨actions ++ [a], ?_⟩
  rw [Machine.run_append, hrun, Option.bind_some, Machine.run, hs]
  rfl

structure Follows (setup : Setup W) (c : String) (body : PacketBody) (intake : WscallServer.Intake)
    (x : State × Course W) : Prop where
  reachable : Reachable setup x.1
  started : (x.1.conns c).phase.Started
  place : x.2.At setup c body x.1 intake

theorem Follows.step {x y : State × Course W} (h : Follows setup c body intake x)
    (hs : tracked setup c a x = some y) : Follows setup c body intake y := by
  obtain ⟨hstep, hnext⟩ := Machine.noting_eq_some hs
  obtain ⟨actions, hrun⟩ := h.reachable
  refine ⟨h.reachable.step hstep, (started_of_move (move_of_step hstep) h.started).1, ?_⟩
  rw [hnext]
  exact h.place.step h.started (listed_run hrun) hstep

theorem Follows.run {x y : State × Course W} {actions : List (Action W)}
    (h : Follows setup c body intake x) (hrun : Machine.run (tracked setup c) actions x = some y) :
    Follows setup c body intake y :=
  Machine.run_invariant (fun _ _ _ hx hs => hx.step hs) hrun h

theorem Follows.reaches {x y : State × Course W} {P : State × Course W → Action W → Prop}
    (h : Follows setup c body intake x) (hr : Machine.Reaches (tracked setup c) P x y) :
    Follows setup c body intake y :=
  hr.invariant (fun _ _ _ hx hs => hx.step hs) h

/-! ### The read -/

/-- What the reader makes of a binary message that is rejected by its header, a request or an
event. -/
inductive Takes (setup : Setup W) (s : State) (c : String) (codec : FrameCodec) (now : ℕ)
    (bytes : Bytes) : PacketBody → WscallServer.Intake → Prop
  | header {body code text} (h : fastReject setup.server.maxFrameBytes bytes = some (code, text)) :
      Takes setup s c codec now bytes body
        (.answer (frameErrorPacket 0 code text setup.server.defaultEncryption))
  | data {p} (hfast : fastReject setup.server.maxFrameBytes bytes = none)
      (hd : codec.decode setup.libs bytes = .ok p)
      (hdata : WscallServer.isDataMessage p.body = true) :
      Takes setup s c codec now bytes p.body
        (intakeOf setup s.limiter c (s.conns c).peer now bytes p.body)

theorem reads_of_step {codec : FrameCodec} {message : Option WsMessage} {now : ℕ}
    {random : Except String Nonce} (hp : (s.conns c).phase = .reading)
    (hc : (s.conns c).codec = some codec)
    (hs : step setup (.conn c (.received message now random)) s = some s') :
    Reads setup s c codec now random message (s'.conns c).phase ∧ s'.clients = s.clients ∨
      Hangs setup codec message := by
  have hm := move_of_step hs
  generalize ha : Action.conn c (.received message now random) = a at hm
  cases hm with
  | shook h | entered h =>
    cases ha
    have hshake := h.handshake
    rw [hp] at hshake
    exact hshake.elim
  | read _ hc' h =>
    cases ha
    rw [hc] at hc'
    cases hc'
    rw [State.setConn_self]
    exact .inl ⟨h, rfl⟩
  | hungUp _ hc' h =>
    cases ha
    rw [hc] at hc'
    cases hc'
    exact .inr h
  | aside haside =>
    subst ha
    exact haside.elim
  | _ => cases ha

theorem intakeOf_ne_inline {limiter : Option RateLimiterState} {peer : SocketAddr} {now : ℕ}
    {bytes : Bytes} (hdata : WscallServer.isDataMessage body = true) :
    intakeOf setup limiter c peer now bytes body ≠ .inline := by
  unfold intakeOf WscallServer.intake
  rw [if_pos hdata]
  split
  · simp
  · simp
  · cases body with
    | apiRequest | eventEmit => simp [WscallServer.busyAnswer]
    | _ => cases hdata

section Start

variable {codec : FrameCodec} {bytes : Bytes} {now : ℕ} {random : Except String Nonce}

theorem at_unqueueable {packet : PacketEnvelope} (hp : (s'.conns c).phase = .reading)
    (hin : (s'.clients c).isSome = true) (hno : Unqueueable setup s c random packet) :
    (Course.start c s s' random : Course W).At setup c body s' (.answer packet) := by
  have hstart : (Course.start c s s' random : Course W) =
      ⟨.gone, none, some (s, random), none, [], none, [], some s'⟩ := by
    simp only [Course.start, hp]
  rw [hstart]
  exact .ended (.refused rfl (.dropped rfl hno rfl rfl) ⟨s', rfl, hp, hin⟩) (.lost rfl rfl rfl)

theorem at_refused {packet : PacketEnvelope} {item : ServerOutbound}
    (hp : (s'.conns c).phase = .queueing item) (hin : (s.clients c).isSome = true)
    (hitem : setup.server.handle.outbound setup.libs random packet = .ok item) :
    (Course.start c s s' random : Course W).At setup c body s' (.answer packet) := by
  have hstart : (Course.start c s s' random : Course W) =
      ⟨.reader, none, some (s, random), none, [], none, [], none⟩ := by
    simp only [Course.start, hp]
  rw [hstart]
  exact .refused rfl hp rfl ⟨s, random, rfl, hin, hitem⟩ ⟨rfl, rfl, rfl, rfl⟩

theorem at_acquiring (hp : (s'.conns c).phase = .acquiring body) :
    (Course.start c s s' random : Course W).At setup c body s' .spawn := by
  have hstart : (Course.start c s s' random : Course W) =
      ⟨.reader, none, none, none, [], none, [], none⟩ := by
    simp only [Course.start, hp]
  rw [hstart]
  exact .waiting rfl hp rfl ⟨rfl, rfl, rfl, rfl⟩

theorem at_unwound (hp : (s'.conns c).phase = .ended) :
    (Course.start c s s' random : Course W).At setup c body s' .unwind := by
  have hstart : (Course.start c s s' random : Course W) =
      ⟨.gone, none, some (s, random), none, [], none, [], some s'⟩ := by
    simp only [Course.start, hp]
  rw [hstart]
  exact .ended (.unwound rfl rfl) (.lost rfl rfl rfl)

theorem at_header (hin : (s.clients c).isSome = true) {code text : String}
    (hfast : fastReject setup.server.maxFrameBytes bytes = some (code, text))
    (hreads : Reads setup s c codec now random (some (.binary bytes)) (s'.conns c).phase)
    (hclients : s'.clients = s.clients) :
    (Course.start c s s' random : Course W).At setup c body s'
      (.answer (frameErrorPacket 0 code text setup.server.defaultEncryption)) := by
  have hrefusal : ∀ {packet}, Refusal setup s.limiter c (s.conns c).peer codec now (.binary bytes)
      packet → packet = frameErrorPacket 0 code text setup.server.defaultEncryption := by
    intro packet h
    cases h with
    | header h =>
      rw [hfast] at h
      cases h
      rfl
    | limited h =>
      rw [hfast] at h
      cases h
  generalize hp' : (s'.conns c).phase = p' at hreads
  cases hreads with
  | ignored h => exact h.elim
  | dropped h hno =>
    cases hrefusal h
    exact at_unqueueable hp' (hclients ▸ hin) hno
  | refused h _ hitem =>
    cases hrefusal h
    exact at_refused hp' hin hitem
  | inline h | data h =>
    rw [hfast] at h
    cases h
  | unwound h =>
    rw [h.1] at hfast
    cases hfast

theorem at_data (hin : (s.clients c).isSome = true) {p : PacketEnvelope}
    (hfast : fastReject setup.server.maxFrameBytes bytes = none)
    (hd : codec.decode setup.libs bytes = .ok p)
    (hdata : WscallServer.isDataMessage p.body = true)
    (hreads : Reads setup s c codec now random (some (.binary bytes)) (s'.conns c).phase)
    (hclients : s'.clients = s.clients) :
    (Course.start c s s' random : Course W).At setup c p.body s'
      (intakeOf setup s.limiter c (s.conns c).peer now bytes p.body) := by
  have hdec : ∀ {p'}, codec.decode setup.libs bytes = .ok p' → p' = p := by
    intro p' h
    rw [hd] at h
    cases h
    rfl
  have hrefusal : ∀ {packet}, Refusal setup s.limiter c (s.conns c).peer codec now (.binary bytes)
      packet → intakeOf setup s.limiter c (s.conns c).peer now bytes p.body = .answer packet := by
    intro packet h
    cases h with
    | header h =>
      rw [hfast] at h
      cases h
    | limited _ hd' h =>
      cases hdec hd'
      exact h
  generalize hp' : (s'.conns c).phase = p' at hreads
  cases hreads with
  | ignored h => exact h.elim
  | inline _ hd' h =>
    cases hdec hd'
    exact absurd h (intakeOf_ne_inline hdata)
  | dropped h hno =>
    rw [hrefusal h]
    exact at_unqueueable hp' (hclients ▸ hin) hno
  | refused h _ hitem =>
    rw [hrefusal h]
    exact at_refused hp' hin hitem
  | data _ hd' h =>
    cases hdec hd'
    rw [h]
    exact at_acquiring hp'
  | unwound h =>
    rcases h.2 with hpanic | ⟨p', hd', hunwind⟩
    · rw [hd] at hpanic
      cases hpanic
    · cases hdec hd'
      rw [intakeOf, hunwind]
      exact at_unwound hp'

theorem at_start (hlisted : Listed s) (hp : (s.conns c).phase = .reading)
    (hc : (s.conns c).codec = some codec) (ht : Takes setup s c codec now bytes body intake)
    (hs : step setup (.conn c (.received (some (.binary bytes)) now random)) s = some s') :
    (Course.start c s s' random : Course W).At setup c body s' intake := by
  have hin : (s.clients c).isSome = true := hlisted c (hp ▸ trivial)
  rcases reads_of_step hp hc hs with ⟨hreads, hclients⟩ | hhangs
  · cases ht with
    | header hfast => exact at_header hin hfast hreads hclients
    | data hfast hd hdata => exact at_data hin hfast hd hdata hreads hclients
  · cases hhangs with
    | undecodable hfast' hd' =>
      cases ht with
      | header hfast =>
        rw [hfast] at hfast'
        cases hfast'
      | data _ hd =>
        rw [hd] at hd'
        cases hd'

theorem follows_start (hreach : Reachable setup s) (hp : (s.conns c).phase = .reading)
    (hc : (s.conns c).codec = some codec) (ht : Takes setup s c codec now bytes body intake)
    (hs : step setup (.conn c (.received (some (.binary bytes)) now random)) s = some s') :
    Follows setup c body intake (s', Course.start c s s' random) := by
  obtain ⟨actions, hrun⟩ := hreach
  have hstarted : (s.conns c).phase.Started := by
    rw [hp]
    exact ⟨Phase.not_outside (by simp) not_false, (by simp)⟩
  exact ⟨Reachable.step ⟨actions, hrun⟩ hs, (started_of_move (move_of_step hs) hstarted).1,
    at_start (listed_run hrun) hp hc ht hs⟩

end Start

/-! ### It comes to an end -/

/-- A task keeps its message until it has let go of it. -/
theorem Course.next_task {t : ℕ} (h : k.holder = .task t ∨ k.holder.Settled) :
    (k.next c a s s').holder = .task t ∨ (k.next c a s s').holder.Settled := by
  have hheld : ∀ pc, Course.heldBy t pc = .task t ∨ (Course.heldBy t pc).Settled := by
    intro pc
    cases pc with
    | finished => exact .inr trivial
    | _ => exact .inl rfl
  have hhand : ∀ items, (k.hand c s items).holder.Settled := by
    intro items
    unfold Course.hand
    dsimp only
    split <;> trivial
  rcases h with hh | hh
  · unfold Course.next
    rw [hh]
    cases a with
    | task u op =>
      dsimp only
      split
      · cases op with
        | run w => exact hheld _
        | queue random => exact hheld _
        | send => exact .inr (hhand _)
      · exact .inl hh
    | _ => exact .inl hh
  · refine .inr ?_
    unfold Course.next
    generalize hholder : k.holder = holder at hh
    have hdead : (k.unlessDead c s').holder.Settled := by
      unfold Course.unlessDead
      split
      · rw [hholder]
        exact hh
      · trivial
    cases holder with
    | reader | task => exact hh.elim
    | gone =>
      dsimp only
      rw [hholder]
      trivial
    | queue n =>
      dsimp only
      unfold Course.inQueue
      split
      · split
        · cases n with
          | zero => trivial
          | succ n =>
            simp only [Course.byWriter]
            split <;> trivial
        · exact hdead
      · exact hdead

theorem tracked_of_reaches (hr : Machine.Reaches (step setup) (Own c) s s') (k : Course W) :
    ∃ k', Machine.Reaches (tracked setup c) (fun x => Own c x.1) (s, k) (s', k') :=
  hr.noting k

/-- A task that has finished holds no message. -/
theorem Course.At.holder_ne {t : ℕ} (h : k.At setup c body s intake)
    (hpc : (s.tasks t).pc = .finished) : k.holder ≠ .task t := by
  intro hh
  cases h with
  | refused hh' | waiting hh' =>
    rw [hh'] at hh
    cases hh
  | spawned hh' ht | answering hh' ht | sending hh' ht =>
    rw [hh'] at hh
    cases hh
    rw [ht] at hpc
    cases hpc
  | ended _ hship =>
    have hsettled := hship.settled
    rw [hh] at hsettled
    exact hsettled

theorem mem_handlers {t : ℕ} {pc : TaskPc} (ht : s.tasks t = ⟨c, body, pc⟩) (hpc : pc.Running) :
    t ∈ s.handlers c := by
  rw [State.handlers, Set.mem_ofPred_eq, ht]
  exact ⟨hpc, rfl⟩

/-- The connection's tasks can get a handler to let go of the message. -/
theorem Follows.settles_task [Nonempty W] (h : Follows setup c body intake (s, k)) {t : ℕ}
    (hh : k.holder = .task t) (ht : t ∈ s.handlers c) (hp : (s.conns c).phase.Served) :
    ∃ y, Machine.Reaches (tracked setup c) (fun x => Own c x.1) (s, k) y ∧ y.2.holder.Settled := by
  obtain ⟨actions, hrun⟩ := h.reachable
  obtain ⟨s₁, hr, -, -, hpc⟩ := (waiting_run hrun).frees ht hp h.started.2
  obtain ⟨k₁, hr₁⟩ := tracked_of_reaches hr k
  have hkept : k₁.holder = .task t ∨ k₁.holder.Settled := by
    refine Machine.Reaches.invariant (I := fun x : State × Course W =>
      x.2.holder = .task t ∨ x.2.holder.Settled) (fun a x y hx hs => ?_) hr₁ (.inl hh)
    rw [(Machine.noting_eq_some hs).2]
    exact Course.next_task hx
  exact ⟨(s₁, k₁), hr₁, hkept.resolve_left ((h.reaches hr₁).place.holder_ne hpc)⟩

theorem Follows.settles_past [Nonempty W] (h : Follows setup c body intake (s, k))
    (hh : k.holder ≠ .reader) (hp : (s.conns c).phase.Served) :
    ∃ y, Machine.Reaches (tracked setup c) (fun x => Own c x.1) (s, k) y ∧ y.2.holder.Settled := by
  cases h.place with
  | refused hh' | waiting hh' => exact absurd hh' hh
  | spawned hh' ht | answering hh' ht | sending hh' ht =>
    exact h.settles_task hh' (mem_handlers ht trivial) hp
  | ended _ hship => exact ⟨(s, k), .refl _, hship.settled⟩

/-- The reader queues what it holds, or gets its permit. -/
theorem Follows.leaves_reader [Nonempty W] (h : Follows setup c body intake (s, k))
    (hcap : intake = .spawn → 0 < setup.server.maxInFlight) (hp : (s.conns c).phase.Served) :
    ∃ s' k', Machine.Reaches (tracked setup c) (fun x => Own c x.1) (s, k) (s', k') ∧
      k'.holder ≠ .reader ∧ (s'.conns c).phase.Served := by
  obtain ⟨actions, hrun⟩ := h.reachable
  have hfree : Comes setup c s (· = .reading) → ∃ s' k',
      Machine.Reaches (tracked setup c) (fun x => Own c x.1) (s, k) (s', k') ∧
        k'.holder ≠ .reader ∧ (s'.conns c).phase.Served := by
    rintro ⟨s₁, hr, hread⟩
    obtain ⟨k₁, hr₁⟩ := tracked_of_reaches hr k
    refine ⟨s₁, k₁, hr₁, fun hreader => ?_, by rw [hread]; trivial⟩
    have hreading : (s₁.conns c).phase = .reading := hread
    cases (h.reaches hr₁).place with
    | refused _ hp₁ | waiting _ hp₁ =>
      rw [hreading] at hp₁
      cases hp₁
    | spawned hh | answering hh | sending hh =>
      rw [hreader] at hh
      cases hh
    | ended _ hship =>
      have hsettled := hship.settled
      rw [hreader] at hsettled
      exact hsettled
  cases h.place with
  | refused _ hp' => exact hfree ((waiting_run hrun).comes_queueing hp')
  | waiting _ hp' => exact hfree ((waiting_run hrun).comes_acquiring (hcap rfl) hp')
  | spawned hh | answering hh | sending hh =>
    exact ⟨s, k, .refl _, by rw [show k.holder = _ from hh]; simp, hp⟩
  | ended _ hship =>
    refine ⟨s, k, .refl _, fun hreader => ?_, hp⟩
    have hsettled := hship.settled
    rw [show k.holder = _ from hreader] at hsettled
    exact hsettled

/-- While the connection is served, its tasks can get everyone to let go of the message. -/
theorem Follows.settles [Nonempty W] (h : Follows setup c body intake (s, k))
    (hcap : 0 < setup.server.maxInFlight) (hp : (s.conns c).phase.Served) :
    ∃ y, Machine.Reaches (tracked setup c) (fun x => Own c x.1) (s, k) y ∧ y.2.holder.Settled := by
  obtain ⟨s₁, k₁, hr, hh, hp₁⟩ := h.leaves_reader (fun _ => hcap) hp
  obtain ⟨y, hr', hsettled⟩ := (h.reaches hr).settles_past hh hp₁
  exact ⟨y, hr.trans hr', hsettled⟩

theorem Follows.writes (h : Follows setup c body intake (s, k)) (hp : (s.conns c).phase.Served)
    {n : ℕ} (hh : k.holder = .queue n) :
    ∃ s', Wscall.Server.step setup (.writer c (.next (.error "") true)) s = some s' := by
  cases h.place with
  | refused hh' | waiting hh' | spawned hh' | answering hh' | sending hh' =>
    rw [show k.holder = _ from hh'] at hh
    cases hh
  | ended _ hship =>
    cases hship with
    | taken hh' | lost hh' =>
      rw [show k.holder = _ from hh'] at hh
      cases hh
    | @queued m item _ _ hpos halive =>
      obtain ⟨actions, hrun⟩ := h.reachable
      have hwait := waiting_run hrun
      have hw := hwait.writing h.started.2 halive
      obtain ⟨codec, hc⟩ := Option.isSome_iff_exists.mp (hwait.keyed c hp.late.1 hp.late.2)
      dsimp only at hpos hw hc
      cases hq : (s.conns c).channel.queue with
      | nil =>
        rw [hq] at hpos
        cases hpos
      | cons first rest =>
        simp only [Wscall.Server.step, stepWriter, hw, hq, hc, if_true]
        exact ⟨_, rfl⟩

/-- The writer gets to an item in the queue, or ends before. -/
theorem Follows.ships (h : Follows setup c body intake (s, k)) (hp : (s.conns c).phase.Served)
    {n : ℕ} (hh : k.holder = .queue n) :
    ∃ y, Machine.Reaches (tracked setup c) (fun x => Own c x.1) (s, k) y ∧ y.2.holder = .gone := by
  -- each turn of the writer takes one item from before it
  induction n generalizing s k with
  | zero =>
    obtain ⟨s₁, hs⟩ := h.writes hp hh
    have hstep : tracked setup c _ (s, k) = some _ := Machine.noting_of_step hs k
    refine ⟨_, .head hstep ⟨rfl, _, rfl⟩ (.refl _), ?_⟩
    simp only [Course.next, hh, Course.inQueue, if_true, Course.byWriter]
  | succ n ih =>
    obtain ⟨s₁, hs⟩ := h.writes hp hh
    have hstep : tracked setup c _ (s, k) = some _ := Machine.noting_of_step hs k
    have hp₁ : (s₁.conns c).phase = (s.conns c).phase :=
      (unread_of_move (move_of_step hs) (by simp)).phase
    have hnext : (k.next c (.writer c (.next (.error "") true)) s s₁).holder =
        if (s₁.conns c).channel.alive then .queue n else .gone := by
      simp only [Course.next, hh, Course.inQueue, if_true, Course.byWriter]
    cases halive : (s₁.conns c).channel.alive with
    | true =>
      rw [halive, if_pos rfl] at hnext
      obtain ⟨y, hr, hgone⟩ := ih (h.step hstep) (hp₁ ▸ hp) hnext
      exact ⟨y, .head hstep ⟨rfl, _, rfl⟩ hr, hgone⟩
    | false =>
      rw [halive, if_neg (by simp)] at hnext
      exact ⟨_, .head hstep ⟨rfl, _, rfl⟩ (.refl _), hnext⟩

end Runs

end Wscall.Server
