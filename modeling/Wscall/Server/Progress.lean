import Mathlib.Data.Set.Finite.Basic
import Wscall.Server.Delivery
import Wscall.Server.InFlight
import Wscall.Server.Steps

/-!
# Backpressure does not lock up (`server_runtime.rs:943-977`, `1118-1155`)

The reader waits for a permit or for room in the queue, the handlers that hold the permits wait
for room in the same queue, and the writer makes room. From every state the connection's own
tasks can get the reader back to its loop.
-/

namespace Wscall.Server
open RustStd Protocol

section Progress

variable {W : Type} {setup : Setup W} {s s' : State} {c : String}

/-- Steps of a connection's tasks on a socket that accepts what is sent. -/
def Own (c : String) (s : State) : Action W → Prop
  | .conn d op => d = c ∧ (op = .queued ∨ (∃ t, op = .acquired t) ∨ ∃ random, op = .notified random)
  | .writer d op => d = c ∧ ∃ random, op = .next random true
  | .task t _ => (s.tasks t).connectionId = c
  | _ => False

/-! ### What is true while tasks wait -/

/-- From the key exchange on there is a session codec. -/
def SessionKeyed (s : State) : Prop :=
  ∀ c, ¬ (s.conns c).phase.Early → (s.conns c).phase ≠ .ended → (s.conns c).codec.isSome = true

theorem SessionKeyed.conn (h : SessionKeyed s) (c : String) (hne : ∀ d, d ≠ c → s'.conns d = s.conns d)
    (hc : ¬ (s'.conns c).phase.Early → (s'.conns c).phase ≠ .ended →
      (s'.conns c).codec.isSome = true) : SessionKeyed s' := by
  intro d
  by_cases hdc : d = c
  · exact hdc ▸ hc
  · rw [hne d hdc]
    exact h d

theorem SessionKeyed.of_codec (h : SessionKeyed s) (c : String) (hne : ∀ d, d ≠ c → s'.conns d = s.conns d)
    (hc : (s'.conns c).codec = (s.conns c).codec)
    (hp : (s'.conns c).phase = (s.conns c).phase ∨
      ¬ (s.conns c).phase.Early ∧ (s.conns c).phase ≠ .ended) : SessionKeyed s' := by
  refine h.conn c hne fun hearly hended => ?_
  rw [hc]
  rcases hp with hp | hp
  · exact h c (hp ▸ hearly) (hp ▸ hended)
  · exact h c hp.1 hp.2

theorem SessionKeyed.shaken (h : SessionKeyed s) {conn : Conn} (hshaken : Shaken (s.conns c) conn)
    (hp : (s.conns c).phase.Handshake) (hearly : ¬ conn.phase.Early) (hended : conn.phase ≠ .ended) :
    conn.codec.isSome = true := by
  by_cases hold : (s.conns c).phase.Early
  · rcases hshaken.session hold with he | he | he
    · exact absurd he hearly
    · exact absurd he hended
    · exact he
  · rcases hshaken.codec with hcodec | he
    · rw [hcodec]
      refine h c hold fun he => ?_
      rw [he] at hp
      exact hp
    · exact absurd he hold

theorem SessionKeyed.move {a : Action W} (h : SessionKeyed s) (hm : Move setup s a s') : SessionKeyed s' := by
  cases hm with
  | @accepted c peer now limiter phase hp hphase =>
    refine h.conn c (fun d hd => State.setConn_of_ne _ hd _) ?_
    rw [State.setConn_self]
    rcases hphase with rfl | rfl
    · exact fun hearly => absurd trivial hearly
    · exact fun _ hended => absurd rfl hended
  | @shook c op conn hs =>
    refine h.conn c (fun d hd => State.setConn_of_ne _ hd _) ?_
    rw [State.setConn_self]
    exact h.shaken hs.shaken hs.handshake
  | @entered c op conn w output hs hin =>
    refine h.conn c (fun d hd => by simp only [enter, State.setConn_of_ne _ hd]) fun _ _ => ?_
    simp only [enter, State.setConn_self]
    exact h.shaken hs.shaken hs.handshake (hs.late hin).1 (hs.late hin).2
  | @greeted c random item hp hitem halive hroom =>
    refine h.of_codec c (fun d hd => State.setConn_of_ne _ hd _) (by rw [State.setConn_self]) (.inr ?_)
    rw [hp]
    exact ⟨not_false, (by simp)⟩
  | @ungreeted c random hp =>
    refine h.of_codec c (fun d hd => by simp only [teardown, State.setConn_of_ne _ hd])
      (by simp only [teardown, State.setConn_self]) (.inr ?_)
    rw [hp]
    exact ⟨not_false, (by simp)⟩
  | @read c codec message now random limiter phase hp hc hreads =>
    refine h.of_codec c (fun d hd => State.setConn_of_ne _ hd _) (by rw [State.setConn_self]) (.inr ?_)
    rw [hp]
    exact ⟨not_false, (by simp)⟩
  | @hungUp c codec message now random hp =>
    refine h.of_codec c (fun d hd => by simp only [teardown, State.logged, State.setConn_of_ne _ hd])
      (by simp only [teardown, State.logged, State.setConn_self]) (.inr ?_)
    rw [hp]
    exact ⟨not_false, (by simp)⟩
  | @queued c item hp halive hroom =>
    refine h.of_codec c (fun d hd => State.setConn_of_ne _ hd _) (by rw [State.setConn_self]) (.inr ?_)
    generalize (s.conns c).phase = p at hp
    cases p <;> first | (cases hp; done) | exact ⟨not_false, (by simp)⟩
  | @unqueued c item hp hdead =>
    refine h.of_codec c (fun d hd => State.setConn_of_ne _ hd _)
      (by rw [State.setPhase, State.setConn_self]) (.inr ?_)
    rw [hp]
    exact ⟨not_false, (by simp)⟩
  | @unponged c payload hp hdead =>
    refine h.of_codec c (fun d hd => by simp only [teardown, State.setConn_of_ne _ hd])
      (by simp only [teardown, State.setConn_self]) (.inr ?_)
    rw [hp]
    exact ⟨not_false, (by simp)⟩
  | @acquired c t body hp ht hroom =>
    refine h.of_codec c (fun d hd => State.setConn_of_ne _ hd _) (by rw [State.setConn_self]) (.inr ?_)
    rw [hp]
    exact ⟨not_false, (by simp)⟩
  | @graceOver c hp =>
    refine h.of_codec c (fun d hd => State.setConn_of_ne _ hd _) (by rw [State.setConn_self]) (.inr ?_)
    rw [hp]
    exact ⟨not_false, (by simp)⟩
  | @ticked c _ | @stopped c _ _ | @wrote c _ _ _ _ _ _ _ _ _ _ | @delivered _ _ c _ _ _ _ _ _ =>
    refine h.of_codec c (fun d hd => State.setConn_of_ne _ hd _) ?_ (.inl ?_) <;>
      simp only [State.pushWire, State.setConn_self]
  | ran | encoded => exact h
  | @answered t item ht halive hroom =>
    refine h.of_codec (s.tasks t).connectionId (fun d hd => ?_) ?_ (.inl ?_)
    · simp only [finishTask, State.setTask, State.setConn_of_ne _ hd]
    · simp only [finishTask, State.setTask, State.setConn_self]
    · simp only [finishTask, State.setTask, State.setConn_self]
  | @finished t op calls ht =>
    refine h.of_codec (s.tasks t).connectionId (fun d hd => ?_) ?_ (.inl ?_)
    · simp only [finishTask, State.setTask, State.setConn_of_ne _ hd]
    · simp only [finishTask, State.setTask, State.setConn_self]
    · simp only [finishTask, State.setTask, State.setConn_self]
  | aside ha hpushes => exact h

/-- The task slots in use. -/
def State.started (s : State) : Set ℕ := {t | (s.tasks t).pc ≠ .absent}

theorem started_setTask (h : s.started.Finite) (t : ℕ) (task : HandlerTask) :
    (s.setTask t task).started.Finite := by
  refine (h.insert t).subset fun u hu => ?_
  by_cases hut : u = t
  · exact .inl hut
  · refine .inr ?_
    simpa [State.started, State.setTask, hut] using hu

theorem started_move {a : Action W} (h : s.started.Finite) (hm : Move setup s a s') :
    s'.started.Finite := by
  cases hm with
  | @acquired c t body hp ht hroom => exact started_setTask h t _
  | @ran t w packet => exact started_setTask h t { s.tasks t with pc := .answering packet }
  | @encoded t random packet item => exact started_setTask h t _
  | @answered t item ht halive hroom => exact started_setTask h t { s.tasks t with pc := .finished }
  | @finished t op calls ht => exact started_setTask h t { s.tasks t with pc := .finished }
  | _ => exact h

structure Waiting (setup : Setup W) (s : State) : Prop where
  permits : Permits setup.server.maxInFlight s
  ordered : ∀ c, ∃ accepted, Ordered setup.libs accepted (s.conns c)
  keyed : SessionKeyed s
  started : s.started.Finite

theorem waiting_init : Waiting setup (State.init setup) where
  permits := permits_init
  ordered c := ⟨[], ordered_init setup.libs c⟩
  keyed _ hearly := absurd trivial hearly
  started := by
    have hnone : (State.init setup).started = ∅ :=
      Set.eq_empty_of_forall_notMem fun _ ht => ht rfl
    rw [hnone]
    exact Set.finite_empty

theorem Waiting.step {a : Action W} (h : Waiting setup s) (hs : step setup a s = some s') :
    Waiting setup s' := by
  have hm := move_of_step hs
  refine ⟨h.permits.move hm, fun c => ?_, h.keyed.move hm, started_move h.started hm⟩
  obtain ⟨accepted, hord⟩ := h.ordered c
  exact ⟨_, hord.move (observes_move hm c)⟩

/-! ### The reader gets back to its loop -/

/-- A served connection past its notification: its writer runs while the queue is open. -/
theorem Waiting.writing (h : Waiting setup s) (hn : (s.conns c).phase ≠ .notifying)
    (halive : (s.conns c).channel.alive = true) : (s.conns c).channel.writing = true := by
  obtain ⟨accepted, hord⟩ := h.ordered c
  rcases hord.writer halive with hw | hnot
  · exact hw
  · exact absurd hnot hn

theorem Phase.Served.late {p : Phase} (h : p.Served) : ¬ p.Early ∧ p ≠ .ended := by
  cases p <;> first | exact h.elim | exact ⟨not_false, (by simp)⟩

/-- What the tasks of a connection leave as it was while they make room. -/
structure Undisturbed (c : String) (s s' : State) : Prop where
  phase : (s'.conns c).phase = (s.conns c).phase
  inFlight : (s'.conns c).inFlight = (s.conns c).inFlight
  tasks : s'.tasks = s.tasks
  clients : s'.clients = s.clients

/-- If the queue is full, the writer takes an item from it. -/
theorem Waiting.makeRoom (h : Waiting setup s) (hp : (s.conns c).phase.Served)
    (hn : (s.conns c).phase ≠ .notifying) :
    ∃ s', Machine.Reaches (Wscall.Server.step setup) (Own c) s s' ∧ Undisturbed c s s' ∧
      ((s'.conns c).channel.alive = true → (s'.conns c).channel.hasRoom = true) := by
  by_cases hopen : (s.conns c).channel.alive = true → (s.conns c).channel.hasRoom = true
  · exact ⟨s, .refl s, ⟨rfl, rfl, rfl, rfl⟩, hopen⟩
  · obtain ⟨halive, hfull⟩ := Classical.not_imp.mp hopen
    have hw := h.writing hn halive
    obtain ⟨codec, hc⟩ := Option.isSome_iff_exists.mp (h.keyed c hp.late.1 hp.late.2)
    obtain ⟨accepted, hord⟩ := h.ordered c
    have hbound := hord.bounded
    cases hq : (s.conns c).channel.queue with
    | nil => simp [Channel.hasRoom, hq, Channel.capacity] at hfull
    | cons item rest =>
      obtain ⟨⟨message, goesOn⟩, hm⟩ : ∃ out, writeItem setup.libs codec (.error "") item = out := ⟨_, rfl⟩
      have hstep : Wscall.Server.step setup (.writer c (.next (.error "") true)) s =
          some (s.setConn c { s.conns c with
            sent := (s.conns c).sent ++ message.toList
            channel := if goesOn then { (s.conns c).channel with queue := rest }
              else ⟨[], false, false⟩ }) := by
        simp only [Wscall.Server.step, stepWriter, hw, hq, hc, hm, if_true]
      refine ⟨_, .head hstep ⟨rfl, _, rfl⟩ (.refl _), ⟨?_, ?_, rfl, rfl⟩, ?_⟩ <;>
        rw [State.setConn_self]
      rw [hq, List.length_cons] at hbound
      cases goesOn with
      | true => exact fun _ => decide_eq_true hbound
      | false => simp

/-- The connection's own tasks can finish a handler's and give its permit back while the reader
waits. -/
def Frees (setup : Setup W) (c : String) (t : ℕ) (s : State) : Prop :=
  ∃ s', Machine.Reaches (Wscall.Server.step setup) (Own c) s s' ∧
    (s'.conns c).phase = (s.conns c).phase ∧ (s'.conns c).inFlight = (s.conns c).inFlight - 1 ∧
    (s'.tasks t).pc = .finished

theorem Frees.of_reaches {t : ℕ} (hr : Machine.Reaches (Wscall.Server.step setup) (Own c) s s')
    (hphase : (s'.conns c).phase = (s.conns c).phase)
    (hn : (s'.conns c).inFlight = (s.conns c).inFlight) (h : Frees setup c t s') :
    Frees setup c t s := by
  obtain ⟨u, hr', hphase', hn', hpc⟩ := h
  exact ⟨u, hr.trans hr', hphase'.trans hphase, by rw [hn', hn], hpc⟩

theorem frees_of_finish {t : ℕ} {op : TaskOp W} {s₁ : State}
    (hs : Wscall.Server.step setup (.task t op) s = some (finishTask s₁ t (s.tasks t)))
    (hconn : (s.tasks t).connectionId = c) (hphase : (s₁.conns c).phase = (s.conns c).phase)
    (hn : (s₁.conns c).inFlight = (s.conns c).inFlight) : Frees setup c t s := by
  refine ⟨_, .head hs hconn (.refl _), ?_, ?_, ?_⟩ <;> subst hconn <;>
    simp only [finishTask, State.setTask, State.setConn_self]
  · exact hphase
  · rw [hn]
  · simp only [State.setConn, Function.update_self]

theorem Waiting.frees_sending (h : Waiting setup s) {t : ℕ}
    (hconn : (s.tasks t).connectionId = c) (hp : (s.conns c).phase.Served)
    (hn : (s.conns c).phase ≠ .notifying) {item : ServerOutbound}
    (hpc : (s.tasks t).pc = .sending item) : Frees setup c t s := by
  obtain ⟨s₁, hr, hsame, hopen⟩ := h.makeRoom hp hn
  refine .of_reaches hr hsame.phase hsame.inFlight ?_
  have hconn₁ : (s₁.tasks t).connectionId = c := by rw [hsame.tasks, hconn]
  have hpc₁ : (s₁.tasks t).pc = .sending item := by rw [hsame.tasks, hpc]
  cases halive : (s₁.conns c).channel.alive with
  | true =>
    have hstep : Wscall.Server.step setup (.task t .send) s₁ = some (finishTask (s₁.setConn c
        { s₁.conns c with channel := (s₁.conns c).channel.push item }) t (s₁.tasks t)) := by
      simp only [Wscall.Server.step, hpc₁, stepTask, hconn₁, halive, hopen halive, if_true]
    refine frees_of_finish hstep hconn₁ ?_ ?_ <;> rw [State.setConn_self]
  | false =>
    have hstep : Wscall.Server.step setup (.task t .send) s₁ =
        some (finishTask s₁ t (s₁.tasks t)) := by
      simp only [Wscall.Server.step, hpc₁, stepTask, hconn₁, halive, Bool.false_eq_true, if_false]
    exact frees_of_finish hstep hconn₁ rfl rfl

theorem Waiting.frees_answering (h : Waiting setup s) {t : ℕ}
    (hconn : (s.tasks t).connectionId = c) (hp : (s.conns c).phase.Served)
    (hn : (s.conns c).phase ≠ .notifying) {packet : PacketEnvelope}
    (hpc : (s.tasks t).pc = .answering packet) : Frees setup c t s := by
  cases hs : Wscall.Server.step setup (.task t (.queue (.error ""))) s with
  | none =>
    simp only [Wscall.Server.step, hpc, stepTask] at hs
    split at hs
    · cases hs
    · split at hs <;> cases hs
  | some s₁ =>
    have hs₁ := hs
    simp only [Wscall.Server.step, hpc, stepTask] at hs
    split at hs
    · cases hs
      exact frees_of_finish hs₁ hconn rfl rfl
    · split at hs <;> cases hs
      · refine .of_reaches (.head hs₁ hconn (.refl _)) rfl rfl ?_
        have hconn₁ : ((s.setTask t { s.tasks t with pc := .sending ‹_› }).tasks t).connectionId = c := by
          simp [State.setTask, hconn]
        exact (h.step hs₁).frees_sending hconn₁ hp hn (by simp [State.setTask]; rfl)
      · exact frees_of_finish hs₁ hconn rfl rfl

theorem Waiting.frees_spawned [Nonempty W] (h : Waiting setup s) {t : ℕ}
    (hconn : (s.tasks t).connectionId = c) (hp : (s.conns c).phase.Served)
    (hn : (s.conns c).phase ≠ .notifying) (hpc : (s.tasks t).pc = .spawned) : Frees setup c t s := by
  obtain ⟨w⟩ := ‹Nonempty W›
  cases hs : Wscall.Server.step setup (.task t (.run w)) s with
  | none =>
    simp only [Wscall.Server.step, hpc, stepTask] at hs
    split at hs <;> cases hs
  | some s₁ =>
    have hs₁ := hs
    simp only [Wscall.Server.step, hpc, stepTask] at hs
    split at hs <;> cases hs
    · rename_i packet _
      refine .of_reaches (.head hs₁ hconn (.refl _)) rfl rfl ?_
      refine (h.step hs₁).frees_answering (t := t) ?_ hp hn (by simp [State.setTask]; rfl)
      simp [State.setTask, hconn]
    · exact frees_of_finish hs₁ hconn rfl rfl

theorem Waiting.frees [Nonempty W] (h : Waiting setup s) {t : ℕ} (ht : t ∈ s.handlers c)
    (hp : (s.conns c).phase.Served) (hn : (s.conns c).phase ≠ .notifying) : Frees setup c t s := by
  obtain ⟨hrun, hconn⟩ := ht
  cases hpc : (s.tasks t).pc with
  | absent => exact absurd hrun (by rw [hpc]; exact not_false)
  | spawned => exact h.frees_spawned hconn hp hn hpc
  | answering packet => exact h.frees_answering hconn hp hn hpc
  | sending item => exact h.frees_sending hconn hp hn hpc
  | finished => exact absurd hrun (by rw [hpc]; exact not_false)

/-- The connection's own tasks can bring its reader to a phase. -/
def Comes (setup : Setup W) (c : String) (s : State) (P : Phase → Prop) : Prop :=
  ∃ s', Machine.Reaches (Wscall.Server.step setup) (Own c) s s' ∧ P (s'.conns c).phase

theorem Comes.of_reaches {P : Phase → Prop}
    (hr : Machine.Reaches (Wscall.Server.step setup) (Own c) s s') (h : Comes setup c s' P) :
    Comes setup c s P := by
  obtain ⟨t, hr', hphase⟩ := h
  exact ⟨t, hr.trans hr', hphase⟩

theorem Comes.imp {P Q : Phase → Prop} (h : Comes setup c s P) (hpq : ∀ p, P p → Q p) :
    Comes setup c s Q := by
  obtain ⟨s', hr, hphase⟩ := h
  exact ⟨s', hr, hpq _ hphase⟩

theorem comes_notifying (hp : (s.conns c).phase = .notifying) :
    Comes setup c s fun p => p = .reading ∨ p = .closing := by
  have hown : Own c s (.conn c (.notified (.error "")) : Action W) := ⟨rfl, .inr (.inr ⟨_, rfl⟩)⟩
  cases hs : Wscall.Server.step setup (.conn c (.notified (.error ""))) s with
  | none =>
    simp only [Wscall.Server.step, hp, stepConn] at hs
    split at hs
    · cases hs
    · split at hs
      · cases hs
      · split at hs <;> cases hs
  | some s₁ =>
    refine ⟨s₁, .head hs hown (.refl _), ?_⟩
    have hm := move_of_step hs
    cases hm with
    | shook h | entered h =>
      have hshake := h.handshake
      rw [hp] at hshake
      exact hshake.elim
    | greeted => exact .inl (by rw [State.setConn_self])
    | ungreeted => exact .inr (by simp only [teardown, State.setConn_self])
    | aside ha => exact ha.elim

/-- The reader queues the answer it holds, or finds the queue gone. -/
theorem Waiting.comes_queueing (h : Waiting setup s) {item : ServerOutbound}
    (hp : (s.conns c).phase = .queueing item) : Comes setup c s (· = .reading) := by
  obtain ⟨s₁, hr, hsame, hopen⟩ := h.makeRoom (c := c) (hp ▸ trivial) (by rw [hp]; simp)
  have hp₁ : (s₁.conns c).phase = .queueing item := hsame.phase.trans hp
  have hown : Own c s₁ (.conn c .queued : Action W) := ⟨rfl, .inl rfl⟩
  cases halive : (s₁.conns c).channel.alive with
  | true =>
    have hstep : Wscall.Server.step setup (.conn c .queued) s₁ = some (s₁.setConn c { s₁.conns c with
        channel := (s₁.conns c).channel.push item
        phase := .reading }) := by
      simp only [Wscall.Server.step, hp₁, stepConn, halive, hopen halive, if_true]
    exact ⟨_, hr.trans (.head hstep hown (.refl _)), by rw [State.setConn_self]⟩
  | false =>
    have hstep : Wscall.Server.step setup (.conn c .queued) s₁ = some (s₁.setPhase c .reading) := by
      simp only [Wscall.Server.step, hp₁, stepConn, halive, Bool.false_eq_true, if_false]
    exact ⟨_, hr.trans (.head hstep hown (.refl _)), by rw [State.setPhase, State.setConn_self]⟩

theorem Waiting.comes_ponging (h : Waiting setup s) {payload : Bytes}
    (hp : (s.conns c).phase = .ponging payload) :
    Comes setup c s fun p => p = .reading ∨ p = .closing := by
  obtain ⟨s₁, hr, hsame, hopen⟩ := h.makeRoom (c := c) (hp ▸ trivial) (by rw [hp]; simp)
  have hp₁ : (s₁.conns c).phase = .ponging payload := hsame.phase.trans hp
  have hown : Own c s₁ (.conn c .queued : Action W) := ⟨rfl, .inl rfl⟩
  cases halive : (s₁.conns c).channel.alive with
  | true =>
    have hstep : Wscall.Server.step setup (.conn c .queued) s₁ = some (s₁.setConn c { s₁.conns c with
        channel := (s₁.conns c).channel.push (.pong payload)
        phase := .reading }) := by
      simp only [Wscall.Server.step, hp₁, stepConn, halive, hopen halive, if_true]
    exact ⟨_, hr.trans (.head hstep hown (.refl _)), .inl (by rw [State.setConn_self])⟩
  | false =>
    have hstep : Wscall.Server.step setup (.conn c .queued) s₁ = some (teardown s₁ c) := by
      simp only [Wscall.Server.step, hp₁, stepConn, halive, Bool.false_eq_true, if_false]
    exact ⟨_, hr.trans (.head hstep hown (.refl _)), .inr (by simp only [teardown, State.setConn_self])⟩

theorem Waiting.comes_permitted (h : Waiting setup s) {body : PacketBody}
    (hp : (s.conns c).phase = .acquiring body)
    (hroom : (s.conns c).inFlight < setup.server.maxInFlight) : Comes setup c s (· = .reading) := by
  obtain ⟨t, ht⟩ := h.started.exists_notMem
  have hpc : (s.tasks t).pc = .absent := by
    by_contra hne
    exact ht hne
  have hstep : Wscall.Server.step setup (.conn c (.acquired t)) s =
      some ((s.setTask t ⟨c, body, .spawned⟩).setConn c { s.conns c with
        inFlight := (s.conns c).inFlight + 1
        phase := .reading }) := by
    simp only [Wscall.Server.step, hp, stepConn, hpc, hroom, if_true]
  exact ⟨_, .head hstep ⟨rfl, .inr (.inl ⟨t, rfl⟩)⟩ (.refl _), by rw [State.setConn_self]⟩

theorem Waiting.comes_acquiring [Nonempty W] (h : Waiting setup s) (hcap : 0 < setup.server.maxInFlight)
    {body : PacketBody} (hp : (s.conns c).phase = .acquiring body) :
    Comes setup c s (· = .reading) := by
  have hle := h.permits.cap c
  by_cases hroom : (s.conns c).inFlight < setup.server.maxInFlight
  · exact h.comes_permitted hp hroom
  · -- every permit is out, so there is a handler to finish first
    have hcount := h.permits.count c
    have hsome : (s.handlers c).Nonempty := by
      rw [← Set.encard_pos, hcount]
      have hpos : 0 < (s.conns c).inFlight := by omega
      exact_mod_cast hpos
    obtain ⟨t, ht⟩ := hsome
    obtain ⟨s₁, hr, hsame, hless, -⟩ := h.frees ht (hp ▸ trivial) (by rw [hp]; simp)
    have hwait₁ : Waiting setup s₁ := hr.invariant (fun _ _ _ hs => hs.step) h
    exact .of_reaches hr (hwait₁.comes_permitted (hsame.trans hp) (by omega))

theorem waiting_run {actions : List (Action W)}
    (h : Machine.run (Wscall.Server.step setup) actions (State.init setup) = some s) :
    Waiting setup s :=
  Machine.run_invariant (fun _ _ _ hs => hs.step) h waiting_init

/-- In every state of a server whose cap is not zero, the tasks of a served connection can bring
its reader back to the loop, or to the teardown, whatever the other connections do. -/
theorem reader_never_stuck [Nonempty W] (hcap : 0 < setup.server.maxInFlight)
    {actions : List (Action W)}
    (h : Machine.run (Wscall.Server.step setup) actions (State.init setup) = some s)
    (hp : (s.conns c).phase.Served) :
    ∃ s', Machine.Reaches (Wscall.Server.step setup) (Own c) s s' ∧
      ((s'.conns c).phase = .reading ∨ (s'.conns c).phase = .closing) := by
  have hwait := waiting_run h
  change Comes setup c s fun p => p = .reading ∨ p = .closing
  cases hphase : (s.conns c).phase with
  | notifying => exact comes_notifying hphase
  | reading => exact ⟨s, .refl s, .inl hphase⟩
  | queueing item => exact (hwait.comes_queueing hphase).imp fun _ => .inl
  | ponging payload => exact hwait.comes_ponging hphase
  | acquiring body => exact (hwait.comes_acquiring hcap hphase).imp fun _ => .inl
  | _ => rw [hphase] at hp; exact hp.elim

end Progress

/-- The reader has a request and waits for its permit. -/
def acquiringRun : List (Action Unit) :=
  loginRun ++ [.conn "c" (.received (some (.binary echoFrame)) 0 (.error "unused"))]

def Phase.isAcquiring : Phase → Bool
  | .acquiring _ => true
  | _ => false

theorem reader_never_stuck_request :
    ∃ s, Machine.run (step loginSetup) acquiringRun (State.init loginSetup) = some s ∧
      (s.conns "c").phase.isAcquiring = true ∧
      ∃ s', Machine.Reaches (step loginSetup) (Own "c") s s' ∧
        ((s'.conns "c").phase = .reading ∨ (s'.conns "c").phase = .closing) := by
  have hrun : (Machine.run (step loginSetup) acquiringRun (State.init loginSetup)).any
      (fun s => (s.conns "c").phase.isAcquiring) = true := by decide +kernel
  obtain ⟨s, hs, hacq⟩ := (Option.any_eq_true ..).mp hrun
  have hserved : (s.conns "c").phase.Served := by
    generalize (s.conns "c").phase = p at hacq
    cases p with
    | acquiring body => trivial
    | _ => cases hacq
  exact ⟨s, hs, hacq, reader_never_stuck (by decide) hs hserved⟩

end Wscall.Server
