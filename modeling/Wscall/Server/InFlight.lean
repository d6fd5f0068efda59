import Wscall.Lib.Semaphore
import Wscall.Server.Identity
import Wscall.Server.Moves

/-!
# The in-flight cap (`server_runtime.rs:803-806`, `943-957`)

A handler task owns a permit of its connection's semaphore from its spawn until it ends, also
when it unwinds. The model counts permits in use; what it counts is proved here.
-/

namespace Wscall.Server
open RustStd Protocol

/-- The running handler tasks of a connection. -/
def State.handlers (s : State) (c : String) : Set ℕ :=
  {t | (s.tasks t).pc.Running ∧ (s.tasks t).connectionId = c}

structure Permits (max : ℕ) (s : State) : Prop where
  count : ∀ c, Owned (s.handlers c) (s.conns c).inFlight
  cap : ∀ c, (s.conns c).inFlight ≤ max
  unused : ∀ c, (s.conns c).phase = .absent → (s.conns c).inFlight = 0

section Steps

variable {W : Type} {setup : Setup W} {s s' : State} {c : String} {max : ℕ}

theorem permits_init : Permits max (State.init setup) where
  count c := by
    have hnone : (State.init setup).handlers c = ∅ :=
      Set.eq_empty_of_forall_notMem fun t ht => ht.1
    rw [hnone]
    exact .empty
  cap _ := Nat.zero_le _
  unused _ _ := rfl

theorem Permits.congr (h : Permits max s) (hconns : s'.conns = s.conns)
    (htasks : ∀ c, s'.handlers c = s.handlers c) : Permits max s' where
  count c := by rw [htasks, hconns]; exact h.count c
  cap c := by rw [hconns]; exact h.cap c
  unused c := by rw [hconns]; exact h.unused c

/-- Steps that concern one connection and no task. -/
theorem Permits.conn (h : Permits max s) (c : String) (hne : ∀ d, d ≠ c → s'.conns d = s.conns d)
    (hn : (s'.conns c).inFlight = (s.conns c).inFlight)
    (hp : (s'.conns c).phase ≠ .absent ∨ (s'.conns c).phase = (s.conns c).phase)
    (htasks : s'.tasks = s.tasks) : Permits max s' := by
  have hsame : ∀ d, (s'.conns d).inFlight = (s.conns d).inFlight := by
    intro d
    by_cases hdc : d = c
    · rw [hdc, hn]
    · rw [hne d hdc]
  refine ⟨fun d => ?_, fun d => ?_, fun d hd => ?_⟩
  · rw [hsame, State.handlers, htasks]
    exact h.count d
  · rw [hsame]
    exact h.cap d
  · rw [hsame]
    refine h.unused d ?_
    by_cases hdc : d = c
    · subst hdc
      rcases hp with hp | hp
      · exact absurd hd hp
      · rw [← hp, hd]
    · rw [← hne d hdc, hd]

/-- A task moves on and still runs. -/
theorem handlers_setPc {t : ℕ} (hold : (s.tasks t).pc.Running) {pc : TaskPc} (hnew : pc.Running)
    (c : String) : (s.setTask t { s.tasks t with pc := pc }).handlers c = s.handlers c := by
  ext u
  by_cases hut : u = t
  · subst hut
    simp [State.handlers, State.setTask, hold, hnew]
  · simp [State.handlers, State.setTask, hut]

theorem handlers_spawn {t : ℕ} (ht : (s.tasks t).pc = .absent) (body : PacketBody) (d : String) :
    (s.setTask t ⟨c, body, .spawned⟩).handlers d =
      if d = c then insert t (s.handlers d) else s.handlers d := by
  ext u
  by_cases hut : u = t
  · subst hut
    by_cases hdc : d = c
    · simp [State.handlers, State.setTask, hdc, TaskPc.Running]
    · simp [State.handlers, State.setTask, hdc, Ne.symm hdc, ht, TaskPc.Running]
  · by_cases hdc : d = c <;> simp [State.handlers, State.setTask, hut, hdc]

theorem handlers_finish (t : ℕ) (d : String) :
    (s.setTask t { s.tasks t with pc := .finished }).handlers d = s.handlers d \ {t} := by
  ext u
  by_cases hut : u = t
  · subst hut
    simp [State.handlers, State.setTask, TaskPc.Running]
  · simp [State.handlers, State.setTask, hut]

theorem Permits.spawn (h : Permits max s) {t : ℕ} (ht : (s.tasks t).pc = .absent) (body : PacketBody)
    (hroom : (s.conns c).inFlight < max) : Permits max ((s.setTask t ⟨c, body, .spawned⟩).setConn c
      { s.conns c with inFlight := (s.conns c).inFlight + 1, phase := .reading }) := by
  have hfresh : t ∉ s.handlers c := fun hmem => by
    rw [State.handlers, Set.mem_ofPred_eq, ht] at hmem
    exact hmem.1
  refine ⟨fun d => ?_, fun d => ?_, fun d hd => ?_⟩
  · change Owned ((s.setTask t ⟨c, body, .spawned⟩).handlers d) _
    rw [handlers_spawn ht]
    by_cases hdc : d = c
    · subst hdc
      rw [if_pos rfl, State.setConn_self]
      exact (h.count d).acquire hfresh
    · rw [if_neg hdc, State.setConn_of_ne _ hdc]
      exact h.count d
  · by_cases hdc : d = c
    · subst hdc
      rw [State.setConn_self]
      exact hroom
    · rw [State.setConn_of_ne _ hdc]
      exact h.cap d
  · by_cases hdc : d = c
    · subst hdc
      rw [State.setConn_self] at hd
      cases hd
    · rw [State.setConn_of_ne _ hdc] at hd ⊢
      exact h.unused d hd

theorem Permits.finish (h : Permits max s) {t : ℕ} (ht : (s.tasks t).pc.Running) :
    Permits max (finishTask s t (s.tasks t)) := by
  have hmem : t ∈ s.handlers (s.tasks t).connectionId := ⟨ht, rfl⟩
  refine ⟨fun d => ?_, fun d => ?_, fun d hd => ?_⟩
  · change Owned ((s.setTask t { s.tasks t with pc := .finished }).handlers d) _
    rw [handlers_finish]
    by_cases hdc : d = (s.tasks t).connectionId
    · subst hdc
      simp only [finishTask, State.setConn_self]
      -- the permit comes back to the semaphore it was taken from
      exact ((h.count _).release hmem).2
    · have hother : t ∉ s.handlers d := fun hm => hdc hm.2.symm
      rw [Set.sdiff_singleton_eq_self hother]
      simp only [finishTask, State.setConn_of_ne _ hdc]
      exact h.count d
  · by_cases hdc : d = (s.tasks t).connectionId
    · subst hdc
      simp only [finishTask, State.setConn_self]
      have hcap := h.cap (s.tasks t).connectionId
      omega
    · simp only [finishTask, State.setConn_of_ne _ hdc]
      exact h.cap d
  · by_cases hdc : d = (s.tasks t).connectionId
    · subst hdc
      simp only [finishTask, State.setConn_self] at hd ⊢
      have hunused := h.unused _ hd
      omega
    · simp only [finishTask, State.setConn_of_ne _ hdc] at hd ⊢
      exact h.unused d hd

theorem Permits.move {a : Action W} (h : Permits setup.server.maxInFlight s)
    (hm : Move setup s a s') : Permits setup.server.maxInFlight s' := by
  cases hm with
  | @accepted c peer now limiter phase hp hphase =>
    refine h.conn c (fun d hd => State.setConn_of_ne _ hd _) ?_ (.inl ?_) rfl
    · rw [State.setConn_self, h.unused c hp]
      rfl
    · rw [State.setConn_self]
      rcases hphase with rfl | rfl <;> simp [Conn.new]
  | @shook c op conn hs =>
    refine h.conn c (fun d hd => State.setConn_of_ne _ hd _) ?_ (.inl ?_) rfl
    · rw [State.setConn_self, hs.shaken.inFlight]
    · rw [State.setConn_self]
      intro habsent
      have hnext := hs.next
      rw [habsent] at hnext
      rcases hnext with hnext | hnext <;> cases hnext
  | @entered c op conn w output hs =>
    refine h.conn c (fun d hd => ?_) ?_ (.inl ?_) rfl
    · simp only [enter, State.setConn_of_ne _ hd]
    · simp only [enter, State.setConn_self, hs.shaken.inFlight]
    · simp only [enter, State.setConn_self]
      split <;> simp
  | @ungreeted c random hp =>
    refine h.conn c (fun d hd => ?_) ?_ (.inl ?_) rfl
    · simp only [teardown, State.setConn_of_ne _ hd]
    · simp only [teardown, State.setConn_self]
    · simp only [teardown, State.setConn_self]
      simp
  | @read c codec message now random limiter phase hp hc hreads =>
    refine h.conn c (fun d hd => State.setConn_of_ne _ hd _) ?_ (.inl ?_) rfl
    · rw [State.setConn_self]
    · rw [State.setConn_self]
      exact hreads.ne_absent
  | @hungUp c codec message now random hp =>
    refine h.conn c (fun d hd => ?_) ?_ (.inl ?_) rfl
    · simp only [teardown, State.logged, State.setConn_of_ne _ hd]
    · simp only [teardown, State.logged, State.setConn_self]
    · simp only [teardown, State.setConn_self]
      simp
  | @unponged c payload hp hdead =>
    refine h.conn c (fun d hd => ?_) ?_ (.inl ?_) rfl
    · simp only [teardown, State.setConn_of_ne _ hd]
    · simp only [teardown, State.setConn_self]
    · simp only [teardown, State.setConn_self]
      simp
  | @greeted c _ _ _ _ _ _ | @queued c _ _ _ _ | @unqueued c _ _ _ | @graceOver c _ =>
    refine h.conn c (fun d hd => State.setConn_of_ne _ hd _) ?_ (.inl ?_) rfl
    · simp only [State.setPhase, State.setConn_self]
    · simp only [State.setPhase, State.setConn_self]
      simp
  | @ticked c _ | @stopped c _ _ | @wrote c _ _ _ _ _ _ _ _ _ _ | @delivered _ _ c _ _ _ _ _ _ =>
    refine h.conn c (fun d hd => State.setConn_of_ne _ hd _) ?_ (.inr ?_) rfl
    · simp only [State.pushWire, State.setConn_self]
    · simp only [State.pushWire, State.setConn_self]
  | acquired hp ht hroom => exact h.spawn ht _ hroom
  | @ran t w packet ht hres =>
    have hrun : (s.tasks t).pc.Running := ht ▸ trivial
    have hnew : (TaskPc.answering packet).Running := trivial
    exact h.congr rfl (handlers_setPc hrun hnew)
  | @encoded t random packet item ht =>
    have hrun : (s.tasks t).pc.Running := ht ▸ trivial
    have hnew : (TaskPc.sending item).Running := trivial
    exact h.congr rfl (handlers_setPc hrun hnew)
  | @answered t item ht halive hroom =>
    have hrun : (s.tasks t).pc.Running := ht ▸ trivial
    refine Permits.finish (h.conn (s.tasks t).connectionId (fun d hd => State.setConn_of_ne _ hd _)
      ?_ (.inr ?_) rfl) hrun
    · rw [State.setConn_self]
    · rw [State.setConn_self]
  | @finished t op calls hf =>
    have hcalls : Permits setup.server.maxInFlight { s with calls := calls } := h.congr rfl fun _ => rfl
    exact hcalls.finish hf.running
  | aside ha hpushes => exact h.congr rfl fun _ => rfl

/-- In every state of a server the permits in use are the running handlers of the connection, and
no connection has more of them than `max_in_flight`. -/
theorem inFlight_exact {actions : List (Action W)}
    (h : Machine.run (step setup) actions (State.init setup) = some s) (c : String) :
    (s.handlers c).encard = (s.conns c).inFlight ∧
      (s.conns c).inFlight ≤ setup.server.maxInFlight := by
  have hpermits : Permits setup.server.maxInFlight s :=
    Machine.run_invariant (fun _ _ _ hs hstep => hs.move (move_of_step hstep)) h permits_init
  exact ⟨hpermits.count c, hpermits.cap c⟩

end Steps

theorem inFlight_exact_request :
    ∃ s, Machine.run (step loginSetup) requestRun (State.init loginSetup) = some s ∧
      (s.handlers "c").encard = 1 ∧ 1 ≤ loginSetup.server.maxInFlight := by
  have hrun : (Machine.run (step loginSetup) requestRun (State.init loginSetup)).any
      (fun s => (s.conns "c").inFlight == 1) = true := by decide +kernel
  obtain ⟨s, hs, hone⟩ := (Option.any_eq_true ..).mp hrun
  have hexact := inFlight_exact hs "c"
  rw [eq_of_beq hone] at hexact
  exact ⟨s, hs, hexact⟩

end Wscall.Server
