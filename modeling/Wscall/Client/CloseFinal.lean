import Wscall.Client.Generations

/-!
# When `close` is final

The supervisor looks at `shutdown` at the top of its loop and after a connection ended,
but not between the handshakes and the two stores that publish a connection. Everything
else about `close` holds: it leaves no live connection behind, and nothing but a late
publish can bring one up.
-/

namespace Wscall.Client.Lifecycle
open RustStd Protocol

structure Inv (s : State) : Prop where
  core : Core s
  asked : ∀ c, s.closers c ≠ .idle → s.shutdown = true
  closing : ∀ c, s.closers c = .notifying →
    s.isConnected = false ∧ (s.phase.Live ∨ s.phase = .stopped)
  closed : s.closed = true → s.isConnected = false ∧ s.shutdown = true
  late : s.late = []

theorem inv_init : Inv State.init :=
  ⟨core_init, by simp [State.init], by simp [State.init], by simp [State.init], rfl⟩

section Steps

variable {s : State}

theorem Inv.dial_no_closing (hs : Inv s) {g : ℕ} (hp : s.phase.Dialing g) (c : ℕ) :
    s.closers c ≠ .notifying := fun hc => hp.not_live (hs.closing c hc).2

theorem Inv.supervised (hs : Inv s) {op : SupervisorOp} {s' : State}
    (hopen : PublishesOpen s (.supervisor op)) (h : Supervised s op s') : Inv s' := by
  have hcore' := hs.core.supervised h
  cases h with
  | start _ hshut =>
    refine ⟨hcore', hs.asked, fun c hc => ?_, hs.closed, hs.late⟩
    have hasked := hs.asked c (by simp [show s.closers c = .notifying from hc])
    simp [hshut] at hasked
  | dial hp _ =>
    exact ⟨hcore', hs.asked, fun c hc => absurd hc (hs.dial_no_closing hp c), hs.closed, hs.late⟩
  | rest ready _ hp =>
    refine ⟨hcore', hs.asked, fun c hc => ⟨(hs.closing c hc).1, ?_⟩, hs.closed, hs.late⟩
    rcases hp with rfl | ⟨rfl, hshut⟩ | ⟨rfl, hphase⟩
    · exact .inr rfl
    · have hasked := hs.asked c (by simp [show s.closers c = .notifying from hc])
      simp [hshut] at hasked
    · have hrest := (hs.closing c hc).2
      simp [hphase, Phase.Live] at hrest
  | @publish g hp =>
    have hdial : s.phase.Dialing g := by simp [hp, Phase.Dialing]
    have hopen : s.closed = false := hopen
    exact ⟨hcore', hs.asked, fun c hc => absurd hc (hs.dial_no_closing hdial c), by simp [hopen],
      by simp [hopen, hs.late]⟩
  | emit | spawn =>
    exact ⟨hcore', hs.asked, fun c hc => ⟨(hs.closing c hc).1, .inl trivial⟩, hs.closed, hs.late⟩

theorem Inv.frame (hs : Inv s) {s' : State} (hcore : Core s')
    (hoff : s.isConnected = false → s'.isConnected = false) (hphase : s'.phase = s.phase)
    (hclosers : s'.closers = s.closers) (hshut : s'.shutdown = s.shutdown)
    (hclosed : s'.closed = s.closed) (hlate : s'.late = s.late) : Inv s' := by
  refine ⟨hcore, ?_, ?_, ?_, hlate.trans hs.late⟩
  · rw [hclosers, hshut]
    exact hs.asked
  · rw [hclosers, hphase]
    exact fun c hc => (hs.closing c hc).imp_left hoff
  · rw [hclosed, hshut]
    exact fun hc => (hs.closed hc).imp_left hoff

theorem Inv.worked (hs : Inv s) {g : ℕ} {k : Task} {op : TaskOp} {s' : State}
    (h : Worked s g k op s') : Inv s' := by
  have hcore' := hs.core.worked h
  cases h with
  | lost _ _ _ => exact hs.frame hcore' (fun _ => rfl) rfl rfl rfl rfl rfl
  | idle _ _ => exact hs.frame hcore' id rfl rfl rfl rfl rfl
  | stale _ _ => exact hs.frame hcore' id rfl rfl rfl rfl rfl
  | signal _ => exact hs.frame hcore' id rfl rfl rfl rfl rfl

theorem Inv.closing_of_other (hs : Inv s) {caller c : ℕ} {pc : CloserPc} (hpc : pc ≠ .notifying)
    (hc : (s.setCloser caller pc).closers c = .notifying) :
    s.isConnected = false ∧ (s.phase.Live ∨ s.phase = .stopped) := by
  -- a caller that moves on without notifying leaves the other callers' promises alone
  by_cases hcc : c = caller
  · subst hcc
    simp [State.setCloser, hpc] at hc
  · exact hs.closing c (by simpa [State.setCloser, Function.update_of_ne hcc] using hc)

theorem Inv.finishClose (hs : Inv s) (hshut : s.shutdown = true) (caller : ℕ) :
    Inv (finishClose s caller) := by
  have hcore' := hs.core.finishClose caller
  cases hcon : s.isConnected with
  | true =>
    rw [finishClose_on hcon] at hcore' ⊢
    exact ⟨hcore', fun _ _ => hshut, fun c _ => ⟨rfl, .inl (hs.core.live hcon)⟩,
      fun _ => ⟨rfl, hshut⟩, hs.late⟩
  | false =>
    rw [finishClose_off hcon] at hcore' ⊢
    exact ⟨hcore', fun _ _ => hshut, fun c hc => hs.closing_of_other (by simp) hc,
      fun _ => ⟨hcon, hshut⟩, hs.late⟩

theorem Inv.closing_step (hs : Inv s) {caller : ℕ} {op : CloseOp} {s' : State}
    (h : Closing s caller op s') : Inv s' := by
  have hcore' := hs.core.closing h
  have hinvShut : Inv { s with shutdown := true } :=
    ⟨hs.core.congr rfl rfl rfl rfl rfl rfl, fun _ _ => rfl, hs.closing,
      fun hc => ⟨(hs.closed hc).1, rfl⟩, hs.late⟩
  cases h with
  | sending _ =>
    exact ⟨hcore', fun _ _ => rfl, fun c hc => hinvShut.closing_of_other (by simp) hc,
      hinvShut.closed, hs.late⟩
  | unwritten _ => exact hinvShut.finishClose rfl caller
  | sent hpc => exact hs.finishClose (hs.asked caller (by simp [hpc])) caller
  | notified hpc =>
    have hshut := hs.asked caller (by simp [hpc])
    exact ⟨hcore', fun _ _ => hshut, fun c hc => hs.closing_of_other (by simp) hc,
      fun _ => ⟨(hs.closing caller hpc).1, hshut⟩, hs.late⟩

end Steps

theorem Inv.step {cfg : Config} {a : Action} {s s' : State} (hopen : PublishesOpen s a)
    (hs : Inv s) (h : Lifecycle.step cfg a s = some s') : Inv s' := by
  cases a with
  | supervisor op => exact hs.supervised hopen (Lifecycle.supervised h)
  | task g k op => exact hs.worked (Lifecycle.worked h)
  | close caller op => exact hs.closing_step (Lifecycle.closing h)
  | onConnected =>
    have hcore' := hs.core.step h
    simp only [Lifecycle.step, Lifecycle.onConnected] at h
    split at h <;> cases h
    exact hs.frame hcore' id rfl rfl rfl rfl rfl

theorem Inv.final {s : State} (hs : Inv s) : Final s := by
  intro hclosed
  have hoff := (hs.closed hclosed).1
  exact ⟨hoff, by simpa [hoff] using hs.core.writer, by simp [hs.late]⟩

theorem publishesOpen_of_final {cfg : Config} {a : Action} {s s' : State}
    (h : Lifecycle.step cfg a s = some s') (hfin : Final s') : PublishesOpen s a := by
  cases a with
  | supervisor op =>
    cases op with
    | publish =>
      show s.closed = false
      by_contra hclosed
      generalize hp : s.phase = p at h
      cases p <;> simp [Lifecycle.step, Lifecycle.stepSupervisor, hp] at h
      subst h
      simp [Final, Bool.eq_true_of_not_eq_false hclosed] at hfin
    | _ => trivial
  | _ => trivial

/-- `close()` is final in a run exactly when no connection of the run is published after a
`close()` has returned. -/
theorem close_final_iff (cfg : Config) (acts : List Action) :
    Machine.Always (Lifecycle.step cfg) Final acts State.init ↔
      Machine.Along (Lifecycle.step cfg) PublishesOpen acts State.init :=
  Machine.always_iff_along (fun _ hs => hs.final) (fun _ _ _ hp hs h => hs.step hp h)
    (fun _ _ _ _ h hfin => publishesOpen_of_final h hfin) inv_init

/-- The first connection is lost; `close()` runs while the second one is being dialled. -/
def closeWhileDialing : List Action :=
  [.supervisor .top, .supervisor (.connectResult true), .supervisor .publish,
    .supervisor .lockHandlers, .supervisor .spawnTasks, .onConnected,
    .task 1 .reader .stop, .task 1 .reader .signal, .supervisor .wake, .supervisor .slept,
    .supervisor .top, .close 0 .call, .supervisor (.connectResult true), .supervisor .publish,
    .supervisor .lockHandlers, .supervisor .invokeHandler]

theorem closeWhileDialing_not_final : ∃ s,
    Machine.run (Lifecycle.step plainConfig) closeWhileDialing State.init = some s ∧
      ¬ Final s ∧ s.isConnected = true ∧ s.writer = some 2 ∧ 2 ∈ s.invoked ∧ 2 ∈ s.late :=
  ⟨_, rfl, by decide, rfl, rfl, by decide, by decide⟩

end Wscall.Client.Lifecycle
