import Mathlib.Data.List.Nodup
import Wscall.Client.Lifecycle

/-!
# Connection generations

Every task of every connection and every `close()` may report the end of a connection.
The generation test and the swap of `is_connected` let one report through for each
connection: what is logged below happens at most once for a generation.
-/

namespace Wscall.Client.Lifecycle
open RustStd Protocol

namespace Phase

/-- A connection is published and its end not yet seen. -/
def Live : Phase → Prop
  | .emitLocking _ | .emitting _ _ | .awaiting _ => True
  | _ => False

/-- The generation whose tasks are still to be spawned. -/
def unspawned : Phase → Option ℕ
  | .connecting g _ | .ecdhSending g | .ecdhReading g | .authSending g | .authReading g
  | .established g | .emitLocking g | .emitting g _ => some g
  | _ => none

/-- The supervisor's local `generation`. -/
def current : Phase → Option ℕ
  | .awaiting g => some g
  | p => p.unspawned

/-- Between the loop's `shutdown` test and the publish. -/
def Dialing (g : ℕ) : Phase → Prop
  | .connecting g' _ | .ecdhSending g' | .ecdhReading g' | .authSending g' | .authReading g'
  | .established g' => g' = g
  | _ => False

theorem Dialing.unspawned {p : Phase} {g : ℕ} (h : p.Dialing g) : p.unspawned = some g := by
  cases p <;> simp_all [Dialing, Phase.unspawned]

theorem Dialing.current {p : Phase} {g : ℕ} (h : p.Dialing g) : p.current = some g := by
  cases p <;> simp_all [Dialing, Phase.current, Phase.unspawned]

theorem Dialing.not_live {p : Phase} {g : ℕ} (h : p.Dialing g) : ¬ (p.Live ∨ p = .stopped) := by
  cases p <;> simp_all [Dialing, Live]

theorem current_of_unspawned {p : Phase} {g : ℕ} (h : p.unspawned = some g) : p.current = some g := by
  cases p <;> simp_all [Phase.current, Phase.unspawned]

end Phase

/-! ### The supervisor's moves -/

/-- What `disconnect_rx` waits for. -/
def Ended (s : State) (g : ℕ) : Prop :=
  s.signalled g = true ∨
    (s.tasks g .writer = .done ∧ s.tasks g .heartbeat = .done ∧ s.tasks g .reader = .done)

/-- No connection is up: at rest, dialling, or after the end of one. -/
inductive Unconnected (s : State) : Prop
  | top (h : s.phase = .top)
  | sleeping (h : s.phase = .sleeping)
  | dialing (g : ℕ) (h : s.phase.Dialing g)
  | ended (g : ℕ) (h : s.phase = .awaiting g) (hend : Ended s g)

inductive Supervised (s : State) : SupervisorOp → State → Prop
  | start (hp : s.phase = .top) (hopen : s.shutdown = false) : Supervised s .top
      { s with attempts := s.attempts + 1, phase := .connecting (s.attempts + 1) 0 }
  | dial {op : SupervisorOp} {g : ℕ} {p : Phase} (hp : s.phase.Dialing g) (hp' : p.Dialing g) :
      Supervised s op { s with phase := p }
  | rest {op : SupervisorOp} {p : Phase} (ready : Option Bool) (hs : Unconnected s)
      (hp : p = .stopped ∨ p = .sleeping ∧ s.shutdown = false ∨ p = .top ∧ s.phase = .sleeping) :
      Supervised s op { s with phase := p, ready := ready }
  | publish {g : ℕ} (hp : s.phase = .established g) : Supervised s .publish
      { s with
        writer := some g
        isConnected := true
        late := if s.closed then g :: s.late else s.late
        phase := .emitLocking g }
  | emit {op : SupervisorOp} {g : ℕ} (left : ℕ) (invoked : List ℕ)
      (hp : s.phase.unspawned = some g) (hlive : s.phase.Live) :
      Supervised s op { s with phase := .emitting g left, invoked := invoked }
  | spawn {op : SupervisorOp} {g : ℕ} (ready : Option Bool) (hp : s.phase = .emitting g 0) :
      Supervised s op { s with
        tasks := Function.update s.tasks g fun _ => .running
        ready := ready
        phase := .awaiting g }

/-- What a task of a connection does: it takes the connection down, finds that it is down or that
another one is up, or signals. -/
inductive Worked (s : State) (g : ℕ) (k : Task) : TaskOp → State → Prop
  | lost (hpc : s.tasks g k = .running) (hgen : s.connectionGeneration = generation g)
      (hcon : s.isConnected = true) :
      Worked s g k .stop ({ s with isConnected := false, writer := none }.setTask g k .notifying)
  | idle (hpc : s.tasks g k = .running)
      (hover : s.connectionGeneration = generation g → s.isConnected = false) :
      Worked s g k .stop (s.setTask g k .done)
  | stale (hpc : s.tasks g k = .running) (hgen : s.connectionGeneration ≠ generation g) :
      Worked s g k .stale (s.setTask g k .done)
  | signal (hpc : s.tasks g k = .notifying) : Worked s g k .signal
      ({ s with signalled := Function.update s.signalled g true }.setTask g k .done)

inductive Closing (s : State) (caller : ℕ) : CloseOp → State → Prop
  | sending (hw : s.writer ≠ none) :
      Closing s caller .call ({ s with shutdown := true }.setCloser caller .sending)
  | unwritten (hw : s.writer = none) :
      Closing s caller .call (finishClose { s with shutdown := true } caller)
  | sent (hpc : s.closers caller = .sending) : Closing s caller .sent (finishClose s caller)
  | notified (hpc : s.closers caller = .notifying) :
      Closing s caller .notified { s.setCloser caller .returned with closed := true }

section Moves

variable {s : State} {op : SupervisorOp}

theorem supervised_afterConnection (cfg : Config) (hs : Unconnected s) :
    Supervised s op (afterConnection cfg s) := by
  unfold afterConnection
  split_ifs with hshut
  · exact .rest s.ready hs (.inl rfl)
  · exact .rest s.ready hs (.inr (.inl ⟨rfl, by simpa using hshut⟩))
  · exact .rest s.ready hs (.inl rfl)

theorem supervised_failed (cfg : Config) {g : ℕ} (hp : s.phase.Dialing g) :
    Supervised s op (failed cfg s) := by
  unfold failed
  split
  · exact .rest (some false) (.dialing g hp) (.inl rfl)
  · exact supervised_afterConnection cfg (.dialing g hp)

theorem supervised_afterEcdh (cfg : Config) {g : ℕ} (hp : s.phase.Dialing g) :
    Supervised s op (afterEcdh cfg s g) := by
  refine .dial hp ?_
  split <;> rfl

theorem supervised_afterConnect (cfg : Config) {g : ℕ} (hp : s.phase.Dialing g) :
    Supervised s op (afterConnect cfg s g) := by
  unfold afterConnect
  split
  · exact .dial hp rfl
  · exact supervised_afterEcdh cfg hp

theorem supervised {cfg : Config} {s' : State} (h : stepSupervisor cfg s op s.phase = some s') :
    Supervised s op s' := by
  generalize hp : s.phase = p at h
  have hdial : ∀ {g}, p.Dialing g → s.phase.Dialing g := fun hd => by rwa [hp]
  unfold stepSupervisor at h
  split at h
  · split_ifs at h with hshut <;> cases h
    · exact .rest s.ready (.top hp) (.inl rfl)
    · exact .start hp (by simpa using hshut)
  · split_ifs at h <;> cases h
    · exact supervised_afterConnect cfg (hdial rfl)
    · exact .dial (hdial rfl) rfl
    · exact supervised_failed cfg (hdial rfl)
  · cases h
    split
    · exact .dial (hdial rfl) rfl
    · exact supervised_failed cfg (hdial rfl)
  · split at h <;> cases h
    · split
      · exact supervised_afterEcdh cfg (hdial rfl)
      · exact supervised_failed cfg (hdial rfl)
    · exact supervised_failed cfg (hdial rfl)
  · cases h
    split
    · exact .dial (hdial rfl) rfl
    · exact supervised_failed cfg (hdial rfl)
  · split at h <;> cases h
    · split
      · exact .dial (hdial rfl) rfl
      · exact supervised_failed cfg (hdial rfl)
    · exact supervised_failed cfg (hdial rfl)
  · cases h
    exact .publish hp
  · cases h
    exact .emit s.handlers s.invoked (by simp [hp, Phase.unspawned]) (by simp [hp, Phase.Live])
  · cases h
    exact .emit _ _ (by simp [hp, Phase.unspawned]) (by simp [hp, Phase.Live])
  · cases h
    exact .spawn _ hp
  · split at h <;> cases h
    exact supervised_afterConnection cfg (.ended _ hp ‹_›)
  · cases h
    exact .rest s.ready (.sleeping hp) (.inr (.inr ⟨rfl, hp⟩))
  · cases h

theorem disconnect_live (hcon : s.isConnected = true) :
    disconnect s s.connectionGeneration = ({ s with isConnected := false, writer := none }, true) := by
  simp [disconnect, isConnectionGenerationActive, hcon]

theorem disconnect_over {g : UInt64} (hover : s.connectionGeneration = g → s.isConnected = false) :
    disconnect s g = (s, false) := by
  by_cases hgen : s.connectionGeneration = g
  · simp [disconnect, isConnectionGenerationActive, hgen, hover hgen]
  · simp [disconnect, isConnectionGenerationActive, hgen]

theorem worked {g : ℕ} {k : Task} {op : TaskOp} {s' : State}
    (h : stepTask s g k op (s.tasks g k) = some s') : Worked s g k op s' := by
  generalize hpc : s.tasks g k = pc at h
  unfold stepTask at h
  split at h
  · split at h
    · cases h
    · by_cases hlive : s.connectionGeneration = generation g ∧ s.isConnected = true
      · obtain ⟨hgen, hcon⟩ := hlive
        rw [← hgen, disconnect_live hcon] at h
        cases h
        exact .lost hpc hgen hcon
      · have hover : s.connectionGeneration = generation g → s.isConnected = false := by
          simpa using hlive
        rw [disconnect_over hover] at h
        cases h
        exact .idle hpc hover
  · split at h <;> cases h
    rename_i hstale
    exact .stale hpc (by simpa [isConnectionGenerationActive] using hstale.2)
  · cases h
    exact .signal hpc
  · cases h

theorem closing {caller : ℕ} {op : CloseOp} {s' : State}
    (h : stepClose s caller op (s.closers caller) = some s') : Closing s caller op s' := by
  generalize hpc : s.closers caller = pc at h
  unfold stepClose at h
  split at h
  · split at h
    · dsimp only at h
      split at h <;> cases h
      · rename_i hw
        exact .sending (by simp [hw])
      · exact .unwritten ‹_›
    · cases h
  · cases h
    exact .sent hpc
  · cases h
    exact .notified hpc
  · cases h

end Moves

/-! ### The flag, the writer and the tasks -/

/-- How the flag, the writer and the tasks go together, whatever `close()` does. -/
structure Core (s : State) : Prop where
  writer : s.writer = if s.isConnected then some s.attempts else none
  live : s.isConnected = true → s.phase.Live
  current : ∀ g, s.phase.current = some g → g = s.attempts
  unborn : ∀ g, s.attempts < g ∨ s.phase.unspawned = some g →
    s.signalled g = false ∧ ∀ k, s.tasks g k = .unspawned
  working : ∀ g, s.phase = .awaiting g → s.isConnected = true →
    s.signalled g = false ∧ (∀ k, s.tasks g k ≠ .notifying) ∧
      s.tasks g .writer = .running ∧ s.tasks g .reader = .running

theorem core_init : Core State.init := by
  constructor <;> simp [State.init, Phase.current, Phase.unspawned]

section Supervisor

variable {s : State}

theorem Core.off (hs : Core s) (hp : Unconnected s) : s.isConnected = false := by
  by_contra hcon
  have hcon : s.isConnected = true := by simpa using hcon
  have hlive := hs.live hcon
  cases hp with
  | top hp => simp [hp, Phase.Live] at hlive
  | sleeping hp => simp [hp, Phase.Live] at hlive
  | dialing g hp => exact hp.not_live (.inl hlive)
  | ended g hp hend =>
    obtain ⟨hsig, -, hw, -⟩ := hs.working g hp hcon
    rcases hend with hend | ⟨hend, -, -⟩
    · simp [hsig] at hend
    · simp [hw] at hend

theorem Core.congr {s' : State} (hs : Core s) (hcon : s'.isConnected = s.isConnected)
    (hwriter : s'.writer = s.writer) (hgen : s'.attempts = s.attempts)
    (hphase : s'.phase = s.phase) (htasks : s'.tasks = s.tasks)
    (hsig : s'.signalled = s.signalled) : Core s' := by
  constructor
  · rw [hwriter, hcon, hgen]
    exact hs.writer
  · rw [hcon, hphase]
    exact hs.live
  · rw [hphase, hgen]
    exact hs.current
  · rw [hgen, hphase, hsig, htasks]
    exact hs.unborn
  · rw [hphase, hcon, hsig, htasks]
    exact hs.working

theorem Core.start (hs : Core s) (hp : s.phase = .top) :
    Core { s with attempts := s.attempts + 1, phase := .connecting (s.attempts + 1) 0 } := by
  have hoff := hs.off (.top hp)
  refine ⟨by simp [hoff, hs.writer], by simp [hoff], ?_, fun g hg => ?_, by simp⟩
  · simp [Phase.current, Phase.unspawned]
  · refine hs.unborn g (.inl ?_)
    simp only [Phase.unspawned, Option.some.injEq] at hg
    omega

theorem Core.dial (hs : Core s) {g : ℕ} {p : Phase} (hp : s.phase.Dialing g) (hp' : p.Dialing g) :
    Core { s with phase := p } := by
  have hoff := hs.off (.dialing g hp)
  refine ⟨hs.writer, by simp [hoff], fun g' hg => ?_, fun g' hg => ?_, by simp [hoff]⟩
  · exact hs.current g' (by rwa [hp.current, ← hp'.current])
  · exact hs.unborn g' (by rwa [hp.unspawned, ← hp'.unspawned])

theorem Core.rest (hs : Core s) {p : Phase} (ready : Option Bool) (hoff : s.isConnected = false)
    (hp : p = .stopped ∨ p = .sleeping ∨ p = .top) : Core { s with phase := p, ready := ready } := by
  have hcur : p.current = none := by rcases hp with rfl | rfl | rfl <;> rfl
  have huns : p.unspawned = none := by rcases hp with rfl | rfl | rfl <;> rfl
  refine ⟨hs.writer, by simp [hoff], by simp [hcur], fun g hg => ?_, by simp [hoff]⟩
  simp only [huns, reduceCtorEq, or_false] at hg
  exact hs.unborn g (.inl hg)

theorem Core.publish (hs : Core s) {g : ℕ} (hp : s.phase = .established g) (late : List ℕ) :
    Core { s with writer := some g, isConnected := true, late := late, phase := .emitLocking g } := by
  have hcur : g = s.attempts := hs.current g (by simp [hp, Phase.current, Phase.unspawned])
  refine ⟨by simp [hcur], fun _ => trivial, fun g' hg => ?_, fun g' hg => ?_, by simp⟩
  · exact hs.current g' (by simpa [hp, Phase.current, Phase.unspawned] using hg)
  · exact hs.unborn g' (by simpa [hp, Phase.unspawned] using hg)

theorem Core.emit (hs : Core s) {g : ℕ} (hp : s.phase.unspawned = some g) (left : ℕ)
    (invoked : List ℕ) : Core { s with phase := .emitting g left, invoked := invoked } where
  writer := hs.writer
  live _ := trivial
  current g' hg := hs.current g' ((Phase.current_of_unspawned hp).trans hg)
  unborn g' hg := hs.unborn g' (hg.imp id hp.trans)
  working g' hp' := by cases hp'

theorem Core.spawn (hs : Core s) {g : ℕ} (hp : s.phase = .emitting g 0) (ready : Option Bool) :
    Core { s with
      tasks := Function.update s.tasks g fun _ => .running
      ready := ready
      phase := .awaiting g } := by
  have hg : g = s.attempts := hs.current g (by simp [hp, Phase.current, Phase.unspawned])
  obtain ⟨hsig, -⟩ := hs.unborn g (.inr (by simp [hp, Phase.unspawned]))
  refine ⟨hs.writer, fun _ => trivial, by simp [Phase.current, hg], fun g' hg' => ?_, fun g' hg' _ => ?_⟩
  · simp only [Phase.unspawned, reduceCtorEq, or_false] at hg'
    have hne : g' ≠ g := by omega
    simpa [Function.update_of_ne hne] using hs.unborn g' (.inl hg')
  · cases hg'
    simp [hsig]

theorem Core.supervised (hs : Core s) {op : SupervisorOp} {s' : State} (h : Supervised s op s') :
    Core s' := by
  cases h with
  | start hp _ => exact hs.start hp
  | dial hp hp' => exact hs.dial hp hp'
  | rest ready hun hp => exact hs.rest ready (hs.off hun) (hp.imp_right (Or.imp And.left And.left))
  | publish hp => exact hs.publish hp _
  | emit left invoked hp _ => exact hs.emit hp left invoked
  | spawn ready hp => exact hs.spawn hp ready

end Supervisor

/-! ### Tasks and callers -/

section Tasks

variable {s : State}

theorem Core.setTask (hs : Core s) {g : ℕ} {k : Task} {pc : TaskPc} (hborn : s.tasks g k ≠ .unspawned)
    (hover : s.attempts = g → s.isConnected = false) : Core (s.setTask g k pc) := by
  -- a task that ran moves on: harmless when its generation is over or nothing is connected
  have hother : ∀ g', g' ≠ g → (s.setTask g k pc).tasks g' = s.tasks g' :=
    fun g' hne => Function.update_of_ne hne ..
  refine ⟨hs.writer, hs.live, hs.current, fun g' hg' => ?_, fun g' hp hcon => ?_⟩
  · have hun := hs.unborn g' hg'
    have hne : g' ≠ g := by
      intro he
      subst he
      exact hborn (hun.2 k)
    rw [hother g' hne]
    exact hun
  · have hne : g' ≠ g := by
      intro he
      subst he
      have hgen := hs.current g' (by simp [show s.phase = .awaiting g' from hp, Phase.current])
      have hoff := hover hgen.symm
      rw [show s.isConnected = true from hcon] at hoff
      cases hoff
    rw [hother g' hne]
    exact hs.working g' hp hcon

theorem Core.disconnected (hs : Core s) : Core { s with isConnected := false, writer := none } :=
  ⟨rfl, by simp, hs.current, hs.unborn, by simp⟩

theorem Core.tasks_of_connected (hs : Core s) (hcon : s.isConnected = true) :
    (∀ k, s.tasks s.attempts k = .unspawned) ∨
      (∀ k, s.tasks s.attempts k ≠ .notifying) ∧ s.tasks s.attempts .writer = .running := by
  have hlive := hs.live hcon
  cases hp : s.phase with
  | awaiting g =>
    have hg := hs.current g (by simp [hp, Phase.current])
    obtain ⟨-, hnot, hw, -⟩ := hs.working g hp hcon
    exact .inr (hg ▸ ⟨hnot, hw⟩)
  | emitLocking g | emitting g left =>
    have hg := hs.current g (by simp [hp, Phase.current, Phase.unspawned])
    exact .inl (hg ▸ (hs.unborn g (.inr (by simp [hp, Phase.unspawned]))).2)
  | _ => simp [hp, Phase.Live] at hlive

theorem Core.notifying_off (hs : Core s) {g : ℕ} {k : Task} (hpc : s.tasks g k = .notifying)
    (hgen : s.attempts = g) : s.isConnected = false := by
  by_contra hcon
  rw [← hgen] at hpc
  rcases hs.tasks_of_connected (by simpa using hcon) with hun | ⟨hnot, -⟩
  · rw [hun k] at hpc
    cases hpc
  · exact hnot k hpc

theorem Core.writer_ne_done (hs : Core s) (hcon : s.isConnected = true) :
    s.tasks s.attempts .writer ≠ .done := by
  intro hdone
  rcases hs.tasks_of_connected hcon with hun | ⟨-, hw⟩
  · rw [hun .writer] at hdone
    cases hdone
  · rw [hw] at hdone
    cases hdone

theorem Core.signal (hs : Core s) {g : ℕ} {k : Task} (hpc : s.tasks g k = .notifying) :
    Core { s with signalled := Function.update s.signalled g true } := by
  refine ⟨hs.writer, hs.live, hs.current, fun g' hg' => ?_, fun g' hp hcon => ?_⟩
  · have hun := hs.unborn g' hg'
    have hne : g' ≠ g := by
      intro he
      subst he
      rw [hun.2 k] at hpc
      cases hpc
    simpa [Function.update_of_ne hne] using hun
  · have hne : g' ≠ g := by
      intro he
      subst he
      have hgen := hs.current g' (by simp [show s.phase = .awaiting g' from hp, Phase.current])
      have hoff := hs.notifying_off hpc hgen.symm
      rw [show s.isConnected = true from hcon] at hoff
      cases hoff
    simpa [Function.update_of_ne hne] using hs.working g' hp hcon

theorem Core.worked (hs : Core s) {g : ℕ} {k : Task} {op : TaskOp} {s' : State}
    (h : Worked s g k op s') : Core s' := by
  cases h with
  | lost hpc _ _ => exact hs.disconnected.setTask (by simp [hpc]) (fun _ => rfl)
  | idle hpc hover => exact hs.setTask (by simp [hpc]) fun h => hover (congrArg generation h)
  | stale hpc hgen => exact hs.setTask (by simp [hpc]) fun h => absurd (congrArg generation h) hgen
  | signal hpc => exact (hs.signal hpc).setTask (by simp [hpc]) (hs.notifying_off hpc)

theorem finishClose_on (hon : s.isConnected = true) (caller : ℕ) : finishClose s caller =
    { s with isConnected := false, writer := none }.setCloser caller .notifying := by
  simp [Lifecycle.finishClose, disconnect_live hon]

theorem finishClose_off (hoff : s.isConnected = false) (caller : ℕ) :
    finishClose s caller = { s.setCloser caller .returned with closed := true } := by
  simp [Lifecycle.finishClose, disconnect_over fun _ => hoff]

theorem Core.finishClose (hs : Core s) (caller : ℕ) : Core (finishClose s caller) := by
  cases hcon : s.isConnected with
  | true =>
    rw [finishClose_on hcon]
    exact hs.disconnected.congr rfl rfl rfl rfl rfl rfl
  | false =>
    rw [finishClose_off hcon]
    exact hs.congr rfl rfl rfl rfl rfl rfl

theorem Core.closing (hs : Core s) {caller : ℕ} {op : CloseOp} {s' : State}
    (h : Closing s caller op s') : Core s' := by
  have hshut : Core { s with shutdown := true } := hs.congr rfl rfl rfl rfl rfl rfl
  cases h with
  | sending _ => exact hs.congr rfl rfl rfl rfl rfl rfl
  | unwritten _ => exact hshut.finishClose caller
  | sent _ => exact hs.finishClose caller
  | notified _ => exact hs.congr rfl rfl rfl rfl rfl rfl

theorem Core.onConnected (hs : Core s) {s' : State} (h : Lifecycle.onConnected s = some s') :
    Core s' := by
  unfold Lifecycle.onConnected at h
  split at h <;> cases h
  exact hs.congr rfl rfl rfl rfl rfl rfl

theorem Core.step (hs : Core s) {cfg : Config} {a : Action} {s' : State}
    (h : Lifecycle.step cfg a s = some s') : Core s' := by
  cases a with
  | supervisor op => exact hs.supervised (Lifecycle.supervised h)
  | task g k op => exact hs.worked (Lifecycle.worked h)
  | close caller op => exact hs.closing (Lifecycle.closing h)
  | onConnected => exact hs.onConnected h

end Tasks

/-! ### What happens to a generation -/

/-- The connection whose `on_disconnected` handlers a step goes on to emit. -/
def notified (s : State) : Action → Option ℕ
  | .task g _ .stop => if (disconnect s (generation g)).2 then some s.attempts else none
  | .close _ .call =>
    if s.writer = none ∧ (disconnect s s.connectionGeneration).2 then some s.attempts else none
  | .close _ .sent => if (disconnect s s.connectionGeneration).2 then some s.attempts else none
  | _ => none

theorem notified_off {s : State} (hoff : s.isConnected = false) (a : Action) : notified s a = none := by
  unfold notified
  split <;> simp [disconnect_over fun _ => hoff]

theorem notified_sent (s : State) (caller : ℕ) : notified s (.close caller .sent) =
    if s.isConnected then some s.attempts else none := by
  cases hcon : s.isConnected with
  | true => simp [notified, disconnect_live hcon]
  | false => simp [notified_off hcon]

inductive Event where
  | connected (generation : UInt64)
  | disconnected (generation : UInt64)
  | emitted (generation : UInt64)
  deriving DecidableEq

def Event.generation : Event → UInt64
  | .connected g | .disconnected g | .emitted g => g

/-- What a step did to `is_connected`, and whether it emits. -/
def events (a : Action) (s s' : State) : List Event :=
  (if s.isConnected = false ∧ s'.isConnected = true then [.connected s'.connectionGeneration]
    else []) ++
    (if s.isConnected = true ∧ s'.isConnected = false then [.disconnected s.connectionGeneration]
      else []) ++
      ((notified s a).map fun g => Event.emitted (Lifecycle.generation g)).toList

/-- The client together with the events so far. -/
structure Observed where
  client : State
  log : List Event

def Observed.step (cfg : Config) (a : Action) (o : Observed) : Option Observed :=
  (Lifecycle.step cfg a o.client).map fun s' => ⟨s', o.log ++ events a o.client s'⟩

/-- A step that neither starts a generation nor touches `is_connected`. -/
structure Quiet (s s' : State) : Prop where
  isConnected : s'.isConnected = s.isConnected
  attempts : s'.attempts = s.attempts
  dialing : ∀ g, s'.phase.Dialing g → s.phase.Dialing g

inductive Change (a : Action) (s s' : State) : Prop
  | quiet (hquiet : Quiet s s') (hnote : notified s a = none)
  | started (hoff : s.isConnected = false) (hoff' : s'.isConnected = false)
      (hgen : s'.attempts = s.attempts + 1) (hnote : notified s a = none)
  | published (hdial : s.phase.Dialing s.attempts) (hoff : s.isConnected = false)
      (hon : s'.isConnected = true) (hgen : s'.attempts = s.attempts)
      (hlive : ∀ g, ¬ s'.phase.Dialing g) (hnote : notified s a = none)
  | lost (hon : s.isConnected = true) (hoff : s'.isConnected = false)
      (hgen : s'.attempts = s.attempts) (hphase : s'.phase = s.phase)
      (hnote : notified s a = some s.attempts)

section Changes

variable {s : State}

theorem Core.change_supervised (hs : Core s) {op : SupervisorOp} {s' : State}
    (h : Supervised s op s') : Change (.supervisor op) s s' := by
  cases h with
  | start hp _ =>
    have hoff := hs.off (.top hp)
    exact .started hoff hoff rfl rfl
  | @dial _ g p hp hp' =>
    refine .quiet ⟨rfl, rfl, fun g' hg' => ?_⟩ rfl
    have heq : some g = some g' := hp'.current.symm.trans hg'.current
    cases heq
    exact hp
  | rest ready hun hp =>
    refine .quiet ⟨rfl, rfl, fun g hg => ?_⟩ rfl
    rcases hp with rfl | ⟨rfl, _⟩ | ⟨rfl, _⟩ <;> exact hg.elim
  | @publish g hp =>
    have hdial : s.phase.Dialing g := by simp [hp, Phase.Dialing]
    have hgen := hs.current g hdial.current
    exact .published (hgen ▸ hdial) (hs.off (.dialing g hdial)) rfl rfl (fun _ h => h.elim) rfl
  | emit left invoked hp _ => exact .quiet ⟨rfl, rfl, fun _ h => h.elim⟩ rfl
  | spawn ready hp => exact .quiet ⟨rfl, rfl, fun _ h => h.elim⟩ rfl

theorem change_worked {g : ℕ} {k : Task} {op : TaskOp} {s' : State} (h : Worked s g k op s') :
    Change (.task g k op) s s' := by
  cases h with
  | lost _ hgen hcon =>
    exact .lost hcon rfl rfl rfl (by simp [notified, ← hgen, disconnect_live hcon])
  | idle _ hover => exact .quiet ⟨rfl, rfl, fun _ h => h⟩ (by simp [notified, disconnect_over hover])
  | stale _ _ => exact .quiet ⟨rfl, rfl, fun _ h => h⟩ rfl
  | signal _ => exact .quiet ⟨rfl, rfl, fun _ h => h⟩ rfl

theorem change_finishClose (s : State) (caller : ℕ) {a : Action}
    (hnote : notified s a = if s.isConnected then some s.attempts else none) :
    Change a s (finishClose s caller) := by
  cases hcon : s.isConnected with
  | true =>
    rw [finishClose_on hcon]
    exact .lost hcon rfl rfl rfl (by simpa [hcon] using hnote)
  | false =>
    rw [finishClose_off hcon]
    exact .quiet ⟨rfl, rfl, fun _ h => h⟩ (by simpa [hcon] using hnote)

theorem Core.change_closing (hs : Core s) {caller : ℕ} {op : CloseOp} {s' : State}
    (h : Closing s caller op s') : Change (.close caller op) s s' := by
  cases h with
  | sending hw => exact .quiet ⟨rfl, rfl, fun _ h => h⟩ (by simp [notified, hw])
  | unwritten hw =>
    have hoff : s.isConnected = false := by simpa [hw] using hs.writer
    rw [finishClose_off (s := { s with shutdown := true }) hoff]
    exact .quiet ⟨rfl, rfl, fun _ h => h⟩ (notified_off hoff _)
  | sent _ => exact change_finishClose s caller (notified_sent s caller)
  | notified _ => exact .quiet ⟨rfl, rfl, fun _ h => h⟩ rfl

/-- A step is quiet, starts a generation, publishes the current one or takes it down. -/
theorem Core.change (hs : Core s) {cfg : Config} {a : Action} {s' : State}
    (h : Lifecycle.step cfg a s = some s') : Change a s s' := by
  cases a with
  | supervisor op => exact hs.change_supervised (Lifecycle.supervised h)
  | task g k op => exact change_worked (Lifecycle.worked h)
  | close caller op => exact hs.change_closing (Lifecycle.closing h)
  | onConnected =>
    simp only [Lifecycle.step, Lifecycle.onConnected] at h
    split at h <;> cases h
    exact .quiet ⟨rfl, rfl, fun _ h => h⟩ rfl

end Changes

theorem generation_toNat_le (attempt : ℕ) : (generation attempt).toNat ≤ attempt := by
  rw [generation, UInt64.toNat_ofNat']
  exact Nat.mod_le _ _

theorem generation_toNat {attempt : ℕ} (h : attempt < 2 ^ 64) : (generation attempt).toNat = attempt :=
  UInt64.toNat_ofNat_of_lt' h

structure Logged (o : Observed) : Prop where
  core : Core o.client
  bounded : ∀ e ∈ o.log, e.generation.toNat ≤ o.client.attempts
  fresh : o.client.phase.Dialing o.client.attempts →
    ∀ e ∈ o.log, e.generation ≠ o.client.connectionGeneration
  alive : o.client.isConnected = true → .connected o.client.connectionGeneration ∈ o.log ∧
    .disconnected o.client.connectionGeneration ∉ o.log ∧
    .emitted o.client.connectionGeneration ∉ o.log
  once : o.log.Nodup
  emitted : ∀ g, .emitted g ∈ o.log → .connected g ∈ o.log

theorem logged_init : Logged ⟨State.init, []⟩ :=
  ⟨core_init, by simp, by simp, by simp [State.init], List.nodup_nil, by simp⟩

section Logs

variable {o : Observed} {s' : State}

theorem Logged.quiet (ho : Logged o) (hcore : Core s') (hquiet : Quiet o.client s') :
    Logged ⟨s', o.log⟩ := by
  have hnumber : s'.connectionGeneration = o.client.connectionGeneration :=
    congrArg generation hquiet.attempts
  refine ⟨hcore, ?_, ?_, ?_, ho.once, ho.emitted⟩
  · simpa only [hquiet.attempts] using ho.bounded
  · rw [hquiet.attempts, hnumber]
    exact fun hd => ho.fresh (hquiet.dialing _ hd)
  · simpa only [hnumber, hquiet.isConnected] using ho.alive

theorem Logged.started (ho : Logged o) (hcore : Core s') (hoff : s'.isConnected = false)
    (hgen : s'.attempts = o.client.attempts + 1) (hbound : s'.attempts < 2 ^ 64) :
    Logged ⟨s', o.log⟩ := by
  -- a new generation is above everything logged so far
  have hbelow : ∀ e ∈ o.log, e.generation.toNat < s'.attempts := by
    intro e he
    have := ho.bounded e he
    omega
  refine ⟨hcore, fun e he => (hbelow e he).le, fun _ e he heq => ?_, by simp [hoff], ho.once, ho.emitted⟩
  have hlt := hbelow e he
  rw [heq, State.connectionGeneration, generation_toNat hbound] at hlt
  exact hlt.false

theorem Logged.published (ho : Logged o) (hcore : Core s')
    (hdial : o.client.phase.Dialing o.client.attempts) (hgen : s'.attempts = o.client.attempts)
    (hlive : ∀ g, ¬ s'.phase.Dialing g) :
    Logged ⟨s', o.log ++ [.connected o.client.connectionGeneration]⟩ := by
  have hnumber : s'.connectionGeneration = o.client.connectionGeneration := congrArg generation hgen
  have hnew := ho.fresh hdial
  refine ⟨hcore, fun e he => ?_, fun hd => absurd hd (hlive _), fun _ => ⟨?_, ?_, ?_⟩, ?_, fun g hg => ?_⟩
  · simp only [List.mem_append, List.mem_singleton] at he
    rcases he with he | rfl
    · exact hgen ▸ ho.bounded e he
    · exact hgen ▸ generation_toNat_le _
  · simp [hnumber]
  · simp only [hnumber, List.mem_append, List.mem_singleton, reduceCtorEq, or_false]
    exact fun he => hnew _ he rfl
  · simp only [hnumber, List.mem_append, List.mem_singleton, reduceCtorEq, or_false]
    exact fun he => hnew _ he rfl
  · refine List.nodup_append.mpr ⟨ho.once, List.nodup_singleton _, fun e he e' he' heq => ?_⟩
    rw [heq, List.mem_singleton.mp he'] at he
    exact hnew _ he rfl
  · simp only [List.mem_append, List.mem_singleton, reduceCtorEq, or_false] at hg
    exact List.mem_append_left _ (ho.emitted g hg)

theorem Logged.lost (ho : Logged o) (hcore : Core s') (hon : o.client.isConnected = true)
    (hoff : s'.isConnected = false) (hgen : s'.attempts = o.client.attempts)
    (hphase : s'.phase = o.client.phase) :
    Logged ⟨s', o.log ++ [.disconnected o.client.connectionGeneration,
      .emitted o.client.connectionGeneration]⟩ := by
  obtain ⟨hconn, hdis, hem⟩ := ho.alive hon
  refine ⟨hcore, fun e he => ?_, fun hd => ?_, by simp [hoff], ?_, fun g hg => ?_⟩
  · simp only [List.mem_append, List.mem_cons, List.not_mem_nil, or_false] at he
    rcases he with he | rfl | rfl
    · exact hgen ▸ ho.bounded e he
    · exact hgen ▸ generation_toNat_le _
    · exact hgen ▸ generation_toNat_le _
  · -- the phase is live, so no dial is under way
    rw [hphase] at hd
    exact absurd (.inl (ho.core.live hon)) hd.not_live
  · refine List.nodup_append.mpr ⟨ho.once, by simp, fun e he e' he' heq => ?_⟩
    simp only [List.mem_cons, List.not_mem_nil, or_false] at he'
    rcases he' with rfl | rfl
    · exact hdis (heq ▸ he)
    · exact hem (heq ▸ he)
  · simp only [List.mem_append, List.mem_cons, List.not_mem_nil, or_false, reduceCtorEq,
      Event.emitted.injEq, false_or] at hg
    refine List.mem_append_left _ ?_
    rcases hg with hg | rfl
    · exact ho.emitted g hg
    · exact hconn

end Logs

theorem Change.attempts_le {a : Action} {s s' : State} (h : Change a s s') :
    s.attempts ≤ s'.attempts := by
  cases h with
  | quiet hquiet _ => exact hquiet.attempts.ge
  | started _ _ hgen _ => omega
  | published _ _ _ hgen _ _ => exact hgen.ge
  | lost _ _ hgen _ _ => exact hgen.ge

theorem Logged.step {cfg : Config} {a : Action} {o o' : Observed} (ho : Logged o)
    (hbound : o'.client.attempts < 2 ^ 64) (h : o.step cfg a = some o') : Logged o' := by
  obtain ⟨s', hs', rfl⟩ := Option.map_eq_some_iff.mp h
  have hcore := ho.core.step hs'
  cases ho.core.change hs' with
  | quiet hquiet hnote =>
    have hev : events a o.client s' = [] := by
      cases hcon : o.client.isConnected <;> simp [events, hnote, hquiet.isConnected, hcon]
    simpa only [hev, List.append_nil] using ho.quiet hcore hquiet
  | started hoff hoff' hgen hnote =>
    have hev : events a o.client s' = [] := by simp [events, hnote, hoff, hoff']
    simpa only [hev, List.append_nil] using ho.started hcore hoff' hgen hbound
  | published hdial hoff hon hgen hlive hnote =>
    have hev : events a o.client s' = [.connected o.client.connectionGeneration] := by
      simp [events, hnote, hoff, hon, State.connectionGeneration, hgen]
    simpa only [hev] using ho.published hcore hdial hgen hlive
  | lost hon hoff hgen hphase hnote =>
    have hev : events a o.client s' = [.disconnected o.client.connectionGeneration,
        .emitted o.client.connectionGeneration] := by
      simp [events, hnote, hoff, hon, State.connectionGeneration]
    simpa only [hev] using ho.lost hcore hon hoff hgen hphase

theorem run_logged {cfg : Config} {acts : List Action} {o : Observed}
    (h : Machine.run (Observed.step cfg) acts ⟨State.init, []⟩ = some o) :
    Core o.client ∧ (o.client.attempts < 2 ^ 64 → Logged o) := by
  refine Machine.run_invariant (I := fun o => Core o.client ∧ (o.client.attempts < 2 ^ 64 → Logged o))
    (fun a o o' ho h => ?_) h ⟨core_init, fun _ => logged_init⟩
  obtain ⟨s', hs', heq⟩ := Option.map_eq_some_iff.mp h
  have hs : o'.client = s' := by rw [← heq]
  have hle : o.client.attempts ≤ o'.client.attempts := hs ▸ (ho.1.change hs').attempts_le
  exact ⟨hs ▸ ho.1.step hs', fun hbound => (ho.2 (hle.trans_lt hbound)).step hbound h⟩

theorem stop_stale {cfg : Config} {s s' : State} {g : ℕ} {k : Task}
    (hg : s.connectionGeneration ≠ generation g)
    (h : Lifecycle.step cfg (.task g k .stop) s = some s') : s' = s.setTask g k .done := by
  cases worked h with
  | lost _ hgen _ => exact absurd hgen hg
  | idle _ _ => rfl

theorem generation_older {s : State} {g : ℕ} (hg : g < s.attempts) (hbound : s.attempts < 2 ^ 64) :
    s.connectionGeneration ≠ generation g := by
  intro heq
  have hnat := congrArg UInt64.toNat heq
  rw [State.connectionGeneration, generation_toNat hbound, generation_toNat (hg.trans hbound)] at hnat
  omega

/-- In every interleaving of the supervisor, the tasks of all connections and any number of
`close()` calls, with fewer than `2 ^ 64` attempts: the writer stored while connected is the
current connection's; a generation is disconnected and emitted at most once, and emitted only
after it was connected; the report of an older one changes nothing but its own task; and no
generation starts while connected. -/
theorem generation_invariant (cfg : Config) {acts : List Action} {s : State} {log : List Event}
    (h : Machine.run (Observed.step cfg) acts ⟨State.init, []⟩ = some ⟨s, log⟩)
    (hbound : s.attempts < 2 ^ 64) :
    (s.isConnected = true → s.writer = some s.attempts) ∧
    (∀ g, log.count (.disconnected g) ≤ 1 ∧ log.count (.emitted g) ≤ 1 ∧
      (.emitted g ∈ log → .connected g ∈ log)) ∧
    (∀ g < s.attempts, disconnect s (generation g) = (s, false) ∧ ∀ k s',
      Lifecycle.step cfg (.task g k .stop) s = some s' → s' = s.setTask g k .done) ∧
    (∀ a s', Lifecycle.step cfg a s = some s' → s'.attempts ≠ s.attempts →
      s.isConnected = false) := by
  have hlog : Logged ⟨s, log⟩ := (run_logged h).2 hbound
  have hcount := List.nodup_iff_count_le_one.mp hlog.once
  refine ⟨fun hcon => ?_, fun g => ⟨hcount _, hcount _, hlog.emitted g⟩, fun g hg => ?_, ?_⟩
  · simpa [hcon] using hlog.core.writer
  · have hne := generation_older hg hbound
    exact ⟨disconnect_over fun he => absurd he hne, fun k s' hs' => stop_stale hne hs'⟩
  · intro a s' hs' hgen
    cases hlog.core.change hs' with
    | quiet hquiet _ => exact absurd hquiet.attempts hgen
    | started hoff _ _ _ => exact hoff
    | published _ hoff _ _ _ _ => exact hoff
    | lost _ _ hgen' _ _ => exact absurd hgen' hgen

/-- The writer loses the first connection and a second one comes up; the heartbeat of the
first then finds its channel closed. -/
def lateHeartbeat : List Action :=
  [.supervisor .top, .supervisor (.connectResult true), .supervisor .publish,
    .supervisor .lockHandlers, .supervisor .spawnTasks,
    .task 1 .writer .stop, .task 1 .writer .signal, .supervisor .wake, .supervisor .slept,
    .supervisor .top, .supervisor (.connectResult true), .supervisor .publish,
    .supervisor .lockHandlers, .supervisor .spawnTasks, .task 1 .heartbeat .stop]

theorem generation_invariant_lateHeartbeat : ∃ s log,
    Machine.run (Observed.step plainConfig) lateHeartbeat ⟨State.init, []⟩ = some ⟨s, log⟩ ∧
      log = [.connected 1, .disconnected 1, .emitted 1, .connected 2] ∧
      s.isConnected = true ∧ s.writer = some 2 := by
  obtain ⟨o, ho⟩ : ∃ o,
    Machine.run (Observed.step plainConfig) lateHeartbeat ⟨State.init, []⟩ = some o := ⟨_, rfl⟩
  have hcon : o.client.isConnected = true := by
    cases ho
    rfl
  have hlog : o.log = [.connected 1, .disconnected 1, .emitted 1, .connected 2] := by
    cases ho
    rfl
  have hattempts : o.client.attempts = 2 := by
    cases ho
    rfl
  refine ⟨o.client, o.log, ho, hlog, hcon, ?_⟩
  rw [← hattempts]
  exact (generation_invariant plainConfig ho (by omega)).1 hcon

/-! ### After `2 ^ 64` attempts -/

/-- The next attempt comes up. -/
def dialAgain : List Action :=
  [.supervisor .top, .supervisor (.connectResult true), .supervisor .publish,
    .supervisor .lockHandlers, .supervisor .spawnTasks]

/-- The writer of a connection loses it and the supervisor goes round. -/
def loseAgain (attempt : ℕ) : List Action :=
  [.task attempt .writer .stop, .task attempt .writer .signal, .supervisor .wake, .supervisor .slept]

/-- `n` connections came up and were lost; the heartbeat of the first has not looked yet. -/
structure Cycled (n : ℕ) (s : State) : Prop where
  phase : s.phase = .top
  off : s.isConnected = false
  running : s.shutdown = false
  attempts : s.attempts = n
  handlers : s.handlers = 0
  heartbeat : 0 < n → s.tasks 1 .heartbeat = .running
  writer : 0 < n → s.tasks 1 .writer = .done

/-- The next connection is up as well. -/
structure Redialled (n : ℕ) (s : State) : Prop where
  phase : s.phase = .awaiting (n + 1)
  on : s.isConnected = true
  running : s.shutdown = false
  attempts : s.attempts = n + 1
  handlers : s.handlers = 0
  fresh : ∀ k, s.tasks (n + 1) k = .running
  heartbeat : s.tasks 1 .heartbeat = .running
  writer : 0 < n → s.tasks 1 .writer = .done

theorem Cycled.dialAgain {n : ℕ} {s : State} (h : Cycled n s) :
    ∃ s', Machine.run (Lifecycle.step plainConfig) dialAgain s = some s' ∧ Redialled n s' := by
  obtain ⟨con, w, shut, att, ready, ph, tasks, sig, cl, hd, closed, late, inv⟩ := s
  obtain ⟨rfl, rfl, rfl, rfl, rfl, hhb, hw⟩ := h
  dsimp only at hhb hw
  refine ⟨_, rfl, rfl, rfl, rfl, rfl, rfl, fun k => ?_, ?_, fun hn => ?_⟩
  · change Function.update tasks (att + 1) (fun _ => .running) (att + 1) k = .running
    simp
  · change Function.update tasks (att + 1) (fun _ => .running) 1 .heartbeat = .running
    by_cases hn : 0 < att
    · have hne : 1 ≠ att + 1 := by omega
      rw [Function.update_of_ne hne, hhb hn]
    · have hone : att + 1 = 1 := by omega
      simp [hone]
  · change 0 < att at hn
    change Function.update tasks (att + 1) (fun _ => .running) 1 .writer = .done
    have hne : 1 ≠ att + 1 := by omega
    rw [Function.update_of_ne hne, hw hn]

theorem Redialled.loseAgain {n : ℕ} {s : State} (h : Redialled n s) :
    ∃ s', Machine.run (Lifecycle.step plainConfig) (loseAgain (n + 1)) s = some s' ∧ Cycled (n + 1) s' := by
  obtain ⟨con, w, shut, att, ready, ph, tasks, sig, cl, hd, closed, late, inv⟩ := s
  obtain ⟨hp, hon, hrun, hatt, hhd, hfresh, hhb, hw⟩ := h
  dsimp only at hp hon hrun hatt hhd hfresh hhb hw
  subst hp hon hrun hatt hhd
  simp only [Machine.run, Lifecycle.loseAgain, Lifecycle.step, stepTask, hfresh, disconnect,
    isConnectionGenerationActive, State.connectionGeneration, State.setTask, stepSupervisor,
    afterConnection, plainConfig]
  simp only [reduceCtorEq, false_and, if_false, beq_self_eq_true, Bool.not_true, Bool.false_eq_true,
    if_true, Function.update_self, Option.bind_some, true_or, Option.some.injEq, exists_eq_left']
  refine ⟨rfl, rfl, rfl, rfl, rfl, fun _ => ?_, fun _ => ?_⟩
  all_goals
    dsimp only
    by_cases hn : 0 < n
    · have hne : 1 ≠ n + 1 := by omega
      simp [Function.update_of_ne hne, hhb, hw hn]
    · obtain rfl : n = 0 := by omega
      simp [hfresh]

theorem exists_cycled (n : ℕ) :
    ∃ acts s, Machine.run (Lifecycle.step plainConfig) acts State.init = some s ∧ Cycled n s := by
  induction n with
  | zero => exact ⟨[], State.init, rfl, rfl, rfl, rfl, rfl, rfl, by simp, by simp⟩
  | succ n ih =>
    obtain ⟨acts, s, hs, hcycled⟩ := ih
    obtain ⟨s₁, hs₁, hup⟩ := hcycled.dialAgain
    obtain ⟨s₂, hs₂, hdown⟩ := hup.loseAgain
    refine ⟨acts ++ (dialAgain ++ loseAgain (n + 1)), s₂, ?_, hdown⟩
    simp [Machine.run_append, hs, hs₁, hs₂]

/-- The connection with number `2 ^ 64 + 1` has the generation of the first, so the first one's
heartbeat takes it down. -/
theorem lateHeartbeat_disconnects : ∃ acts s s',
    Machine.run (Lifecycle.step plainConfig) acts State.init = some s ∧
      s.isConnected = true ∧ s.attempts = 2 ^ 64 + 1 ∧
      Lifecycle.step plainConfig (.task 1 .heartbeat .stop) s = some s' ∧ s'.isConnected = false := by
  obtain ⟨acts, s, hs, hcycled⟩ := exists_cycled (2 ^ 64)
  obtain ⟨s₁, hs₁, hup⟩ := hcycled.dialAgain
  have hgen : s₁.connectionGeneration = generation 1 := by
    rw [State.connectionGeneration, hup.attempts]
    rfl
  refine ⟨acts ++ dialAgain, s₁, ?_, ?_, hup.on, hup.attempts, ?_, ?_⟩
  · exact { s₁ with isConnected := false, writer := none }.setTask 1 .heartbeat .notifying
  · simp [Machine.run_append, hs, hs₁]
  · simp [Lifecycle.step, stepTask, hup.heartbeat, hup.writer (by decide), ← hgen, disconnect_live hup.on]
  · rfl

end Wscall.Client.Lifecycle
