import Wscall.Client.Generations

/-!
# `on_connected` notifications (`client_runtime.rs:225-248`, `623-625`, `871-879`)

A handler is invoked by its own registration when a connection is up, and by every
`emit_connected` that finds it in the list. The flag goes up before `emit_connected` waits
for the list, so a registration in between is seen by both.
-/

namespace Wscall.Client.Lifecycle
open RustStd Protocol

inductive Source where
  | registration
  | emission
  deriving DecidableEq

/-- What is recorded of a run. Handlers are numbered in the order they were pushed. -/
inductive Notice where
  | published (generation : ℕ)
  /-- `emit_connected` took its copy of the list. -/
  | copied (generation handlers : ℕ)
  | emitted (generation : ℕ)
  | lost (generation : ℕ)
  /-- The supervisor was in this phase when the handler was pushed. -/
  | registered (handler : ℕ) (phase : Phase)
  | invoked (handler generation : ℕ) (source : Source)
  deriving DecidableEq

structure Watched where
  client : State
  /-- The length of the copy that `emit_connected` goes through. -/
  copied : ℕ
  log : List Notice

def Watched.init : Watched := ⟨State.init, 0, []⟩

/-- `emit_connected` goes through its copy from the front. -/
def supervisorNotices (copied : ℕ) (s : State) : SupervisorOp → Phase → List Notice
  | .publish, .established g => [.published g]
  | .lockHandlers, .emitLocking g => [.copied g s.handlers]
  | .invokeHandler, .emitting g (left + 1) => [.invoked (copied - (left + 1)) g .emission]
  | .spawnTasks, .emitting g 0 => [.emitted g]
  | _, _ => []

def registrationNotices (s : State) : List Notice :=
  .registered s.handlers s.phase ::
    if s.isConnected then [.invoked s.handlers s.attempts .registration] else []

theorem mem_registrationNotices {s : State} {e : Notice} : e ∈ registrationNotices s ↔
    e = .registered s.handlers s.phase ∨
      s.isConnected = true ∧ e = .invoked s.handlers s.attempts .registration := by
  unfold registrationNotices
  split_ifs with hcon <;> simp [hcon]

def notices (copied : ℕ) (s : State) : Action → List Notice
  | .supervisor op => supervisorNotices copied s op s.phase
  | .onConnected => registrationNotices s
  | a => ((notified s a).map Notice.lost).toList

def Watched.copyLength (o : Watched) : Action → ℕ
  | .supervisor .lockHandlers => o.client.handlers
  | _ => o.copied

def Watched.step (cfg : Config) (a : Action) (o : Watched) : Option Watched :=
  (Lifecycle.step cfg a o.client).map fun s' =>
    ⟨s', o.copyLength a, o.log ++ notices o.copied o.client a⟩

def invocations (log : List Notice) (h g : ℕ) : ℕ :=
  log.count (.invoked h g .registration) + log.count (.invoked h g .emission)

/-! ### What a step does -/

/-- Invocations of `emit_connected` still to come. -/
def Phase.pending (g : ℕ) : Phase → ℕ
  | .emitting g' left => if g' = g then left else 0
  | _ => 0

structure Same (s s' : State) : Prop where
  isConnected : s'.isConnected = s.isConnected
  attempts : s'.attempts = s.attempts
  handlers : s'.handlers = s.handlers

inductive Moves (o : Watched) : Watched → Prop
  | quiet {s'} (same : Same o.client s') (hp : s'.phase = o.client.phase) :
      Moves o ⟨s', o.copied, o.log⟩
  /-- The supervisor between two connections. -/
  | offline {s'} (hoff : o.client.isConnected = false) (hoff' : s'.isConnected = false)
      (hhandlers : s'.handlers = o.client.handlers) (hpend : ∀ g, o.client.phase.pending g = 0)
      (hlive : ¬ s'.phase.Live)
      (hgen : s'.attempts = o.client.attempts ∧
          (∀ g, s'.phase.Dialing g → o.client.phase.Dialing g) ∨
        s'.attempts = o.client.attempts + 1) :
      Moves o ⟨s', o.copied, o.log⟩
  | published {s' g} (hp : o.client.phase = .established g) (hp' : s'.phase = .emitLocking g)
      (hon : s'.isConnected = true) (hgen : s'.attempts = o.client.attempts)
      (hhandlers : s'.handlers = o.client.handlers) :
      Moves o ⟨s', o.copied, o.log ++ [.published g]⟩
  | copied {s' g} (hp : o.client.phase = .emitLocking g)
      (hp' : s'.phase = .emitting g o.client.handlers) (same : Same o.client s') :
      Moves o ⟨s', o.client.handlers, o.log ++ [.copied g o.client.handlers]⟩
  | invoked {s' g left} (hp : o.client.phase = .emitting g (left + 1))
      (hp' : s'.phase = .emitting g left) (same : Same o.client s') :
      Moves o ⟨s', o.copied, o.log ++ [.invoked (o.copied - (left + 1)) g .emission]⟩
  | spawned {s' g} (hp : o.client.phase = .emitting g 0) (hp' : s'.phase = .awaiting g)
      (same : Same o.client s') : Moves o ⟨s', o.copied, o.log ++ [.emitted g]⟩
  | registered {s'} (hcon : s'.isConnected = o.client.isConnected)
      (hgen : s'.attempts = o.client.attempts) (hp : s'.phase = o.client.phase)
      (hhandlers : s'.handlers = o.client.handlers + 1) :
      Moves o ⟨s', o.copied, o.log ++ registrationNotices o.client⟩
  | lost {s'} (hon : o.client.isConnected = true) (hoff : s'.isConnected = false)
      (hgen : s'.attempts = o.client.attempts) (hp : s'.phase = o.client.phase)
      (hhandlers : s'.handlers = o.client.handlers) :
      Moves o ⟨s', o.copied, o.log ++ [.lost o.client.attempts]⟩

section Steps

variable {cfg : Config} {s s' : State}

theorem not_live_afterConnection (cfg : Config) (s : State) : ¬ (afterConnection cfg s).phase.Live := by
  unfold afterConnection
  split_ifs <;> exact not_false

theorem not_live_failed (cfg : Config) (s : State) : ¬ (failed cfg s).phase.Live := by
  unfold failed
  split_ifs
  · exact not_false
  · exact not_live_afterConnection cfg s

theorem not_live_afterEcdh (cfg : Config) (s : State) (g : ℕ) : ¬ (afterEcdh cfg s g).phase.Live := by
  unfold afterEcdh
  dsimp only
  split_ifs <;> exact not_false

/-- The four operations that lead into a live phase. -/
def SupervisorOp.Rises : SupervisorOp → Prop
  | .publish | .lockHandlers | .invokeHandler | .spawnTasks => True
  | _ => False

theorem not_live_of_step {op : SupervisorOp} (hop : ¬ op.Rises)
    (h : stepSupervisor cfg s op s.phase = some s') : ¬ s'.phase.Live := by
  generalize s.phase = p at h
  unfold stepSupervisor at h
  split at h
  · split_ifs at h <;> cases h <;> exact not_false
  · split_ifs at h <;> cases h
    · unfold afterConnect
      split_ifs
      · exact not_false
      · exact not_live_afterEcdh cfg s _
    · exact not_false
    · exact not_live_failed cfg s
  · cases h
    split_ifs
    · exact not_false
    · exact not_live_failed cfg s
  · split at h <;> cases h
    · split_ifs
      · exact not_live_afterEcdh cfg s _
      · exact not_live_failed cfg s
    · exact not_live_failed cfg s
  · cases h
    split_ifs
    · exact not_false
    · exact not_live_failed cfg s
  · split at h <;> cases h
    · split_ifs
      · exact not_false
      · exact not_live_failed cfg s
    · exact not_live_failed cfg s
  · exact absurd trivial hop
  · exact absurd trivial hop
  · exact absurd trivial hop
  · exact absurd trivial hop
  · split at h <;> cases h
    exact not_live_afterConnection cfg s
  · cases h
    exact not_false
  · cases h

theorem Phase.Dialing.pending {p : Phase} {g : ℕ} (h : p.Dialing g) (g' : ℕ) : p.pending g' = 0 := by
  cases p <;> first | rfl | exact h.elim

theorem Unconnected.pending (h : Unconnected s) (g : ℕ) : s.phase.pending g = 0 := by
  cases h with
  | top h => rw [h]; rfl
  | sleeping h => rw [h]; rfl
  | dialing g' h => exact h.pending g
  | ended g' h _ => rw [h]; rfl

theorem moves_offline {o : Watched} (hcore : Core o.client) {op : SupervisorOp}
    (h : stepSupervisor cfg o.client op o.client.phase = some s') (hop : ¬ op.Rises) :
    Moves o ⟨s', o.copied, o.log⟩ := by
  have hlive := not_live_of_step hop h
  have hsup := supervised h
  cases hsup with
  | start hp _ =>
    have hoff := hcore.off (.top hp)
    exact .offline hoff hoff rfl (by simp [hp, Phase.pending]) hlive (.inr rfl)
  | @dial _ g p hp hp' =>
    have hoff := hcore.off (.dialing g hp)
    refine .offline hoff hoff rfl hp.pending hlive (.inl ⟨rfl, fun g' hg' => ?_⟩)
    have heq : some g = some g' := hp'.current.symm.trans hg'.current
    cases heq
    exact hp
  | rest ready hun hp =>
    have hoff := hcore.off hun
    refine .offline hoff hoff rfl hun.pending hlive (.inl ⟨rfl, fun g hg => ?_⟩)
    rcases hp with rfl | ⟨rfl, _⟩ | ⟨rfl, _⟩ <;> exact hg.elim
  | publish hp => exact absurd trivial hop
  | emit left invoked hp _ => exact absurd trivial hlive
  | spawn ready hp => exact absurd trivial hlive

theorem moves_supervisor {o : Watched} (hcore : Core o.client) {op : SupervisorOp}
    (h : stepSupervisor cfg o.client op o.client.phase = some s') :
    Moves o ⟨s', o.copyLength (.supervisor op),
      o.log ++ supervisorNotices o.copied o.client op o.client.phase⟩ := by
  cases op with
  | publish =>
    generalize hp : o.client.phase = p at h
    cases p <;> simp only [stepSupervisor, reduceCtorEq] at h
    cases h
    exact .published hp rfl rfl rfl rfl
  | lockHandlers =>
    generalize hp : o.client.phase = p at h
    cases p <;> simp only [stepSupervisor, reduceCtorEq] at h
    cases h
    exact .copied hp rfl ⟨rfl, rfl, rfl⟩
  | invokeHandler =>
    generalize hp : o.client.phase = p at h
    rcases p with _ | _ | _ | _ | _ | _ | _ | _ | ⟨g, _ | left⟩ | _ | _ | _ <;>
      simp only [stepSupervisor, reduceCtorEq] at h
    cases h
    exact .invoked hp rfl ⟨rfl, rfl, rfl⟩
  | spawnTasks =>
    generalize hp : o.client.phase = p at h
    rcases p with _ | _ | _ | _ | _ | _ | _ | _ | ⟨g, _ | left⟩ | _ | _ | _ <;>
      simp only [stepSupervisor, reduceCtorEq] at h
    cases h
    exact .spawned hp rfl ⟨rfl, rfl, rfl⟩
  | _ =>
    simp only [supervisorNotices, List.append_nil]
    exact moves_offline hcore h not_false

theorem moves_worked {o : Watched} {g : ℕ} {k : Task} {op : TaskOp}
    (h : Worked o.client g k op s') :
    Moves o ⟨s', o.copied, o.log ++ notices o.copied o.client (.task g k op)⟩ := by
  cases h with
  | lost _ hgen hcon =>
    simp only [notices, notified, ← hgen, disconnect_live hcon, if_true, Option.map_some,
      Option.toList_some]
    exact .lost hcon rfl rfl rfl rfl
  | idle _ hover =>
    simp only [notices, notified, disconnect_over hover, Bool.false_eq_true, if_false,
      Option.map_none, Option.toList_none, List.append_nil]
    exact .quiet ⟨rfl, rfl, rfl⟩ rfl
  | stale _ _ | signal _ =>
    simp only [notices, notified, Option.map_none, Option.toList_none, List.append_nil]
    exact .quiet ⟨rfl, rfl, rfl⟩ rfl

theorem moves_finishClose {o : Watched} {caller : ℕ} {a : Action} {copied : ℕ}
    (hcopied : copied = o.copied) (hnotices : notices o.copied o.client a =
      if o.client.isConnected then [.lost o.client.attempts] else []) :
    Moves o ⟨finishClose o.client caller, copied, o.log ++ notices o.copied o.client a⟩ := by
  rw [hcopied, hnotices]
  cases hcon : o.client.isConnected with
  | true =>
    rw [finishClose_on hcon, if_pos rfl]
    exact .lost hcon rfl rfl rfl rfl
  | false =>
    rw [finishClose_off hcon, if_neg Bool.false_ne_true, List.append_nil]
    exact .quiet ⟨rfl, rfl, rfl⟩ rfl

theorem moves_closing {o : Watched} (hcore : Core o.client) {caller : ℕ} {op : CloseOp}
    (h : Closing o.client caller op s') :
    Moves o ⟨s', o.copied, o.log ++ notices o.copied o.client (.close caller op)⟩ := by
  cases h with
  | sending hw =>
    simp only [notices, notified, hw, false_and, if_false, Option.map_none, Option.toList_none,
      List.append_nil]
    exact .quiet ⟨rfl, rfl, rfl⟩ rfl
  | unwritten hw =>
    -- nothing is connected when there is no writer
    have hoff : o.client.isConnected = false := by simpa [hw] using hcore.writer
    have hnote : notices o.copied o.client (.close caller .call) = [] := by
      simp [notices, notified_off hoff]
    rw [hnote, List.append_nil, finishClose_off (s := { o.client with shutdown := true }) hoff]
    exact .quiet ⟨rfl, rfl, rfl⟩ rfl
  | sent _ =>
    refine moves_finishClose rfl ?_
    cases hcon : o.client.isConnected <;> simp [notices, notified_sent, hcon]
  | notified _ =>
    simp only [notices, Lifecycle.notified, Option.map_none, Option.toList_none, List.append_nil]
    exact .quiet ⟨rfl, rfl, rfl⟩ rfl

theorem moves {o o' : Watched} (hcore : Core o.client) {a : Action} (h : o.step cfg a = some o') :
    Moves o o' ∧ Core o'.client := by
  obtain ⟨s', hs', rfl⟩ := Option.map_eq_some_iff.mp h
  refine ⟨?_, hcore.step hs'⟩
  cases a with
  | supervisor op => exact moves_supervisor hcore hs'
  | task g k op => exact moves_worked (worked hs')
  | close caller op => exact moves_closing hcore (closing hs')
  | onConnected =>
    simp only [Lifecycle.step, onConnected] at hs'
    split at hs' <;> cases hs'
    exact .registered rfl rfl rfl rfl

end Steps

/-! ### Generations in the log -/

structure Traced (o : Watched) : Prop where
  core : Core o.client
  bounded : ∀ g, .published g ∈ o.log → g ≤ o.client.attempts
  fresh : ∀ g, o.client.phase.Dialing g → .published g ∉ o.log
  alive : ∀ g, .published g ∈ o.log →
    .lost g ∈ o.log ∨ o.client.isConnected = true ∧ o.client.attempts = g
  locking : ∀ g, o.client.phase = .emitLocking g →
    .published g ∈ o.log ∧ ∀ k, .copied g k ∉ o.log
  copies : ∀ g k, .copied g k ∈ o.log → .published g ∈ o.log ∧ k ≤ o.client.handlers
  unique : ∀ g k k', .copied g k ∈ o.log → .copied g k' ∈ o.log → k = k'
  emitting : ∀ g left, o.client.phase = .emitting g left →
    .copied g o.copied ∈ o.log ∧ left ≤ o.copied
  awaiting : ∀ g, o.client.phase = .awaiting g → ∃ k, .copied g k ∈ o.log
  emitted : ∀ g, .emitted g ∈ o.log → (∃ k, .copied g k ∈ o.log) ∧ o.client.phase.pending g = 0

theorem traced_init : Traced Watched.init :=
  ⟨core_init, by simp [Watched.init], by simp [Watched.init], by simp [Watched.init],
    by simp [Watched.init, State.init], by simp [Watched.init], by simp [Watched.init],
    by simp [Watched.init, State.init], by simp [Watched.init, State.init], by simp [Watched.init]⟩

section Traces

variable {o : Watched} {s' : State} {g : ℕ}

theorem Traced.extend (ho : Traced o) (hcore : Core s') (hcon : s'.isConnected = o.client.isConnected)
    (hgen : s'.attempts = o.client.attempts) (hhandlers : o.client.handlers ≤ s'.handlers)
    {log : List Notice} (hpub : ∀ g, .published g ∈ log ↔ .published g ∈ o.log)
    (hcopy : ∀ g k, .copied g k ∈ log ↔ .copied g k ∈ o.log)
    (hlost : ∀ g, .lost g ∈ log ↔ .lost g ∈ o.log)
    (hdial : ∀ g, s'.phase.Dialing g → o.client.phase.Dialing g)
    (hlock : ∀ g, s'.phase = .emitLocking g → o.client.phase = .emitLocking g)
    (hemitting : ∀ g left, s'.phase = .emitting g left → .copied g o.copied ∈ o.log ∧ left ≤ o.copied)
    (hawaiting : ∀ g, s'.phase = .awaiting g → ∃ k, .copied g k ∈ o.log)
    (hemitted : ∀ g, .emitted g ∈ log → (∃ k, .copied g k ∈ o.log) ∧ s'.phase.pending g = 0) :
    Traced ⟨s', o.copied, log⟩ := by
  refine ⟨hcore, ?_, ?_, ?_, ?_, ?_, ?_, ?_, ?_, ?_⟩
  all_goals simp only [hpub, hcopy, hlost, hcon, hgen]
  · exact ho.bounded
  · exact fun g hd => ho.fresh g (hdial g hd)
  · exact ho.alive
  · exact fun g hp => ho.locking g (hlock g hp)
  · exact fun g k hk => ⟨(ho.copies g k hk).1, (ho.copies g k hk).2.trans hhandlers⟩
  · exact ho.unique
  · exact hemitting
  · exact hawaiting
  · exact hemitted

theorem Traced.same (ho : Traced o) (hcore : Core s') (hcon : s'.isConnected = o.client.isConnected)
    (hgen : s'.attempts = o.client.attempts) (hp : s'.phase = o.client.phase)
    (hhandlers : o.client.handlers ≤ s'.handlers) {log : List Notice}
    (hlog : ∀ e, (∀ h p, e ≠ .registered h p) → (∀ h g src, e ≠ .invoked h g src) →
      (e ∈ log ↔ e ∈ o.log)) : Traced ⟨s', o.copied, log⟩ := by
  refine ho.extend hcore hcon hgen hhandlers (fun g => hlog _ (by simp) (by simp))
    (fun g k => hlog _ (by simp) (by simp)) (fun g => hlog _ (by simp) (by simp)) ?_ ?_ ?_ ?_ ?_
  all_goals rw [hp]
  · exact fun _ hd => hd
  · exact fun _ hl => hl
  · exact ho.emitting
  · exact ho.awaiting
  · exact fun g hg => ho.emitted g ((hlog _ (by simp) (by simp)).mp hg)

theorem Traced.offline (ho : Traced o) (hcore : Core s') (hoff : o.client.isConnected = false)
    (hhandlers : s'.handlers = o.client.handlers) (hlive : ¬ s'.phase.Live)
    (hgen : s'.attempts = o.client.attempts ∧
        (∀ g, s'.phase.Dialing g → o.client.phase.Dialing g) ∨
      s'.attempts = o.client.attempts + 1) : Traced ⟨s', o.copied, o.log⟩ := by
  have hlost : ∀ g, .published g ∈ o.log → .lost g ∈ o.log := by
    intro g hg
    exact (ho.alive g hg).resolve_right (by simp [hoff])
  refine ⟨hcore, fun g hg => ?_, fun g hd hg => ?_, fun g hg => .inl (hlost g hg), fun g hp => ?_,
    ?_, ho.unique, fun g left hp => ?_, fun g hp => ?_, fun g hg => ⟨(ho.emitted g hg).1, ?_⟩⟩
  · have hle := ho.bounded g hg
    rcases hgen with ⟨hgen, -⟩ | hgen
    all_goals
      dsimp only
      omega
  · rcases hgen with ⟨-, hdial⟩ | hgen
    · exact ho.fresh g (hdial g hd) hg
    · have hle := ho.bounded g hg
      have hcur := hcore.current g hd.current
      omega
  · exact absurd (hp ▸ trivial) hlive
  · simpa only [hhandlers] using ho.copies
  · exact absurd (hp ▸ trivial) hlive
  · exact absurd (hp ▸ trivial) hlive
  · cases hp : s'.phase <;> first | rfl | exact absurd (hp ▸ trivial) hlive

theorem Traced.published (ho : Traced o) (hcore : Core s') (hp : o.client.phase = .established g)
    (hp' : s'.phase = .emitLocking g) (hon : s'.isConnected = true)
    (hgen : s'.attempts = o.client.attempts) (hhandlers : s'.handlers = o.client.handlers) :
    Traced ⟨s', o.copied, o.log ++ [.published g]⟩ := by
  have hdial : o.client.phase.Dialing g := hp ▸ rfl
  have hcur : g = o.client.attempts := ho.core.current g hdial.current
  have hoff := ho.core.off (.dialing g hdial)
  have hnew : ∀ k, .copied g k ∉ o.log := fun k hk => ho.fresh g hdial (ho.copies g k hk).1
  refine ⟨hcore, fun g' hg' => ?_, fun g' hd => ?_, fun g' hg' => ?_, fun g' hg' => ?_,
    fun g' k hk => ?_, fun g' k k' hk hk' => ?_, fun g' left hp'' => ?_, fun g' hp'' => ?_,
    fun g' hg' => ?_⟩
  all_goals
    simp only [List.mem_append, List.mem_singleton, reduceCtorEq, or_false, Notice.published.injEq,
      hp', Phase.emitLocking.injEq] at *
  · rcases hg' with hg' | rfl
    · exact hgen ▸ ho.bounded g' hg'
    · omega
  · exact hd.elim
  · rcases hg' with hg' | rfl
    · exact .inl ((ho.alive g' hg').resolve_right (by simp [hoff]))
    · exact .inr ⟨hon, by omega⟩
  · subst hg'
    exact ⟨.inr rfl, hnew⟩
  · exact ⟨.inl (ho.copies g' k hk).1, hhandlers ▸ (ho.copies g' k hk).2⟩
  · exact ho.unique g' k k' hk hk'
  · exact ⟨(ho.emitted g' hg').1, rfl⟩

theorem Traced.copied (ho : Traced o) (hcore : Core s') (hp : o.client.phase = .emitLocking g)
    (hp' : s'.phase = .emitting g o.client.handlers) (same : Same o.client s') :
    Traced ⟨s', o.client.handlers, o.log ++ [.copied g o.client.handlers]⟩ := by
  obtain ⟨hpub, hnew⟩ := ho.locking g hp
  refine ⟨hcore, fun g' hg' => ?_, fun g' hd => ?_, fun g' hg' => ?_, fun g' hg' => ?_,
    fun g' k hk => ?_, fun g' k k' hk hk' => ?_, fun g' left hp'' => ?_, fun g' hp'' => ?_,
    fun g' hg' => ?_⟩
  all_goals
    simp only [List.mem_append, List.mem_singleton, reduceCtorEq, or_false, Notice.copied.injEq,
      hp', Phase.emitting.injEq, same.isConnected, same.attempts, same.handlers] at *
  · exact ho.bounded g' hg'
  · exact hd.elim
  · exact ho.alive g' hg'
  · rcases hk with hk | ⟨rfl, rfl⟩
    · exact ho.copies g' k hk
    · exact ⟨hpub, le_rfl⟩
  · rcases hk with hk | ⟨rfl, rfl⟩
    · rcases hk' with hk' | ⟨rfl, rfl⟩
      · exact ho.unique g' k k' hk hk'
      · exact absurd hk (hnew k)
    · rcases hk' with hk' | ⟨-, rfl⟩
      · exact absurd hk' (hnew k')
      · rfl
  · obtain ⟨rfl, rfl⟩ := hp''
    exact ⟨.inr ⟨rfl, trivial⟩, le_rfl⟩
  · obtain ⟨⟨k, hk⟩, -⟩ := ho.emitted g' hg'
    have hne : g ≠ g' := fun he => hnew k (he ▸ hk)
    exact ⟨⟨k, .inl hk⟩, if_neg hne⟩

theorem Traced.invoked (ho : Traced o) (hcore : Core s') {left : ℕ}
    (hp : o.client.phase = .emitting g (left + 1)) (hp' : s'.phase = .emitting g left)
    (same : Same o.client s') (h : ℕ) :
    Traced ⟨s', o.copied, o.log ++ [.invoked h g .emission]⟩ := by
  obtain ⟨hcopy, hleft⟩ := ho.emitting g _ hp
  refine ho.extend hcore same.isConnected same.attempts same.handlers.ge (by simp) (by simp)
    (by simp) ?_ ?_ ?_ ?_ ?_
  all_goals rw [hp']
  · exact fun _ hd => hd.elim
  · exact fun _ hl => by cases hl
  · intro g' left' heq
    cases heq
    exact ⟨hcopy, by omega⟩
  · exact fun _ ha => by cases ha
  · intro g' hg'
    obtain ⟨hk, hpend⟩ := ho.emitted g' (by simpa using hg')
    refine ⟨hk, ?_⟩
    -- the pass of another generation was over, so this is not that one
    rw [hp] at hpend
    simp only [Phase.pending] at hpend ⊢
    split_ifs at hpend ⊢
    rfl

theorem Traced.spawned (ho : Traced o) (hcore : Core s') (hp : o.client.phase = .emitting g 0)
    (hp' : s'.phase = .awaiting g) (same : Same o.client s') :
    Traced ⟨s', o.copied, o.log ++ [.emitted g]⟩ := by
  obtain ⟨hcopy, -⟩ := ho.emitting g _ hp
  refine ho.extend hcore same.isConnected same.attempts same.handlers.ge (by simp) (by simp)
    (by simp) ?_ ?_ ?_ ?_ ?_
  all_goals rw [hp']
  · exact fun _ hd => hd.elim
  · exact fun _ hl => by cases hl
  · exact fun _ _ he => by cases he
  · intro g' heq
    cases heq
    exact ⟨_, hcopy⟩
  · intro g' hg'
    rcases List.mem_append.mp hg' with hg' | hg'
    · exact ⟨(ho.emitted g' hg').1, rfl⟩
    · cases List.mem_singleton.mp hg'
      exact ⟨⟨_, hcopy⟩, rfl⟩

theorem Traced.lost (ho : Traced o) (hcore : Core s') (hgen : s'.attempts = o.client.attempts)
    (hp : s'.phase = o.client.phase) (hhandlers : s'.handlers = o.client.handlers) :
    Traced ⟨s', o.copied, o.log ++ [.lost o.client.attempts]⟩ := by
  refine ⟨hcore, ?_, ?_, fun g hg => ?_, ?_, ?_, ?_, ?_, ?_, ?_⟩
  all_goals
    simp only [List.mem_append, List.mem_singleton, reduceCtorEq, or_false, hp, hgen, hhandlers,
      Notice.lost.injEq] at *
  · exact ho.bounded
  · exact ho.fresh
  · rcases ho.alive g hg with hlost | ⟨-, rfl⟩
    · exact .inl (.inl hlost)
    · exact .inl (.inr rfl)
  · exact ho.locking
  · exact ho.copies
  · exact ho.unique
  · exact ho.emitting
  · exact ho.awaiting
  · exact ho.emitted

theorem Traced.step {o' : Watched} (ho : Traced o) (hm : Moves o o') (hcore : Core o'.client) :
    Traced o' := by
  cases hm with
  | quiet same hp =>
    exact ho.same hcore same.isConnected same.attempts hp same.handlers.ge fun _ _ _ => .rfl
  | offline hoff _ hhandlers _ hlive hgen => exact ho.offline hcore hoff hhandlers hlive hgen
  | published hp hp' hon hgen hhandlers => exact ho.published hcore hp hp' hon hgen hhandlers
  | copied hp hp' same => exact ho.copied hcore hp hp' same
  | invoked hp hp' same => exact ho.invoked hcore hp hp' same _
  | spawned hp hp' same => exact ho.spawned hcore hp hp' same
  | registered hcon hgen hp hhandlers =>
    refine ho.same hcore hcon hgen hp (Nat.le.intro hhandlers.symm) fun e hreg hinv => ?_
    simp [mem_registrationNotices, hreg, hinv]
  | lost _ _ hgen hp hhandlers => exact ho.lost hcore hgen hp hhandlers

theorem Traced.connected (ho : Traced o) (hcon : o.client.isConnected = true) :
    o.client.phase = .emitLocking o.client.attempts ∨
      ∃ k ≤ o.client.handlers, .copied o.client.attempts k ∈ o.log := by
  have hlive := ho.core.live hcon
  cases hp : o.client.phase with
  | emitLocking g =>
    have hg := ho.core.current g (by simp [hp, Phase.current, Phase.unspawned])
    exact .inl (by rw [hg])
  | emitting g left =>
    have hg := ho.core.current g (by simp [hp, Phase.current, Phase.unspawned])
    have hk := (ho.emitting g left hp).1
    exact .inr ⟨_, (ho.copies _ _ hk).2, hg ▸ hk⟩
  | awaiting g =>
    have hg := ho.core.current g (by simp [hp, Phase.current])
    obtain ⟨k, hk⟩ := ho.awaiting g hp
    exact .inr ⟨k, (ho.copies _ _ hk).2, hg ▸ hk⟩
  | _ => simp [hp, Phase.Live] at hlive

end Traces

/-! ### Registrations -/

structure Numbered (o : Watched) : Prop where
  numbered : ∀ h p, .registered h p ∈ o.log → h < o.client.handlers
  single : ∀ h p p', .registered h p ∈ o.log → .registered h p' ∈ o.log → p = p'
  once : ∀ h g, o.log.count (.invoked h g .registration) ≤ 1
  born : ∀ h g, .invoked h g .registration ∈ o.log → h < o.client.handlers
  late : ∀ h g p, .invoked h g .registration ∈ o.log → .registered h p ∈ o.log →
    p ≠ .emitLocking g → ∃ k ≤ h, .copied g k ∈ o.log
  locked : ∀ h g, .registered h (.emitLocking g) ∈ o.log →
    (.invoked h g .registration ∈ o.log ∨ .lost g ∈ o.log) ∧ ∀ k, .copied g k ∈ o.log → h < k
  early : ∀ h p g k, .registered h p ∈ o.log → .copied g k ∈ o.log →
    .invoked h g .registration ∈ o.log ∨ h < k ∨ .lost g ∈ o.log

theorem numbered_init : Numbered Watched.init := by
  constructor <;> simp [Watched.init]

def Notice.Passive : Notice → Prop
  | .registered .. | .copied .. | .invoked _ _ .registration => False
  | _ => True

section Registrations

variable {o : Watched} {s' : State}

theorem Numbered.extend (hn : Numbered o) (hhandlers : s'.handlers = o.client.handlers) (copied : ℕ)
    {es : List Notice} (hes : ∀ e ∈ es, e.Passive) : Numbered ⟨s', copied, o.log ++ es⟩ := by
  have hmem : ∀ e : Notice, ¬ e.Passive → (e ∈ o.log ++ es ↔ e ∈ o.log) := by
    intro e he
    rw [List.mem_append, or_iff_left (fun h => he (hes e h))]
  have hreg : ∀ h p, .registered h p ∈ o.log ++ es ↔ .registered h p ∈ o.log :=
    fun h p => hmem _ not_false
  have hinv : ∀ h g, .invoked h g .registration ∈ o.log ++ es ↔ .invoked h g .registration ∈ o.log :=
    fun h g => hmem _ not_false
  have hcopy : ∀ g k, .copied g k ∈ o.log ++ es ↔ .copied g k ∈ o.log := fun g k => hmem _ not_false
  have hlost : ∀ {g}, .lost g ∈ o.log → .lost g ∈ o.log ++ es := List.mem_append_left es
  refine ⟨?_, ?_, fun h g => ?_, ?_, ?_, fun h g hr => ?_, fun h p g k hr hk => ?_⟩
  · simpa only [hreg, hhandlers] using hn.numbered
  · simpa only [hreg] using hn.single
  · have hnone : es.count (.invoked h g .registration) = 0 :=
      List.count_eq_zero.mpr fun h => hes _ h
    rw [List.count_append, hnone]
    exact hn.once h g
  · simpa only [hinv, hhandlers] using hn.born
  · simpa only [hinv, hreg, hcopy] using hn.late
  · simp only [hreg, hinv, hcopy] at hr ⊢
    exact (hn.locked h g hr).imp_left (Or.imp_right hlost)
  · simp only [hreg, hinv, hcopy] at hr hk ⊢
    exact (hn.early h p g k hr hk).imp_right (Or.imp_right hlost)

theorem Numbered.copied (hn : Numbered o) (g : ℕ) (hhandlers : s'.handlers = o.client.handlers)
    (copied : ℕ) :
    Numbered ⟨s', copied, o.log ++ [.copied g o.client.handlers]⟩ := by
  refine ⟨fun h p hr => ?_, fun h p p' hr hr' => ?_, fun h g' => ?_, fun h g' hi => ?_,
    fun h g' p hi hr hne => ?_, fun h g' hr => ?_, fun h p g' k hr hk => ?_⟩
  all_goals
    simp only [List.mem_append, List.mem_singleton, reduceCtorEq, or_false, hhandlers,
      Notice.copied.injEq] at *
  · exact hn.numbered h p hr
  · exact hn.single h p p' hr hr'
  · simpa [List.count_append] using hn.once h g'
  · exact hn.born h g' hi
  · obtain ⟨k, hle, hk⟩ := hn.late h g' p hi hr hne
    exact ⟨k, hle, .inl hk⟩
  · obtain ⟨hinv, hlt⟩ := hn.locked h g' hr
    refine ⟨hinv, fun k hk => ?_⟩
    rcases hk with hk | ⟨rfl, rfl⟩
    · exact hlt k hk
    · exact hn.numbered h _ hr
  · rcases hk with hk | ⟨rfl, rfl⟩
    · exact hn.early h p g' k hr hk
    · exact .inr (.inl (hn.numbered h p hr))

theorem Numbered.registered (hn : Numbered o) (ho : Traced o)
    (hhandlers : s'.handlers = o.client.handlers + 1) (copied : ℕ) :
    Numbered ⟨s', copied, o.log ++ registrationNotices o.client⟩ := by
  -- the new handler is invoked at once exactly when a connection is up: that connection has
  -- its copy of the list, or is still waiting for it
  have hreg : ∀ h p, .registered h p ∈ o.log ++ registrationNotices o.client ↔
      .registered h p ∈ o.log ∨ h = o.client.handlers ∧ p = o.client.phase := by
    simp [mem_registrationNotices]
  have hinv : ∀ h g, .invoked h g .registration ∈ o.log ++ registrationNotices o.client ↔
      .invoked h g .registration ∈ o.log ∨
        o.client.isConnected = true ∧ h = o.client.handlers ∧ g = o.client.attempts := by
    simp [mem_registrationNotices]
  have hcopy : ∀ g k, .copied g k ∈ o.log ++ registrationNotices o.client ↔ .copied g k ∈ o.log := by
    simp [mem_registrationNotices]
  have hlost : ∀ g, .lost g ∈ o.log ++ registrationNotices o.client ↔ .lost g ∈ o.log := by
    simp [mem_registrationNotices]
  have hnew : ∀ p, .registered o.client.handlers p ∉ o.log :=
    fun p hp => (hn.numbered _ p hp).false
  have hnewi : ∀ g, .invoked o.client.handlers g .registration ∉ o.log :=
    fun g hi => (hn.born _ g hi).false
  refine ⟨fun h p hr => ?_, fun h p p' hr hr' => ?_, fun h g => ?_, fun h g hi => ?_,
    fun h g p hi hr hne => ?_, fun h g hr => ?_, fun h p g k hr hk => ?_⟩
  · rcases (hreg h p).mp hr with hr | ⟨rfl, -⟩
    · exact (hn.numbered h p hr).trans (by simp [hhandlers])
    · simp [hhandlers]
  · rcases (hreg h p).mp hr with hr | ⟨hh, hphase⟩
    · rcases (hreg h p').mp hr' with hr' | ⟨rfl, -⟩
      · exact hn.single h p p' hr hr'
      · exact absurd hr (hnew p)
    · rcases (hreg h p').mp hr' with hr' | ⟨-, hphase'⟩
      · exact absurd (hh ▸ hr') (hnew p')
      · exact hphase.trans hphase'.symm
  · have hadd : (o.log ++ registrationNotices o.client).count (.invoked h g .registration) = _ + _ :=
      List.count_append
    have hold := hn.once h g
    by_cases hh : h = o.client.handlers
    · have hzero : o.log.count (.invoked h g .registration) = 0 :=
        List.count_eq_zero.mpr (hh ▸ hnewi g)
      have hone : (registrationNotices o.client).count (.invoked h g .registration) ≤ 1 := by
        unfold registrationNotices
        rw [List.count_cons_of_ne (by simp)]
        split_ifs
        · exact List.count_le_length
        · simp
      dsimp only
      omega
    · have hzero : (registrationNotices o.client).count (.invoked h g .registration) = 0 := by
        refine List.count_eq_zero.mpr ?_
        simp [mem_registrationNotices, hh]
      dsimp only
      omega
  · rcases (hinv h g).mp hi with hi | ⟨-, rfl, -⟩
    · exact (hn.born h g hi).trans (by simp [hhandlers])
    · simp [hhandlers]
  · simp only [hcopy]
    rcases (hreg h p).mp hr with hr | ⟨rfl, rfl⟩
    · rcases (hinv h g).mp hi with hi | ⟨-, rfl, -⟩
      · exact hn.late h g p hi hr hne
      · exact absurd hr (hnew p)
    · obtain ⟨hcon, -, rfl⟩ := ((hinv _ g).mp hi).resolve_left (hnewi g)
      exact (ho.connected hcon).resolve_left hne
  · simp only [hcopy, hlost, hinv]
    rcases (hreg h _).mp hr with hr | ⟨rfl, hphase⟩
    · obtain ⟨hi, hlt⟩ := hn.locked h g hr
      exact ⟨hi.imp_left .inl, hlt⟩
    · obtain ⟨hpub, hnone⟩ := ho.locking g hphase.symm
      refine ⟨?_, fun k hk => absurd hk (hnone k)⟩
      rcases ho.alive g hpub with hl | ⟨hcon, rfl⟩
      · exact .inr hl
      · exact .inl (.inr ⟨hcon, rfl, rfl⟩)
  · simp only [hlost, hinv]
    have hk := (hcopy g k).mp hk
    rcases (hreg h p).mp hr with hr | ⟨rfl, rfl⟩
    · exact (hn.early h p g k hr hk).imp_left .inl
    · rcases ho.alive g (ho.copies g k hk).1 with hl | ⟨hcon, rfl⟩
      · exact .inr (.inr hl)
      · exact .inl (.inr ⟨hcon, rfl, rfl⟩)

theorem Numbered.step {o' : Watched} (hn : Numbered o) (ho : Traced o) (hm : Moves o o') :
    Numbered o' := by
  have hnil : ∀ e ∈ ([] : List Notice), e.Passive := by simp
  cases hm with
  | quiet same _ => simpa using hn.extend same.handlers o.copied hnil
  | offline _ _ hhandlers _ _ _ => simpa using hn.extend hhandlers o.copied hnil
  | published _ _ _ _ hhandlers => exact hn.extend hhandlers _ (by simp [Notice.Passive])
  | copied _ _ same => exact hn.copied _ same.handlers _
  | invoked _ _ same => exact hn.extend same.handlers _ (by simp [Notice.Passive])
  | spawned _ _ same => exact hn.extend same.handlers _ (by simp [Notice.Passive])
  | registered _ _ _ hhandlers => exact hn.registered ho hhandlers _
  | lost _ _ _ _ hhandlers => exact hn.extend hhandlers _ (by simp [Notice.Passive])

end Registrations

/-! ### `emit_connected` -/

/-- The handlers of the copy that are not pending any more were invoked once, the others not. -/
structure Reached (o : Watched) : Prop where
  done : ∀ h g k, .copied g k ∈ o.log → h + o.client.phase.pending g < k →
    o.log.count (.invoked h g .emission) = 1
  ahead : ∀ h g, (∀ k, .copied g k ∈ o.log → k ≤ h + o.client.phase.pending g) →
    o.log.count (.invoked h g .emission) = 0

theorem reached_init : Reached Watched.init := ⟨by simp [Watched.init], by simp [Watched.init]⟩

def Notice.Calm : Notice → Prop
  | .copied .. | .invoked _ _ .emission => False
  | _ => True

section Emissions

variable {o : Watched} {s' : State} {g : ℕ}

theorem Reached.extend (hr : Reached o) (hp : ∀ g, s'.phase.pending g = o.client.phase.pending g)
    (copied : ℕ) {es : List Notice} (hes : ∀ e ∈ es, e.Calm) :
    Reached ⟨s', copied, o.log ++ es⟩ := by
  have hcopy : ∀ g k, .copied g k ∈ o.log ++ es ↔ .copied g k ∈ o.log := by
    intro g k
    rw [List.mem_append, or_iff_left fun h => hes (.copied g k) h]
  have hcount : ∀ h g, (o.log ++ es).count (.invoked h g .emission) =
      o.log.count (.invoked h g .emission) := by
    intro h g
    rw [List.count_append, List.count_eq_zero.mpr fun he => hes (.invoked h g .emission) he]
    rfl
  constructor
  · simpa only [hcopy, hcount, hp] using hr.done
  · simpa only [hcopy, hcount, hp] using hr.ahead

theorem Reached.copied (hr : Reached o) (ho : Traced o) (hp : o.client.phase = .emitLocking g)
    (hp' : s'.phase = .emitting g o.client.handlers) :
    Reached ⟨s', o.client.handlers, o.log ++ [.copied g o.client.handlers]⟩ := by
  obtain ⟨-, hnone⟩ := ho.locking g hp
  have hcount : ∀ h g', (o.log ++ [Notice.copied g o.client.handlers]).count
      (.invoked h g' .emission) = o.log.count (.invoked h g' .emission) := by simp [List.count_append]
  have hbefore : ∀ g', o.client.phase.pending g' = 0 := by simp [hp, Phase.pending]
  constructor
  · intro h g' k hk hlt
    rw [hcount]
    simp only [List.mem_append, List.mem_singleton, Notice.copied.injEq, hp', Phase.pending] at hk hlt
    rcases hk with hk | ⟨rfl, rfl⟩
    · refine hr.done h g' k hk ?_
      have hzero := hbefore g'
      omega
    · rw [if_pos rfl] at hlt
      omega
  · intro h g' hall
    rw [hcount]
    refine hr.ahead h g' fun k hk => ?_
    have hne : g ≠ g' := fun he => hnone k (he ▸ hk)
    have hle := hall k (by simp [hk])
    simp only [hp', Phase.pending, if_neg hne] at hle
    omega

theorem Reached.invoked (hr : Reached o) (ho : Traced o) {left : ℕ}
    (hp : o.client.phase = .emitting g (left + 1)) (hp' : s'.phase = .emitting g left) :
    Reached ⟨s', o.copied, o.log ++ [.invoked (o.copied - (left + 1)) g .emission]⟩ := by
  obtain ⟨hcopied, hleft⟩ := ho.emitting g _ hp
  have hcopy : ∀ g' k, .copied g' k ∈ o.log ++ [Notice.invoked (o.copied - (left + 1)) g .emission] ↔
      .copied g' k ∈ o.log := by simp
  have hold : o.client.phase.pending g = left + 1 := by simp [hp, Phase.pending]
  have hnew : s'.phase.pending g = left := by simp [hp', Phase.pending]
  have hother : ∀ g', g ≠ g' → o.client.phase.pending g' = s'.phase.pending g' := by
    intro g' hne
    simp [hp, hp', Phase.pending, hne]
  -- the pair that is reached now, and every other one
  have hself : (o.log ++ [Notice.invoked (o.copied - (left + 1)) g .emission]).count
      (.invoked (o.copied - (left + 1)) g .emission) = 1 := by
    have hzero := hr.ahead (o.copied - (left + 1)) g fun k hk => by
      have hk := ho.unique g k o.copied hk hcopied
      omega
    rw [List.count_append, hzero]
    simp
  have helse : ∀ h g', (h, g') ≠ (o.copied - (left + 1), g) →
      (o.log ++ [Notice.invoked (o.copied - (left + 1)) g .emission]).count (.invoked h g' .emission) =
        o.log.count (.invoked h g' .emission) := by
    intro h g' hne
    have hzero : [Notice.invoked (o.copied - (left + 1)) g .emission].count
        (.invoked h g' .emission) = 0 := by
      refine List.count_eq_zero.mpr ?_
      simpa [Prod.ext_iff] using hne
    rw [List.count_append, hzero]
    rfl
  constructor
  · intro h g' k hk hlt
    dsimp only at hlt
    have hk := (hcopy g' k).mp hk
    by_cases hpair : (h, g') = (o.copied - (left + 1), g)
    · cases hpair
      exact hself
    · rw [helse h g' hpair]
      refine hr.done h g' k hk ?_
      by_cases hg : g = g'
      · subst hg
        have hk := ho.unique g k o.copied hk hcopied
        have hne : h ≠ o.copied - (left + 1) := fun he => hpair (by rw [he])
        omega
      · rw [hother g' hg]
        exact hlt
  · intro h g' hall
    have hpair : (h, g') ≠ (o.copied - (left + 1), g) := by
      intro he
      cases he
      have hle := hall o.copied ((hcopy g _).mpr hcopied)
      dsimp only at hle
      omega
    rw [helse h g' hpair]
    refine hr.ahead h g' fun k hk => ?_
    have hle := hall k ((hcopy g' k).mpr hk)
    dsimp only at hle
    by_cases hg : g = g'
    · subst hg
      omega
    · rw [hother g' hg]
      exact hle

theorem Reached.step {o' : Watched} (hr : Reached o) (ho : Traced o) (hm : Moves o o') :
    Reached o' := by
  have hnil : ∀ e ∈ ([] : List Notice), e.Calm := by simp
  cases hm with
  | quiet _ hp => simpa using hr.extend (fun g => by rw [hp]) o.copied hnil
  | @offline s' _ _ _ hpend hlive _ =>
    have hzero : ∀ g, s'.phase.pending g = o.client.phase.pending g := by
      intro g
      rw [hpend]
      cases hp : s'.phase <;> first | rfl | exact absurd (hp ▸ trivial) hlive
    simpa using hr.extend hzero o.copied hnil
  | published hp hp' =>
    exact hr.extend (fun g => by simp [hp, hp', Phase.pending]) _ (by simp [Notice.Calm])
  | copied hp hp' _ => exact hr.copied ho hp hp'
  | invoked hp hp' _ => exact hr.invoked ho hp hp'
  | spawned hp hp' _ =>
    exact hr.extend (fun g => by simp [hp, hp', Phase.pending]) _ (by simp [Notice.Calm])
  | registered _ _ hp _ =>
    refine hr.extend (fun g => by rw [hp]) _ fun e he => ?_
    rcases mem_registrationNotices.mp he with rfl | ⟨-, rfl⟩ <;> trivial
  | lost _ _ _ hp _ => exact hr.extend (fun g => by rw [hp]) _ (by simp [Notice.Calm])

end Emissions

/-! ### Exactly once -/

structure Noted (o : Watched) : Prop where
  traced : Traced o
  numbered : Numbered o
  reached : Reached o

theorem Noted.step {cfg : Config} {a : Action} {o o' : Watched} (ho : Noted o)
    (h : o.step cfg a = some o') : Noted o' := by
  obtain ⟨hm, hcore⟩ := moves ho.traced.core h
  exact ⟨ho.traced.step hm hcore, ho.numbered.step ho.traced hm, ho.reached.step ho.traced hm⟩

theorem noted_run {cfg : Config} {acts : List Action} {o o' : Watched} (ho : Noted o)
    (h : Machine.run (Watched.step cfg) acts o = some o') : Noted o' :=
  Machine.run_invariant (fun _ _ _ ho hs => Noted.step ho hs) h ho

theorem log_grows {cfg : Config} {acts : List Action} {o o' : Watched}
    (h : Machine.run (Watched.step cfg) acts o = some o') : o.log ⊆ o'.log := by
  refine Machine.run_invariant (I := fun o' => o.log ⊆ o'.log) (fun a o₁ o₂ hsub hs => ?_) h
    (List.Subset.refl _)
  obtain ⟨s', -, rfl⟩ := Option.map_eq_some_iff.mp hs
  exact List.Subset.trans hsub (List.subset_append_left _ _)

/-- For a handler and a generation that is still connected when both the registration and
`emit_connected` are through: from then on the handler has been invoked once for it, unless
it was pushed while that generation was published and waiting for the list. -/
theorem invoked_once_iff (cfg : Config) {acts later : List Action} {o o' : Watched} {h g : ℕ}
    {p : Phase} (hrun : Machine.run (Watched.step cfg) acts Watched.init = some o)
    (hlater : Machine.run (Watched.step cfg) later o = some o') (hemit : .emitted g ∈ o.log)
    (hreg : .registered h p ∈ o.log) (hlive : .lost g ∉ o.log) :
    invocations o'.log h g = 1 ↔ p ≠ .emitLocking g := by
  have ho := noted_run ⟨traced_init, numbered_init, reached_init⟩ hrun
  have ho' := noted_run ho hlater
  have hsub := log_grows hlater
  obtain ⟨k, hk⟩ := (ho.traced.emitted g hemit).1
  have hpend := (ho'.traced.emitted g (hsub hemit)).2
  have hdone := ho'.reached.done h g k (hsub hk)
  have hnone : k ≤ h → o'.log.count (.invoked h g .emission) = 0 := by
    intro hle
    refine ho'.reached.ahead h g fun k' hk' => ?_
    have hsame := ho'.traced.unique g k' k hk' (hsub hk)
    omega
  have honce := ho'.numbered.once h g
  unfold invocations
  constructor
  · -- pushed in between: the registration and the copy both see it
    rintro hone rfl
    obtain ⟨hinv, hlt⟩ := ho.numbered.locked h g hreg
    have hpos : 0 < o'.log.count (.invoked h g .registration) :=
      List.count_pos_iff.mpr (hsub (hinv.resolve_right hlive))
    have hreached := hdone (by have := hlt k hk; omega)
    omega
  · intro hne
    by_cases hinv : .invoked h g .registration ∈ o'.log
    · -- pushed after the copy was taken
      obtain ⟨k', hle, hk'⟩ := ho'.numbered.late h g p hinv (hsub hreg) hne
      have hsame := ho'.traced.unique g k' k hk' (hsub hk)
      have hzero := hnone (by omega)
      have hpos := List.count_pos_iff.mpr hinv
      omega
    · -- pushed before the generation was published
      have hzero := List.count_eq_zero.mpr hinv
      have hearly := ho.numbered.early h p g k hreg hk
      rcases hearly with hi | hlt | hl
      · exact absurd (hsub hi) hinv
      · have hreached := hdone (by omega)
        omega
      · exact absurd hl hlive

/-- The first connection comes up, a handler is registered, and the connection is lost and
replaced. -/
def reconnected (between after : List Action) : List Action :=
  [.supervisor .top, .supervisor (.connectResult true), .supervisor .publish,
    .supervisor .lockHandlers, .supervisor .spawnTasks, .onConnected,
    .task 1 .writer .stop, .task 1 .writer .signal, .supervisor .wake, .supervisor .slept,
    .supervisor .top, .supervisor (.connectResult true), .supervisor .publish] ++ between ++
    [.supervisor .lockHandlers, .supervisor .invokeHandler] ++ after ++ [.supervisor .spawnTasks]

theorem invoked_once_iff_reconnected : ∃ o,
    Machine.run (Watched.step plainConfig) (reconnected [] []) Watched.init = some o ∧
      invocations o.log 0 2 = 1 := by
  obtain ⟨o, ho⟩ : ∃ o, Machine.run (Watched.step plainConfig) (reconnected [] []) Watched.init =
    some o := ⟨_, rfl⟩
  have hlog : o.log = [.published 1, .copied 1 0, .emitted 1, .registered 0 (.awaiting 1),
      .invoked 0 1 .registration, .lost 1, .published 2, .copied 2 1, .invoked 0 2 .emission,
      .emitted 2] := by
    cases ho
    rfl
  have hlater : Machine.run (Watched.step plainConfig) [] o = some o := rfl
  refine ⟨o, ho, (invoked_once_iff plainConfig ho hlater (h := 0) (g := 2) (p := .awaiting 1)
    ?_ ?_ ?_).mpr (by decide)⟩
  all_goals
    rw [hlog]
    decide

/-- Handler 1 is pushed when the second connection is published and waits for the list. -/
theorem registered_while_locking_twice : ∃ o,
    Machine.run (Watched.step plainConfig) (reconnected [.onConnected] [.supervisor .invokeHandler])
      Watched.init = some o ∧
    .registered 1 (.emitLocking 2) ∈ o.log ∧ .emitted 2 ∈ o.log ∧ .lost 2 ∉ o.log ∧
      invocations o.log 1 2 = 2 := by
  obtain ⟨o, ho⟩ : ∃ o, Machine.run (Watched.step plainConfig)
    (reconnected [.onConnected] [.supervisor .invokeHandler]) Watched.init = some o := ⟨_, rfl⟩
  have hlog : o.log = [.published 1, .copied 1 0, .emitted 1, .registered 0 (.awaiting 1),
      .invoked 0 1 .registration, .lost 1, .published 2, .registered 1 (.emitLocking 2),
      .invoked 1 2 .registration, .copied 2 2, .invoked 0 2 .emission, .invoked 1 2 .emission,
      .emitted 2] := by
    cases ho
    rfl
  refine ⟨o, ho, ?_⟩
  rw [hlog]
  decide

end Wscall.Client.Lifecycle
