import Wscall.Client.Traffic

/-!
# How far a client has got with a connection

The supervisor opens the connections one after the other. On each of them it sends its key, reads
the server's, and only then has it the session codec that the writer and the reader of the connection
are started with.
-/

namespace Wscall.Client.Lifecycle
open RustStd Protocol

inductive Stage where
  /-- Nothing has been sent. -/
  | dialing
  /-- The client's key has been sent. -/
  | offered
  /-- The session codec is there. -/
  | agreed
  /-- The supervisor is done with the connection. -/
  | past
  deriving DecidableEq

def Phase.stage (g : ℕ) : Phase → Stage
  | .connecting g' _ | .ecdhSending g' => if g' = g then .dialing else .past
  | .ecdhReading g' => if g' = g then .offered else .past
  | .authSending g' | .authReading g' | .established g' | .emitLocking g' | .emitting g' _
  | .awaiting g' => if g' = g then .agreed else .past
  | .top | .sleeping | .stopped => .past

def State.stage (s : State) (g : ℕ) : Stage :=
  if s.attempts < g then .dialing else s.phase.stage g

/-- The stage of a connection after a step. -/
inductive Advances (cfg : Config) (s : State) (g : ℕ) : Action → Stage → Prop
  | same {a} : Advances cfg s g a (s.stage g)
  | past {a} : Advances cfg s g a .past
  | offered (hp : s.phase = .ecdhSending g) : Advances cfg s g (.supervisor (.ecdhSent true)) .offered
  | agreed {bytes} (hp : s.phase = .ecdhReading g) (hkey : bytes.length = 32) :
      Advances cfg s g (.supervisor (.ecdhReceived (some bytes))) .agreed
  | plain {a} (hplain : cfg.useEcdh = false) (hold : s.stage g = .dialing) : Advances cfg s g a .agreed

section Stages

variable {cfg : Config} {s s' : State} {a : Action} {g : ℕ}

theorem stage_of_le (h : ¬ s.attempts < g) : s.stage g = s.phase.stage g := if_neg h

theorem stage_afterConnection (cfg : Config) (s : State) (g : ℕ) :
    (afterConnection cfg s).phase.stage g = .past := by
  unfold afterConnection
  split_ifs <;> rfl

theorem stage_failed (cfg : Config) (s : State) (g : ℕ) : (failed cfg s).phase.stage g = .past := by
  unfold failed
  split
  · rfl
  · exact stage_afterConnection cfg s g

theorem stage_afterEcdh (cfg : Config) (s : State) (g g' : ℕ) :
    (afterEcdh cfg s g').phase.stage g = if g' = g then .agreed else .past := by
  unfold afterEcdh
  dsimp only
  split <;> rfl

theorem stage_of_lt {op : SupervisorOp} (h : Supervised s op s') (hlt : s.attempts < g) :
    s'.stage g = s.stage g := by
  rw [show s.stage g = .dialing from if_pos hlt]
  cases h with
  | start hp =>
    unfold State.stage
    split
    · rfl
    · have hg : s.attempts + 1 = g := by
        dsimp only at *
        omega
      exact if_pos hg
  | _ => exact if_pos hlt

theorem attempts_of_supervised {op : SupervisorOp} (h : Supervised s op s') :
    s'.attempts = s.attempts ∨ s'.attempts = s.attempts + 1 ∧ s'.phase = .connecting (s.attempts + 1) 0 := by
  cases h with
  | start => exact .inr ⟨rfl, rfl⟩
  | _ => exact .inl rfl

/-- The supervisor is at work on the last connection. -/
theorem stage_of_current (hcore : Core s) (h : s.phase.current = some g) :
    ¬ s.attempts < g ∧ s.stage g = s.phase.stage g := by
  have hg := hcore.current g h
  have hle : ¬ s.attempts < g := by omega
  exact ⟨hle, stage_of_le hle⟩

theorem Advances.of_past {p : Phase} (hp : p.stage g = .past) : Advances cfg s g a (p.stage g) := by
  rw [hp]
  exact .past

theorem Advances.of_same (hle : ¬ s.attempts < g) {p : Phase} (hp : p.stage g = s.phase.stage g) :
    Advances cfg s g a (p.stage g) := by
  rw [hp, ← stage_of_le hle]
  exact .same

theorem advances_connected (hle : ¬ s.attempts < g) {g' offset : ℕ}
    (hp : s.phase = .connecting g' offset) : Advances cfg s g a ((afterConnect cfg s g').phase.stage g) := by
  unfold afterConnect
  split
  · exact .of_same hle (by rw [hp]; rfl)
  · rename_i hplain
    rw [stage_afterEcdh]
    split
    · rename_i hg
      refine .plain (Bool.eq_false_iff.mpr hplain) ?_
      rw [stage_of_le hle, hp]
      exact if_pos hg
    · exact .past

theorem advances_offered {g' : ℕ} (hp : s.phase = .ecdhSending g') :
    Advances cfg s g (.supervisor (.ecdhSent true)) ((Phase.ecdhReading g').stage g) := by
  by_cases hg : g' = g
  · subst hg
    rw [show (Phase.ecdhReading g').stage g' = .offered from if_pos rfl]
    exact .offered hp
  · exact .of_past (if_neg hg)

theorem advances_agreed {g' : ℕ} (hp : s.phase = .ecdhReading g') {bytes : Bytes}
    (hkey : bytes.length = 32) :
    Advances cfg s g (.supervisor (.ecdhReceived (some bytes))) ((afterEcdh cfg s g').phase.stage g) := by
  rw [stage_afterEcdh]
  split
  · rename_i hg
    exact .agreed (hg ▸ hp) hkey
  · exact .past

/-- The supervisor's steps, phase by phase. -/
theorem advances_of_supervisor {op : SupervisorOp} (hle : ¬ s.attempts < g)
    (h : stepSupervisor cfg s op s.phase = some s') :
    Advances cfg s g (.supervisor op) (s'.phase.stage g) := by
  generalize hp : s.phase = p at h
  have hsame : ∀ {q : Phase}, q.stage g = p.stage g → Advances cfg s g (.supervisor op) (q.stage g) := by
    intro q hq
    exact .of_same hle (hp ▸ hq)
  unfold stepSupervisor at h
  split at h
  · -- the next attempt
    split at h <;> cases h
    · exact .of_past rfl
    · refine .of_past (if_neg ?_)
      omega
  · split_ifs at h <;> cases h
    · exact advances_connected hle hp
    · exact hsame rfl
    · exact .of_past (stage_failed ..)
  · cases h
    split
    · rename_i hok
      subst hok
      exact advances_offered hp
    · exact .of_past (stage_failed ..)
  · split at h <;> cases h
    · split
      · exact advances_agreed hp ‹_›
      · exact .of_past (stage_failed ..)
    · exact .of_past (stage_failed ..)
  · -- the auth request and its answer
    cases h
    split
    · exact hsame rfl
    · exact .of_past (stage_failed ..)
  · split at h <;> cases h
    · split
      · exact hsame rfl
      · exact .of_past (stage_failed ..)
    · exact .of_past (stage_failed ..)
  iterate 4
    · cases h
      exact hsame rfl
  · -- the connection is over
    split at h <;> cases h
    exact .of_past (stage_afterConnection ..)
  · cases h
    exact .of_past rfl
  · cases h

theorem finishClose_kept (s : State) (caller : ℕ) : (finishClose s caller).attempts = s.attempts ∧
    (finishClose s caller).phase = s.phase ∧ (finishClose s caller).tasks = s.tasks := by
  unfold finishClose disconnect
  split_ifs <;> exact ⟨rfl, rfl, rfl⟩

theorem closing_kept {caller : ℕ} {op : CloseOp} (h : Closing s caller op s') :
    s'.attempts = s.attempts ∧ s'.phase = s.phase ∧ s'.tasks = s.tasks := by
  cases h with
  | sending | notified => exact ⟨rfl, rfl, rfl⟩
  | unwritten => exact finishClose_kept { s with shutdown := true } caller
  | sent => exact finishClose_kept s caller

theorem onConnected_kept (h : onConnected s = some s') :
    s'.attempts = s.attempts ∧ s'.phase = s.phase ∧ s'.tasks = s.tasks := by
  unfold onConnected at h
  split at h <;> cases h
  exact ⟨rfl, rfl, rfl⟩

/-- Only the supervisor opens connections. -/
theorem kept_of_step (h : step cfg a s = some s') (ha : ∀ op, a ≠ .supervisor op) :
    s'.attempts = s.attempts ∧ s'.phase = s.phase := by
  cases a with
  | supervisor op => exact absurd rfl (ha op)
  | task g' k op => cases worked h <;> exact ⟨rfl, rfl⟩
  | close caller op =>
    obtain ⟨hattempts, hphase, -⟩ := closing_kept (closing h)
    exact ⟨hattempts, hphase⟩
  | onConnected =>
    obtain ⟨hattempts, hphase, -⟩ := onConnected_kept h
    exact ⟨hattempts, hphase⟩

theorem advances_of_step (h : step cfg a s = some s') (g : ℕ) : Advances cfg s g a (s'.stage g) := by
  by_cases ha : ∃ op, a = .supervisor op
  · obtain ⟨op, rfl⟩ := ha
    have hsup := supervised h
    by_cases hlt : s.attempts < g
    · rw [stage_of_lt hsup hlt]
      exact .same
    · rw [stage_of_le]
      · exact advances_of_supervisor hlt h
      · rcases attempts_of_supervised hsup with heq | ⟨heq, -⟩ <;> omega
  · obtain ⟨hattempts, hphase⟩ := kept_of_step h fun op heq => ha ⟨op, heq⟩
    rw [show s'.stage g = s.stage g by rw [State.stage, State.stage, hattempts, hphase]]
    exact .same

theorem ne_afterConnection (cfg : Config) (s : State) : (afterConnection cfg s).phase ≠ .ecdhSending g := by
  unfold afterConnection
  split_ifs <;> simp

theorem ne_failed (cfg : Config) (s : State) : (failed cfg s).phase ≠ .ecdhSending g := by
  unfold failed
  split
  · simp
  · exact ne_afterConnection cfg s

theorem ecdh_of_supervisor {op : SupervisorOp} {p : Phase} (h : stepSupervisor cfg s op p = some s')
    (hp : s'.phase = .ecdhSending g) : cfg.useEcdh = true := by
  unfold stepSupervisor at h
  split at h
  · split at h <;> cases h <;> cases hp
  · split_ifs at h <;> cases h
    · unfold afterConnect at hp
      split at hp
      · assumption
      · simp only [afterEcdh] at hp
        split at hp <;> cases hp
    · cases hp
    · exact (ne_failed cfg s hp).elim
  · cases h
    split at hp
    · cases hp
    · exact (ne_failed cfg s hp).elim
  · split at h <;> cases h
    · split at hp
      · simp only [afterEcdh] at hp
        split at hp <;> cases hp
      · exact (ne_failed cfg s hp).elim
    · exact (ne_failed cfg s hp).elim
  · cases h
    split at hp
    · cases hp
    · exact (ne_failed cfg s hp).elim
  · split at h <;> cases h
    · split at hp
      · cases hp
      · exact (ne_failed cfg s hp).elim
    · exact (ne_failed cfg s hp).elim
  · cases h
    cases hp
  · cases h
    cases hp
  · cases h
    cases hp
  · cases h
    cases hp
  · split at h <;> cases h
    exact (ne_afterConnection cfg s hp).elim
  · cases h
    cases hp
  · cases h
theorem ecdh_of_step (h : step cfg a s = some s') (hp : s'.phase = .ecdhSending g) :
    cfg.useEcdh = true ∨ s.phase = .ecdhSending g := by
  by_cases ha : ∃ op, a = .supervisor op
  · obtain ⟨op, rfl⟩ := ha
    exact .inl (ecdh_of_supervisor h hp)
  · exact .inr ((kept_of_step h fun op heq => ha ⟨op, heq⟩).2 ▸ hp)

theorem stage_of_ecdhSent (hcore : Core s) (hp : s.phase = .ecdhSending g)
    (h : step cfg (.supervisor (.ecdhSent true)) s = some s') : s'.stage g = .offered := by
  obtain ⟨hle, -⟩ := stage_of_current hcore (g := g) (by rw [hp]; rfl)
  simp only [step, stepSupervisor, hp] at h
  cases h
  refine (stage_of_le ?_).trans (if_pos rfl)
  exact hle

theorem stage_of_ecdhReceived (hcore : Core s) (hp : s.phase = .ecdhReading g) {bytes : Option Bytes}
    (h : step cfg (.supervisor (.ecdhReceived bytes)) s = some s') :
    (∃ bs, bytes = some bs ∧ bs.length = 32 ∧ s'.stage g = .agreed) ∨
      (∀ bs, bytes = some bs → bs.length ≠ 32) ∧ s'.stage g = .past := by
  obtain ⟨hle, -⟩ := stage_of_current hcore (g := g) (by rw [hp]; rfl)
  have hstage : s'.stage g = s'.phase.stage g := by
    refine stage_of_le ?_
    rcases attempts_of_supervised (supervised h) with heq | ⟨heq, -⟩ <;> omega
  rw [hstage]
  simp only [step, stepSupervisor, hp] at h
  split at h <;> cases h
  · split
    · rename_i hlen
      exact .inl ⟨_, rfl, hlen, (stage_afterEcdh ..).trans (if_pos rfl)⟩
    · rename_i hlen
      exact .inr ⟨by rintro bs ⟨⟩; exact hlen, stage_failed ..⟩
  · exact .inr ⟨by simp, stage_failed ..⟩

theorem setTask_spawned {g' : ℕ} {k k' : Task} {pc : TaskPc} (hborn : s.tasks g' k' ≠ .unspawned)
    (hpc : pc ≠ .unspawned) : (s.setTask g' k' pc).tasks g k = .unspawned ↔ s.tasks g k = .unspawned := by
  unfold State.setTask
  dsimp only
  by_cases hg : g = g'
  · subst hg
    rw [Function.update_self]
    by_cases hk : k = k'
    · subst hk
      rw [Function.update_self]
      exact iff_of_false hpc hborn
    · rw [Function.update_of_ne hk]
  · rw [Function.update_of_ne hg]

/-- The tasks of a connection start once, when its session codec is there. -/
structure Spawns (s s' : State) (g : ℕ) (k : Task) : Prop where
  once : s'.tasks g k = .unspawned → s.tasks g k = .unspawned
  agreed : s.tasks g k = .unspawned → s'.tasks g k ≠ .unspawned → s.stage g = .agreed

theorem Spawns.of_iff {k : Task} (h : s'.tasks g k = .unspawned ↔ s.tasks g k = .unspawned) :
    Spawns s s' g k :=
  ⟨h.mp, fun hold hnew => absurd (h.mpr hold) hnew⟩

theorem spawns_of_supervised (hcore : Core s) {op : SupervisorOp} (h : Supervised s op s') (k : Task) :
    Spawns s s' g k := by
  cases h with
  | @spawn _ g' ready hp =>
    by_cases hg : g = g'
    · subst hg
      have hstage := (stage_of_current hcore (g := g) (by rw [hp]; rfl)).2
      refine ⟨fun hnew => ?_, fun _ _ => hstage.trans ?_⟩
      · dsimp only at hnew
        rw [Function.update_self] at hnew
        cases hnew
      · rw [hp]
        exact if_pos rfl
    · refine .of_iff ?_
      dsimp only
      rw [Function.update_of_ne hg]
  | _ => exact .of_iff Iff.rfl

theorem spawns_of_step (hcore : Core s) (h : step cfg a s = some s') (g : ℕ) (k : Task) :
    Spawns s s' g k := by
  cases a with
  | supervisor op => exact spawns_of_supervised hcore (supervised h) k
  | task g' k' op =>
    cases worked h with
    | lost hpc | idle hpc | stale hpc | signal hpc =>
      exact .of_iff (setTask_spawned (by simp [hpc]) (by simp))
  | close caller op =>
    obtain ⟨-, -, htasks⟩ := closing_kept (closing h)
    exact .of_iff (by rw [htasks])
  | onConnected =>
    obtain ⟨-, -, htasks⟩ := onConnected_kept h
    exact .of_iff (by rw [htasks])

end Stages

end Wscall.Client.Lifecycle

namespace Wscall.Client.Traffic

/-- The supervisor and the tasks stay where they are, and nothing is given to a socket. -/
structure Still (s s' : State) : Prop where
  client : s'.client = s.client
  written : s'.written = s.written

namespace Still

variable {s s' s'' : State} {g : ℕ}

theorem trans (h : Still s s') (h' : Still s' s'') : Still s s'' :=
  ⟨h'.client.trans h.client, h'.written.trans h.written⟩

theorem send {item : Item} (h : s.send g item = some s') : Still s s' := by
  rw [State.send_eq_some h]
  exact ⟨rfl, rfl⟩

theorem remove (k : Kind) (id : UInt64) (cell : Cell) : Still s (s.remove k id cell) := by
  unfold State.remove
  split <;> exact ⟨rfl, rfl⟩

theorem call {cfg : Config} {c : CallId} {op : CallOp} {pc : Pc}
    (h : stepCall cfg s c op pc = some s') : Still s s' := by
  unfold stepCall at h
  split at h
  · split_ifs at h
    · dsimp only at h
      split at h <;> cases h
      all_goals exact (remove ..).trans ⟨rfl, rfl⟩
    · cases h
      exact ⟨rfl, rfl⟩
  · obtain ⟨s₁, hsend, h⟩ := Option.map_eq_some_iff.mp h
    rw [← h]
    exact (send hsend).trans ⟨rfl, rfl⟩
  · split at h <;> cases h
    exact (remove ..).trans ⟨rfl, rfl⟩
  · split at h <;> cases h <;> exact ⟨rfl, rfl⟩
  · split at h <;> cases h
    exact (remove ..).trans ⟨rfl, rfl⟩
  · cases h
    exact ⟨rfl, rfl⟩
  · cases h
    exact ⟨rfl, rfl⟩
  · cases h

theorem reader {op : ReaderOp} (h : stepReader s g op = some s') : Still s s' := by
  unfold stepReader at h
  split at h
  · split at h
    · cases h
      exact remove ..
    · split at h <;> cases h <;> exact ⟨rfl, rfl⟩
  · exact send h

theorem event {cfg : Config} {t : ℕ} {op : EventOp} {pc : EventPc}
    (h : stepEvent cfg s t op pc = some s') : Still s s' := by
  unfold stepEvent at h
  split at h
  · split at h <;> cases h <;> exact ⟨rfl, rfl⟩
  · obtain ⟨s₁, hsend, h⟩ := Option.map_eq_some_iff.mp h
    rw [← h]
    exact (send hsend).trans ⟨rfl, rfl⟩
  · split at h <;> cases h
    exact ⟨rfl, rfl⟩
  · cases h

theorem beforeLifecycle {a : Lifecycle.Action} (h : Traffic.beforeLifecycle s a = some s') :
    Still s s' := by
  rcases beforeLifecycle_cases h with ⟨closers, rfl⟩ | ⟨g, hsend⟩
  · exact ⟨rfl, rfl⟩
  · exact send hsend

theorem afterLifecycle (s : State) (a : Lifecycle.Action) : Still s (Traffic.afterLifecycle s a) := by
  rcases afterLifecycle_cases s a with heq | ⟨g, -, heq⟩ <;> rw [heq] <;> exact ⟨rfl, rfl⟩

end Still

/-- What a step does to the connections and to the frames on them. -/
inductive Opens (cfg : Config) (s : State) : Action → State → Prop
  | lifecycle {a reason s'} (h : Lifecycle.step cfg.lifecycle a s.client = some s'.client)
      (hwritten : s'.written = s.written) : Opens cfg s (.lifecycle a reason) s'
  | wrote {a g s'} (hpc : s.client.tasks g .writer = .running) (hclient : s'.client = s.client)
      (hwritten : ∀ g', g' ≠ g → s'.written g' = s.written g') : Opens cfg s a s'
  | panicked {a g k s'} (hpc : s.client.tasks g k = .notifying)
      (hclient : s'.client = s.client.setTask g k .done) (hwritten : s'.written = s.written) :
      Opens cfg s a s'
  | still {a s'} (h : Still s s') : Opens cfg s a s'

section Opens

variable {cfg : Config} {s s' : State} {a : Action} {g : ℕ}

theorem lifecycle_of_step {a : Lifecycle.Action} {reason : String}
    (h : step cfg (.lifecycle a reason) s = some s') :
    Lifecycle.step cfg.lifecycle a s.client = some s'.client ∧ s'.written = s.written := by
  obtain ⟨client, hclient, h⟩ := Option.bind_eq_some_iff.mp h
  obtain ⟨s₁, hs₁, h⟩ := Option.bind_eq_some_iff.mp h
  cases h
  have hafter := Still.afterLifecycle { (if (Lifecycle.notified s.client a).isSome then s₁.drain reason
    else s₁) with client := client } a
  refine ⟨hafter.client ▸ hclient, hafter.written.trans ?_⟩
  rw [← (Still.beforeLifecycle hs₁).written]
  split <;> rfl

theorem opens_of_step (h : step cfg a s = some s') : Opens cfg s a s' := by
  cases a with
  | lifecycle a reason =>
    obtain ⟨hclient, hwritten⟩ := lifecycle_of_step h
    exact .lifecycle hclient hwritten
  | call c op => exact .still (.call h)
  | writer g op =>
    rw [step] at h
    split_ifs at h with hpc
    cases stepWriter_writes h with
    | written => exact .wrote hpc rfl fun g' hne => Function.update_of_ne hne ..
    | refused | control | flushed => exact .still ⟨rfl, rfl⟩
  | heartbeat g =>
    rw [step] at h
    split_ifs at h
    exact .still (.send h)
  | reader g op =>
    rw [step] at h
    split_ifs at h
    exact .still (.reader h)
  | event t op => exact .still (.event h)
  | connectedPanics =>
    rw [step] at h
    split at h
    · split at h <;> cases h
      exact .still ⟨rfl, rfl⟩
    · cases h
  | disconnectedPanics g k =>
    rw [step] at h
    split_ifs at h with hpc
    cases h
    have hafter := Still.afterLifecycle { s with client := s.client.setTask g k .done } (.task g k .signal)
    exact .panicked hpc hafter.client hafter.written

theorem Opens.core (h : Opens cfg s a s') (hcore : Lifecycle.Core s.client) :
    Lifecycle.Core s'.client := by
  cases h with
  | lifecycle h => exact hcore.step h
  | wrote _ hclient => exact hclient ▸ hcore
  | panicked hpc hclient =>
    rw [hclient]
    exact hcore.setTask (by simp [hpc]) (hcore.notifying_off hpc)
  | still h => exact h.client ▸ hcore

theorem Opens.spawns (h : Opens cfg s a s') (hcore : Lifecycle.Core s.client) (g : ℕ)
    (k : Lifecycle.Task) : Lifecycle.Spawns s.client s'.client g k := by
  cases h with
  | lifecycle h => exact Lifecycle.spawns_of_step hcore h g k
  | wrote _ hclient => exact .of_iff (by rw [hclient])
  | panicked hpc hclient =>
    rw [hclient]
    exact .of_iff (Lifecycle.setTask_spawned (by simp [hpc]) (by simp))
  | still h => exact .of_iff (by rw [h.client])

/-- Under ECDH, a step that is not one of the key exchange on the connection. -/
theorem Opens.stage (h : Opens cfg s a s') (hecdh : cfg.lifecycle.useEcdh = true)
    (hoffer : s.client.phase = .ecdhSending g → ∀ reason,
      a ≠ .lifecycle (.supervisor (.ecdhSent true)) reason)
    (hkey : s.client.phase = .ecdhReading g → ∀ bytes reason,
      a ≠ .lifecycle (.supervisor (.ecdhReceived (some bytes))) reason) :
    s'.client.stage g = s.client.stage g ∨ s'.client.stage g = .past := by
  cases h with
  | lifecycle h =>
    have hadvances := Lifecycle.advances_of_step h g
    generalize s'.client.stage g = stage at hadvances
    cases hadvances with
    | same => exact .inl rfl
    | past => exact .inr rfl
    | offered hp => exact absurd rfl (hoffer hp _)
    | agreed hp => exact absurd rfl (hkey hp _ _)
    | plain hplain =>
      rw [hecdh] at hplain
      cases hplain
  | wrote _ hclient => exact .inl (by rw [hclient])
  | panicked _ hclient =>
    rw [hclient]
    exact .inl rfl
  | still h => exact .inl (by rw [h.client])

theorem Opens.ecdh (h : Opens cfg s a s') (hp : s'.client.phase = .ecdhSending g) :
    cfg.lifecycle.useEcdh = true ∨ s.client.phase = .ecdhSending g := by
  cases h with
  | lifecycle h => exact Lifecycle.ecdh_of_step h hp
  | wrote _ hclient => exact .inr (hclient ▸ hp)
  | panicked _ hclient =>
    rw [hclient] at hp
    exact .inr hp
  | still h => exact .inr (h.client ▸ hp)

/-- Before its writer runs nothing is written on a connection. -/
theorem Opens.written (h : Opens cfg s a s') (hpc : s.client.tasks g .writer ≠ .running) :
    s'.written g = s.written g := by
  cases h with
  | lifecycle _ hwritten => rw [hwritten]
  | @wrote _ g' _ hrunning _ hwritten =>
    refine hwritten g fun heq => hpc ?_
    rw [heq, hrunning]
  | panicked _ _ hwritten => rw [hwritten]
  | still h => rw [h.written]

end Opens

end Wscall.Client.Traffic
