import Wscall.Server.Listen

/-!
# `on_disconnected` (`server_runtime.rs:984-993`, `1380-1420`)

The stages a connection passes, and the calls of the handlers that come of them.
-/

namespace Wscall.Server
open RustStd Protocol

/-- The calls of `on_disconnected` handlers for a connection. -/
def Site.farewells (σ : Site) (c : String) : List (ℕ × ServerDisconnectContext) :=
  σ.disconnected.filter (·.2.connectionId == c)

section Farewell

variable {W : Type}

/-- Where a connection is: its phase, whether it is in the table, what its reader loop ended
with, its task, and the farewells told. -/
inductive Stage (L : Listening W) (c : String) (peer : SocketAddr) (heard : Prop) :
    Phase → Bool → Option (Except ServerError Unit) → ServePc → List (ℕ × ServerDisconnectContext) → Prop
  | waiting {pc} (hpc : pc = .absent ∨ ∃ peer, pc = .spawned peer) (hh : ¬ heard) :
      Stage L c peer heard .absent false none pc []
  | shaking {p} (hp : p.Handshake) (hh : ¬ heard) : Stage L c peer heard p false none .running []
  | served {p} (hp : p.Served) (hh : heard) : Stage L c peer heard p true none .running []
  | closing {r} (hh : heard) : Stage L c peer heard .closing false (some r) .running []
  | refused (hh : ¬ heard) : Stage L c peer heard .ended false none .done []
  | leaked (hh : heard) : Stage L c peer heard .ended true none .done []
  | parted {r pc} (hh : heard) (w : W) (hpc : pc = .parting ∨ pc = .done) :
      Stage L c peer heard .ended false (some r) pc
        (notifyDisconnected w (farewell L c peer r) L.disconnectHandlers).calls

def Staged (L : Listening W) (σ : Site) (c : String) : Prop :=
  Stage L c (σ.state.conns c).peer (Heard c σ.state) (σ.state.conns c).phase
    (σ.state.clients c).isSome (σ.result c) (σ.pc c) (σ.farewells c)

variable {L : Listening W} {σ σ' : Site} {s s' : State} {c d : String}

/-! The reader loop ends where the connection leaves the table. -/

theorem loopResult_of_not_served {setup : Setup W} {op : ConnOp W} {p : Phase} (ending : StreamEnd)
    (hp : ¬ p.Served) : loopResult setup s c ending op p = none := by
  unfold loopResult
  split
  · exact absurd trivial hp
  · exact absurd trivial hp
  · exact absurd trivial hp
  · exact absurd trivial hp
  · exact absurd trivial hp
  · rfl

theorem phase_teardown (s : State) (c : String) : ((teardown s c).conns c).phase = .closing := by
  simp only [teardown, State.setConn_self]

theorem phase_startQueue (setup : Setup W) (s : State) (random : Except String Nonce)
    (packet : PacketEnvelope) :
    ((startQueue setup s c random packet).conns c).phase ≠ .closing := by
  unfold startQueue
  split
  · simp [State.setPhase]
  · split <;> simp [State.setPhase]

theorem phase_readBinary (setup : Setup W) (s : State) (codec : FrameCodec) (bytes : Bytes) (now : ℕ)
    (random : Except String Nonce) (hp : (s.conns c).phase = .reading) :
    ((readBinary setup s c codec bytes now random).conns c).phase = .closing ↔
      fastReject setup.server.maxFrameBytes bytes = none ∧
        ∃ e, codec.decode setup.libs bytes = .error (.err e) := by
  unfold readBinary
  split
  · rename_i code text hfast
    rw [hfast]
    exact iff_of_false (phase_startQueue setup s random _) (by simp)
  · rename_i hfast
    rw [hfast]
    split
    · rename_i e he
      exact iff_of_true (phase_teardown s c) ⟨rfl, e, he⟩
    · rename_i he
      refine iff_of_false ?_ (fun h => ?_)
      · simp [State.setPhase]
      · obtain ⟨-, e, h⟩ := h
        rw [he] at h
        cases h
    · rename_i packet hd
      refine iff_of_false ?_ (fun h => ?_)
      · dsimp only
        split
        · exact phase_startQueue setup _ random _
        · simp [State.setPhase]
        · change (s.conns c).phase ≠ _
          rw [hp]
          simp
        · simp [State.setPhase]
      · obtain ⟨-, e, h⟩ := h
        rw [hd] at h
        cases h

theorem closing_of_notified {setup : Setup W} {random : Except String Nonce}
    (hs : stepConn setup s c (.notified random) .notifying = some s') :
    (greetError setup s c random).isSome = true ↔ (s'.conns c).phase = .closing := by
  have hsend : ∀ item, ({ (s.conns c).channel with writing := true }.trySend item).isSome =
      ((s.conns c).channel.trySend item).isSome := by
    intro item
    unfold Channel.trySend Channel.hasRoom
    split <;> rfl
  simp only [stepConn] at hs
  split at hs
  · rename_i hnone
    have hgreet : greetError setup s c random = some (.notFound "target connection not found") := by
      simp only [greetError, show s.clients c = none from hnone]
    cases hs
    exact iff_of_true (by rw [hgreet]; rfl) (phase_teardown _ c)
  · rename_i entry hentry
    have hentry' : s.clients c = some entry := hentry
    split at hs
    · rename_i herr
      have hgreet : greetError setup s c random = some (.internal "failed to encode direct event") := by
        simp only [greetError, hentry', herr]
      cases hs
      exact iff_of_true (by rw [hgreet]; rfl) (phase_teardown _ c)
    · rename_i item hitem
      have hroom := hsend item
      split at hs
      · rename_i hfull
        cases hs
        rw [hfull] at hroom
        have hnone : (s.conns c).channel.trySend item = none :=
          Option.isNone_iff_eq_none.mp (Option.isSome_eq_false_iff.mp hroom.symm)
        have hgreet : greetError setup s c random = some (.internal "failed to queue direct event") := by
          simp only [greetError, hentry', hitem, hnone]
        exact iff_of_true (by rw [hgreet]; rfl) (phase_teardown _ c)
      · rename_i channel hsome
        cases hs
        rw [hsome] at hroom
        obtain ⟨channel', hchannel'⟩ := Option.isSome_iff_exists.mp hroom.symm
        have hgreet : greetError setup s c random = none := by
          simp only [greetError, hentry', hitem, hchannel']
        refine iff_of_false (by rw [hgreet]; simp) ?_
        rw [State.setConn_self]
        simp

theorem closing_of_received {setup : Setup W} {message : Option WsMessage} {now : ℕ}
    {random : Except String Nonce} (ending : StreamEnd) (hp : (s.conns c).phase = .reading)
    (hs : stepConn setup s c (.received message now random) .reading = some s') :
    (loopResult setup s c ending (.received message now random) .reading).isSome = true ↔
      (s'.conns c).phase = .closing := by
  simp only [stepConn] at hs
  obtain ⟨codec, hc, rfl⟩ := Option.map_eq_some_iff.mp hs
  have hlogged : ((s.logged c message).conns c).phase = .reading := by
    rw [State.logged, State.setConn_self, hp]
  have hstays : ((s.logged c message).conns c).phase ≠ .closing := by
    rw [hlogged]
    simp
  cases message with
  | none =>
    refine iff_of_true ?_ (phase_teardown _ c)
    cases ending <;> rfl
  | some message =>
    cases message with
    | binary bytes =>
      rw [readMessage, phase_readBinary setup _ codec bytes now random hlogged]
      simp only [loopResult, hc]
      cases fastReject setup.server.maxFrameBytes bytes with
      | some verdict => exact iff_of_false (by simp) (by simp)
      | none =>
        dsimp only
        cases codec.decode setup.libs bytes with
        | ok packet => exact iff_of_false (by simp) (by simp)
        | error e =>
          cases e with
          | err e => exact iff_of_true rfl ⟨rfl, e, rfl⟩
          | panic => exact iff_of_false (by simp) (by simp)
    | close => exact iff_of_true rfl (phase_teardown _ c)
    | ping payload =>
      refine iff_of_false (by simp [loopResult]) ?_
      simp [readMessage, State.setPhase]
    | text => exact iff_of_false (by simp [loopResult]) hstays
    | pong => exact iff_of_false (by simp [loopResult]) hstays
    | frame => exact iff_of_false (by simp [loopResult]) hstays

theorem closing_of_queued {setup : Setup W} {payload : Bytes}
    (hs : stepConn setup s c .queued (.ponging payload) = some s') :
    (s.conns c).channel.alive = false ↔ (s'.conns c).phase = .closing := by
  simp only [stepConn] at hs
  split at hs
  · rename_i halive
    split at hs <;> cases hs
    rw [halive]
    simp
  · rename_i hdead
    cases hs
    exact iff_of_true (Bool.eq_false_iff.mpr hdead) (phase_teardown s c)

theorem loopResult_isSome {setup : Setup W} {op : ConnOp W} (ending : StreamEnd)
    (hs : stepConn setup s c op (s.conns c).phase = some s') :
    (loopResult setup s c ending op (s.conns c).phase).isSome = true ↔
      (s.conns c).phase.Served ∧ (s'.conns c).phase = .closing := by
  generalize hp : (s.conns c).phase = p at hs
  by_cases hserved : p.Served
  · rw [and_iff_right hserved]
    cases p with
    | notifying =>
      cases op with
      | notified random =>
        rw [← closing_of_notified hs, loopResult, Option.isSome_map]
      | _ => cases hs
    | reading =>
      cases op with
      | received message now random => exact closing_of_received ending hp hs
      | _ => cases hs
    | ponging payload =>
      cases op with
      | queued =>
        rw [← closing_of_queued hs, loopResult]
        cases (s.conns c).channel.alive <;> simp
      | _ => cases hs
    | queueing item =>
      cases op with
      | queued =>
        refine iff_of_false (by simp [loopResult]) ?_
        simp only [stepConn] at hs
        split at hs
        · split at hs <;> cases hs
          simp
        · cases hs
          simp [State.setPhase]
      | _ => cases hs
    | acquiring body =>
      cases op with
      | acquired t =>
        refine iff_of_false (by simp [loopResult]) ?_
        simp only [stepConn] at hs
        split at hs
        · split at hs <;> cases hs
          simp
        · cases hs
      | _ => cases hs
    | _ => exact hserved.elim
  · rw [loopResult_of_not_served ending hserved]
    exact iff_of_false (by simp) fun h => hserved h.1

/-! ### The stages over a run -/

theorem Staged.congr (h : Staged L σ c) (hpeer : (σ'.state.conns c).peer = (σ.state.conns c).peer)
    (hheard : Heard c σ'.state ↔ Heard c σ.state)
    (hp : (σ'.state.conns c).phase = (σ.state.conns c).phase)
    (he : σ'.state.clients c = σ.state.clients c) (hr : σ'.result c = σ.result c)
    (hpc : σ'.pc c = σ.pc c) (hf : σ'.farewells c = σ.farewells c) : Staged L σ' c := by
  unfold Staged at h ⊢
  rw [hpeer, propext hheard, hp, he, hr, hpc, hf]
  exact h

/-- A step of the server that is not one of the connection's own. -/
theorem Staged.elsewhere (h : Staged L σ c) {a : Action W} (ha : ∀ op, a ≠ .conn c op)
    (hs : step L.setup a σ.state = some σ'.state) (hr : σ'.result c = σ.result c)
    (hpc : σ'.pc c = σ.pc c) (hf : σ'.farewells c = σ.farewells c) : Staged L σ' c := by
  have hheard := heard_of_move (c := c) (move_of_step hs) fun op hop => absurd hop (ha op)
  cases lifeStep_of_move (move_of_step hs) c with
  | stays _ hp he hpeer => exact h.congr hpeer hheard hp he hr hpc hf
  | _ => exact absurd rfl (ha _)

/-- What the reader loop has ended with after the step, if it has. -/
def Site.nextResult (L : Listening W) (σ : Site) (c : String) (op : ConnOp W) (ending : StreamEnd) :
    Option (Except ServerError Unit) :=
  (loopResult L.setup σ.state c ending op (σ.state.conns c).phase).or (σ.result c)

theorem serve_eq_some {op : ConnOp W} {ending : StreamEnd} {w : W}
    (hs : σ.serve L c op ending w = some σ') :
    ∃ s served, stepConn L.setup σ.state c op (σ.state.conns c).phase = some s ∧
      served = { σ with
        state := s, result := Function.update σ.result c (σ.nextResult L c op ending) } ∧
      (((s.conns c).phase ≠ .ended ∧ σ' = served.setPc c .running) ∨
        (∃ r, (s.conns c).phase = .ended ∧ σ.nextResult L c op ending = some r ∧
          σ' = served.part L c w r) ∨
        ((s.conns c).phase = .ended ∧ σ.nextResult L c op ending = none ∧ σ' = served.finish c)) := by
  obtain ⟨s, hstep, rfl⟩ := Option.map_eq_some_iff.mp hs
  refine ⟨s, _, hstep, rfl, ?_⟩
  have hresult : (loopResult L.setup σ.state c ending op (σ.state.conns c).phase).or (σ.result c) =
      σ.nextResult L c op ending := rfl
  dsimp only
  rw [hresult]
  split
  · rename_i r hp hr
    exact .inr (.inl ⟨r, hp, hr, rfl⟩)
  · rename_i hp hr
    exact .inr (.inr ⟨hp, hr, rfl⟩)
  · rename_i hsome hnone
    refine .inl ⟨fun hp => ?_, rfl⟩
    cases hr : σ.nextResult L c op ending with
    | none => exact hnone hp hr
    | some r => exact hsome r hp hr

section Inversion

variable {peer : SocketAddr} {heard : Prop} {p : Phase} {listed : Bool}
  {result : Option (Except ServerError Unit)} {pc : ServePc} {told : List (ℕ × ServerDisconnectContext)}

theorem Stage.of_handshake (h : Stage L c peer heard p listed result pc told)
    (hp : p = .absent ∨ p.Handshake) : listed = false ∧ result = none ∧ told = [] ∧ ¬ heard := by
  cases h with
  | waiting _ hh => exact ⟨rfl, rfl, rfl, hh⟩
  | shaking _ hh => exact ⟨rfl, rfl, rfl, hh⟩
  | served hserved =>
    rcases hp with rfl | hp
    · exact hserved.elim
    · exact absurd hserved hp.not_served
  | closing | refused | leaked | parted => rcases hp with hp | hp <;> cases hp

theorem Stage.of_served (h : Stage L c peer heard p listed result pc told) (hp : p.Served) :
    listed = true ∧ result = none ∧ told = [] ∧ heard := by
  cases h with
  | served _ hh => exact ⟨rfl, rfl, rfl, hh⟩
  | shaking hshake => exact absurd hp hshake.not_served
  | waiting | closing | refused | leaked | parted => exact hp.elim

theorem Stage.of_closing (h : Stage L c peer heard .closing listed result pc told) :
    listed = false ∧ result.isSome = true ∧ told = [] ∧ heard := by
  cases h with
  | closing hh => exact ⟨rfl, rfl, rfl, hh⟩
  | shaking hshake => exact hshake.elim
  | served hserved => exact hserved.elim

theorem Stage.spawned (h : Stage L c peer heard p listed result .absent told) (peer' : SocketAddr) :
    Stage L c peer heard p listed result (.spawned peer') told := by
  cases h with
  | waiting _ hh => exact .waiting (.inr ⟨peer', rfl⟩) hh
  | parted _ _ hpc => rcases hpc with hpc | hpc <;> cases hpc

theorem Stage.finished (h : Stage L c peer heard p listed result .parting told) :
    Stage L c peer heard p listed result .done told := by
  cases h with
  | waiting hpc =>
    rcases hpc with hpc | ⟨_, hpc⟩ <;> cases hpc
  | parted hh w _ => exact .parted hh w (.inr rfl)

end Inversion

/-- The end of the task, from the call of the handlers on. -/
theorem Staged.part {result : Except ServerError Unit} (hp : (σ.state.conns c).phase = .ended)
    (he : σ.state.clients c = none) (hr : σ.result c = some result) (hf : σ.farewells c = [])
    (hheard : Heard c σ.state) (w : W) : Staged L (σ.part L c w result) c := by
  have hcalls : ∀ call ∈ (notifyDisconnected w (farewell L c (σ.state.conns c).peer result)
      L.disconnectHandlers).calls, (call.2.connectionId == c) = true := by
    intro call hcall
    rw [mem_notifyFrom hcall]
    exact beq_self_eq_true c
  have htold : ({ σ with disconnected := σ.disconnected ++ (notifyDisconnected w
      (farewell L c (σ.state.conns c).peer result) L.disconnectHandlers).calls } : Site).farewells c =
      (notifyDisconnected w (farewell L c (σ.state.conns c).peer result) L.disconnectHandlers).calls := by
    unfold Site.farewells at hf ⊢
    rw [List.filter_append, hf, List.nil_append, List.filter_eq_self.mpr hcalls]
  have hstage : ∀ pc, pc = .parting ∨ pc = .done → Stage L c (σ.state.conns c).peer (Heard c σ.state)
      (σ.state.conns c).phase (σ.state.clients c).isSome (σ.result c) pc
      (({ σ with disconnected := σ.disconnected ++ (notifyDisconnected w
        (farewell L c (σ.state.conns c).peer result) L.disconnectHandlers).calls } : Site).farewells c) := by
    intro pc hpc
    rw [hp, he, hr, htold]
    exact .parted hheard w hpc
  unfold Site.part Staged
  dsimp only
  split
  · simp only [Site.setPc, Function.update_self]
    exact hstage _ (.inl rfl)
  · simp only [Site.finish, Site.setPc, Function.update_self]
    exact hstage _ (.inr rfl)

/-! The connection that takes the step, one lemma for each kind of step. -/

section OwnStep

variable {op : ConnOp W} {ending : StreamEnd} {w : W}

theorem nextResult_eq (hstep : stepConn L.setup σ.state c op (σ.state.conns c).phase = some s)
    (hstays : ¬ ((σ.state.conns c).phase.Served ∧ (s.conns c).phase = .closing)) :
    σ.nextResult L c op ending = σ.result c := by
  rw [Site.nextResult, Option.not_isSome_iff_eq_none.mp ((loopResult_isSome ending hstep).not.mpr hstays),
    Option.none_or]

theorem Staged.running (hs : σ.serve L c op ending w = some σ')
    (hstep : stepConn L.setup σ.state c op (σ.state.conns c).phase = some s)
    (hne : (s.conns c).phase ≠ .ended)
    (stage : Stage L c (s.conns c).peer (Heard c s) (s.conns c).phase (s.clients c).isSome
      (σ.nextResult L c op ending) .running (σ.farewells c)) : Staged L σ' c := by
  obtain ⟨s₁, served, hstep₁, rfl, hcases⟩ := serve_eq_some hs
  rw [hstep] at hstep₁
  cases hstep₁
  rcases hcases with ⟨-, rfl⟩ | ⟨r, hended, -⟩ | ⟨hended, -⟩
  · unfold Staged
    simp only [Site.setPc, Function.update_self]
    exact stage
  · exact absurd hended hne
  · exact absurd hended hne

/-- The task is over without a result of the reader loop. -/
theorem Staged.over (hs : σ.serve L c op ending w = some σ')
    (hstep : stepConn L.setup σ.state c op (σ.state.conns c).phase = some s)
    (hended : (s.conns c).phase = .ended) (hnone : σ.nextResult L c op ending = none)
    (stage : Stage L c (s.conns c).peer (Heard c s) .ended (s.clients c).isSome none .done
      (σ.farewells c)) : Staged L σ' c := by
  obtain ⟨s₁, served, hstep₁, rfl, hcases⟩ := serve_eq_some hs
  rw [hstep] at hstep₁
  cases hstep₁
  rcases hcases with ⟨hne, -⟩ | ⟨r, -, hr, -⟩ | ⟨-, -, rfl⟩
  · exact absurd hended hne
  · rw [hnone] at hr
    cases hr
  · unfold Staged
    simp only [Site.finish, Site.setPc, Function.update_self]
    rw [hended, hnone]
    exact stage

/-- From the table entry on the connection's own steps announce nobody. -/
theorem heard_still (hstep : stepConn L.setup σ.state c op (σ.state.conns c).phase = some s)
    (hp : (σ.state.conns c).phase.Served ∨ (σ.state.conns c).phase = .closing) :
    Heard c s ↔ Heard c σ.state := by
  refine heard_of_move (move_stepConn hstep) fun op' _ =>
    Option.eq_none_iff_forall_ne_some.mpr fun entry hin => ?_
  have hshake := entering_handshake hin
  rcases hp with hp | hp
  · exact hshake.not_served hp
  · rw [hp] at hshake
    exact hshake

theorem Staged.shakes (h : Staged L σ c) (hs : σ.serve L c op ending w = some σ')
    (hstep : stepConn L.setup σ.state c op (σ.state.conns c).phase = some s)
    (hp : (σ.state.conns c).phase = .absent ∨ (σ.state.conns c).phase.Handshake)
    (hp' : (s.conns c).phase.Handshake ∨ (s.conns c).phase = .ended)
    (he : s.clients c = σ.state.clients c)
    (hout : entering L.setup op (σ.state.conns c).phase = none) : Staged L σ' c := by
  obtain ⟨hlisted, hnone, htold, hunheard⟩ := Stage.of_handshake h hp
  have hheard : Heard c s ↔ Heard c σ.state :=
    heard_of_move (move_stepConn hstep) fun op' hop => by cases hop; exact hout
  have hresult : σ.nextResult L c op ending = none := by
    rw [nextResult_eq hstep, hnone]
    rintro ⟨-, hclosing⟩
    rcases hp' with hp' | hp'
    · rw [hclosing] at hp'
      exact hp'
    · rw [hclosing] at hp'
      cases hp'
  rcases hp' with hp' | hp'
  · refine .running hs hstep (fun hended => ?_) ?_
    · rw [hended] at hp'
      exact hp'
    · rw [he, hlisted, hresult, htold]
      exact .shaking hp' (hheard.not.mpr hunheard)
  · refine .over hs hstep hp' hresult ?_
    rw [he, hlisted, htold]
    exact .refused (hheard.not.mpr hunheard)

theorem Staged.enters (h : Staged L σ c) (hs : σ.serve L c op ending w = some σ')
    (hstep : stepConn L.setup σ.state c op (σ.state.conns c).phase = some s)
    (hp : (σ.state.conns c).phase.Handshake) {entry : ClientEntry} (he : s.clients c = some entry)
    (hheard : Heard c s) (hp' : (s.conns c).phase = .notifying ∨ (s.conns c).phase = .ended) :
    Staged L σ' c := by
  obtain ⟨-, hnone, htold, -⟩ := Stage.of_handshake h (.inr hp)
  have hresult : σ.nextResult L c op ending = none := by
    rw [nextResult_eq hstep, hnone]
    exact fun hserved => hp.not_served hserved.1
  rcases hp' with hp' | hp'
  · refine .running hs hstep (by rw [hp']; simp) ?_
    rw [he, hp', hresult, htold]
    exact .served trivial hheard
  · refine .over hs hstep hp' hresult ?_
    rw [he, htold]
    exact .leaked hheard

theorem Staged.serves (h : Staged L σ c) (hs : σ.serve L c op ending w = some σ')
    (hstep : stepConn L.setup σ.state c op (σ.state.conns c).phase = some s)
    (hp : (σ.state.conns c).phase.Served) (hp' : (s.conns c).phase.Served)
    (he : s.clients c = σ.state.clients c) : Staged L σ' c := by
  obtain ⟨hlisted, hnone, htold, hheard⟩ := Stage.of_served h hp
  have hresult : σ.nextResult L c op ending = none := by
    rw [nextResult_eq hstep, hnone]
    rintro ⟨-, hclosing⟩
    rw [hclosing] at hp'
    exact hp'
  refine .running hs hstep (fun hended => ?_) ?_
  · rw [hended] at hp'
    exact hp'
  · rw [he, hlisted, hresult, htold]
    exact .served hp' ((heard_still hstep (.inl hp)).mpr hheard)

theorem Staged.unwinds (h : Staged L σ c) (hs : σ.serve L c op ending w = some σ')
    (hstep : stepConn L.setup σ.state c op (σ.state.conns c).phase = some s)
    (hp : (σ.state.conns c).phase.Served) (hp' : (s.conns c).phase = .ended)
    (he : s.clients c = σ.state.clients c) : Staged L σ' c := by
  obtain ⟨hlisted, hnone, htold, hheard⟩ := Stage.of_served h hp
  have hresult : σ.nextResult L c op ending = none := by
    rw [nextResult_eq hstep, hnone]
    rintro ⟨-, hclosing⟩
    rw [hclosing] at hp'
    cases hp'
  refine .over hs hstep hp' hresult ?_
  rw [he, hlisted, htold]
  exact .leaked ((heard_still hstep (.inl hp)).mpr hheard)

theorem Staged.leaves (h : Staged L σ c) (hs : σ.serve L c op ending w = some σ')
    (hstep : stepConn L.setup σ.state c op (σ.state.conns c).phase = some s)
    (hp : (σ.state.conns c).phase.Served) (hp' : (s.conns c).phase = .closing)
    (he : s.clients c = none) : Staged L σ' c := by
  obtain ⟨-, -, htold, hheard⟩ := Stage.of_served h hp
  obtain ⟨r, hr⟩ := Option.isSome_iff_exists.mp ((loopResult_isSome ending hstep).mpr ⟨hp, hp'⟩)
  refine .running hs hstep (by rw [hp']; simp) ?_
  rw [he, hp', Site.nextResult, hr, htold]
  exact .closing ((heard_still hstep (.inl hp)).mpr hheard)

/-- The writer has been aborted: the handlers are called. -/
theorem Staged.ends (h : Staged L σ c) (hs : σ.serve L c op ending w = some σ')
    (hstep : stepConn L.setup σ.state c op (σ.state.conns c).phase = some s)
    (hp : (σ.state.conns c).phase = .closing) (hp' : (s.conns c).phase = .ended)
    (he : s.clients c = σ.state.clients c) : Staged L σ' c := by
  have hold := h
  unfold Staged at hold
  rw [hp] at hold
  obtain ⟨hlisted, hsome, htold, hheard⟩ := hold.of_closing
  obtain ⟨r, hr⟩ := Option.isSome_iff_exists.mp hsome
  have hresult : σ.nextResult L c op ending = some r := by
    rw [nextResult_eq hstep, hr]
    rintro ⟨hserved, -⟩
    rw [hp] at hserved
    exact hserved
  obtain ⟨s₁, served, hstep₁, rfl, hcases⟩ := serve_eq_some hs
  rw [hstep] at hstep₁
  cases hstep₁
  rcases hcases with ⟨hne, -⟩ | ⟨r', -, hr', rfl⟩ | ⟨-, hnone, -⟩
  · exact absurd hp' hne
  · rw [hresult] at hr'
    cases hr'
    apply Staged.part
    · exact hp'
    · rw [he]
      simpa using hlisted
    · simp only [Function.update_self, hresult]
    · exact htold
    · exact (heard_still hstep (.inr hp)).mpr hheard
  · rw [hresult] at hnone
    cases hnone

theorem Staged.ownStep (hhandlers : L.setup.server.connectionHandlers ≠ []) (h : Staged L σ c)
    (hs : σ.serve L c op ending w = some σ') : Staged L σ' c := by
  obtain ⟨s, -, hstep, -⟩ := serve_eq_some hs
  cases lifeStep_of_move (move_stepConn hstep) c with
  | stays ha => exact absurd rfl (ha op)
  | shakes hp hp' he hout => exact h.shakes hs hstep hp hp' he hout
  | enters hin he hh hp' =>
    exact h.enters hs hstep (entering_handshake hin) he (hh hhandlers) (hp'.imp And.right And.right)
  | serves hp hp' he => exact h.serves hs hstep hp hp' he
  | unwinds _ hp hp' he => exact h.unwinds hs hstep (hp ▸ trivial) hp' he
  | leaves hp hp' he => exact h.leaves hs hstep hp hp' he
  | ends hp hp' he => exact h.ends hs hstep hp hp' he

end OwnStep

/-- The end of one task is not seen by another's. -/
theorem part_frame (σ : Site) (hne : c ≠ d) (w : W) (result : Except ServerError Unit) :
    (σ.part L d w result).state = σ.state ∧ (σ.part L d w result).result = σ.result ∧
      (σ.part L d w result).pc c = σ.pc c ∧ (σ.part L d w result).farewells c = σ.farewells c := by
  have hother : (notifyDisconnected w (farewell L d (σ.state.conns d).peer result)
      L.disconnectHandlers).calls.filter (·.2.connectionId == c) = [] := by
    refine List.filter_eq_nil_iff.mpr fun call hcall => ?_
    rw [mem_notifyFrom hcall, beq_iff_eq]
    exact hne.symm
  unfold Site.part
  dsimp only
  split
  · refine ⟨rfl, rfl, Function.update_of_ne hne .., ?_⟩
    simp only [Site.farewells, Site.setPc, List.filter_append, hother, List.append_nil]
  · refine ⟨rfl, rfl, Function.update_of_ne hne .., ?_⟩
    simp only [Site.farewells, Site.finish, Site.setPc, List.filter_append, hother, List.append_nil]

/-- Another connection's step. -/
theorem Staged.otherStep (h : Staged L σ c) (hne : c ≠ d) {op : ConnOp W} {ending : StreamEnd} {w : W}
    (hs : σ.serve L d op ending w = some σ') : Staged L σ' c := by
  obtain ⟨s, served, hstep, rfl, hcases⟩ := serve_eq_some hs
  have ha : ∀ op', (Action.conn d op : Action W) ≠ .conn c op' :=
    fun op' hop => hne (conn_eq_of_action_eq op' hop)
  have hstep' : step L.setup (.conn d op) σ.state = some s := hstep
  have hresult : Function.update σ.result d (σ.nextResult L d op ending) c = σ.result c :=
    Function.update_of_ne hne ..
  rcases hcases with ⟨-, rfl⟩ | ⟨r, -, -, rfl⟩ | ⟨-, -, rfl⟩
  · exact h.elsewhere ha hstep' hresult (Function.update_of_ne hne ..) rfl
  · obtain ⟨hstate, hres, hpc, htold⟩ := part_frame (L := L)
      { σ with state := s, result := Function.update σ.result d (σ.nextResult L d op ending) } hne w r
    exact h.elsewhere ha (by rw [hstep', hstate]) (by rw [hres]; exact hresult) hpc htold
  · exact h.elsewhere ha hstep' hresult (Function.update_of_ne hne ..) rfl

theorem Staged.setPc (h : Staged L σ c) (d : String) (pc : ServePc)
    (hpc : c = d → Stage L c (σ.state.conns c).peer (Heard c σ.state) (σ.state.conns c).phase
      (σ.state.clients c).isSome (σ.result c) pc (σ.farewells c)) : Staged L (σ.setPc d pc) c := by
  by_cases hcd : c = d
  · have hnew := hpc hcd
    unfold Staged
    simp only [Site.setPc, hcd, Function.update_self]
    exact hcd ▸ hnew
  · exact h.congr rfl Iff.rfl rfl rfl rfl (Function.update_of_ne hcd ..) rfl

theorem Staged.step (hhandlers : L.setup.server.connectionHandlers ≠ []) (h : Staged L σ c)
    {a : SiteAction W} (hs : siteStep L a σ = some σ') : Staged L σ' c := by
  have hserve : ∀ {d op ending w}, σ.serve L d op ending w = some σ' → Staged L σ' c := by
    intro d op ending w hserve
    by_cases hcd : c = d
    · subst hcd
      exact h.ownStep hhandlers hserve
    · exact h.otherStep hcd hserve
  unfold siteStep at hs
  split at hs
  · split at hs <;> cases hs
    · exact h.congr rfl Iff.rfl rfl rfl rfl rfl rfl
    · exact h.congr rfl Iff.rfl rfl rfl rfl rfl rfl
  · rename_i d peer
    split at hs <;> cases hs
    rename_i habsent
    have hspawned : Staged L (σ.setPc d (.spawned peer)) c := by
      apply h.setPc
      rintro rfl
      unfold Staged at h
      rw [habsent] at h
      exact h.spawned peer
    exact hspawned.congr rfl Iff.rfl rfl rfl rfl rfl rfl
  · split at hs <;> cases hs
    exact h.congr rfl Iff.rfl rfl rfl rfl rfl rfl
  · split at hs
    · exact hserve hs
    · cases hs
  · split at hs
    · exact hserve hs
    · cases hs
  · unfold stepOther at hs
    split at hs
    · cases hs
    · rename_i a hconn
      obtain ⟨s, hstep, rfl⟩ := Option.map_eq_some_iff.mp hs
      exact h.elsewhere (fun op hop => hconn c op hop) hstep rfl rfl rfl
  · rename_i d
    split at hs <;> cases hs
    rename_i hparting
    have hdone : Staged L (σ.setPc d .done) c := by
      apply h.setPc
      rintro rfl
      unfold Staged at h
      rw [hparting] at h
      exact h.finished
    exact hdone.congr rfl Iff.rfl rfl rfl rfl rfl rfl

theorem staged_run (hhandlers : L.setup.server.connectionHandlers ≠ []) {actions : List (SiteAction W)}
    (h : Machine.run (siteStep L) actions (Site.init L) = some σ) (c : String) : Staged L σ c := by
  have hunheard : ¬ Heard c (State.init L.setup) := by
    rintro ⟨ctx, hctx, -⟩
    cases hctx
  have hinit : Staged L (Site.init L) c := .waiting (.inl rfl) hunheard
  exact Machine.run_invariant (I := fun σ => Staged L σ c)
    (fun _ _ _ hs hstep => hs.step hhandlers hstep) h hinit

/-- How many handlers are called: all, or those up to the first that panics in the call. -/
def calledFirst (w : W) (ctx : ServerDisconnectContext) (handlers : List (DisconnectHandler W)) : ℕ :=
  min (handlers.findIdx (fun handler => (handler w ctx).isCallPanic) + 1) handlers.length

theorem notifyFrom_calls (w : W) (ctx : ServerDisconnectContext) (i : ℕ)
    (handlers : List (DisconnectHandler W)) :
    (notifyFrom w ctx i handlers).calls =
      (List.range' i (calledFirst w ctx handlers)).map fun n => (n, ctx) := by
  unfold calledFirst
  induction handlers generalizing i with
  | nil => rfl
  | cons handler handlers ih =>
    cases hcall : handler w ctx with
    | callPanics =>
      simp [notifyFrom, hcall, Exec.catchUnwind, bind, Exec.andThen, List.findIdx_cons,
        Callback.isCallPanic]
    | returns _ | panics =>
      simp [notifyFrom, hcall, Exec.catchUnwind, bind, Exec.andThen, List.findIdx_cons,
        Callback.isCallPanic, ih, Nat.add_min_add_right, List.range'_succ]

/-- Nobody hears of the end of a connection before it has ended. By then each handler has been
called once, in order, up to the first that panics in the call, with what the reader loop ended
with, and the connection has left the table; only those ended without a farewell that were never
announced or whose task unwound. -/
theorem farewell_once (L : Listening W) (hhandlers : L.setup.server.connectionHandlers ≠ [])
    {actions : List (SiteAction W)} {σ : Site}
    (h : Machine.run (siteStep L) actions (Site.init L) = some σ) (c : String) :
    ((σ.state.conns c).phase ≠ .ended → σ.farewells c = []) ∧
    ((σ.state.conns c).phase = .ended →
      (Heard c σ.state ↔ (σ.result c).isSome = true ∨ (σ.state.clients c).isSome = true) ∧
      (σ.result c = none → σ.farewells c = []) ∧
      ∀ r, σ.result c = some r → σ.state.clients c = none ∧
        ∃ w, σ.farewells c = (notifyDisconnected w (farewell L c (σ.state.conns c).peer r)
            L.disconnectHandlers).calls ∧
          σ.farewells c = (List.range (calledFirst w (farewell L c (σ.state.conns c).peer r)
            L.disconnectHandlers)).map fun n => (n, farewell L c (σ.state.conns c).peer r)) := by
  have hstage := staged_run hhandlers h c
  unfold Staged at hstage
  generalize (σ.state.conns c).phase = p at hstage ⊢
  generalize hlisted : (σ.state.clients c).isSome = listed at hstage ⊢
  generalize σ.result c = result at hstage ⊢
  generalize σ.pc c = pc at hstage
  generalize σ.farewells c = told at hstage ⊢
  cases hstage with
  | waiting | closing => exact ⟨fun _ => rfl, (by simp)⟩
  | shaking hp | served hp =>
    refine ⟨fun _ => rfl, fun hended => ?_⟩
    rw [hended] at hp
    exact hp.elim
  | refused hh => exact ⟨fun _ => rfl, fun _ => ⟨iff_of_false hh (by simp), fun _ => rfl, (by simp)⟩⟩
  | leaked hh => exact ⟨fun _ => rfl, fun _ => ⟨iff_of_true hh (by simp), fun _ => rfl, (by simp)⟩⟩
  | @parted r _ hh w _ =>
    refine ⟨fun hne => absurd rfl hne, fun _ => ⟨iff_of_true hh (by simp), (by simp), ?_⟩⟩
    intro r' hr
    cases hr
    refine ⟨by simpa using hlisted, w, rfl, ?_⟩
    rw [notifyDisconnected, notifyFrom_calls, List.range_eq_range']

end Farewell

def timedOut (σ : Site) : Bool :=
  match (σ.state.conns "c").phase, σ.result "c" with
  | .ended, some (.error (.idleTimeout _)) => true
  | _, _ => false

theorem farewell_once_timeout :
    ∃ σ id, Machine.run (siteStep cappedListening) timeoutRun (Site.init cappedListening) = some σ ∧
      σ.farewells "c" = [(0, farewell cappedListening "c" (σ.state.conns "c").peer
        (.error (.idleTimeout id)))] := by
  have hrun : (Machine.run (siteStep cappedListening) timeoutRun (Site.init cappedListening)).any
      timedOut = true := by decide +kernel
  obtain ⟨σ, hσ, htimed⟩ := (Option.any_eq_true ..).mp hrun
  unfold timedOut at htimed
  split at htimed
  · rename_i id hended hresult
    obtain ⟨-, hfarewell⟩ := farewell_once cappedListening (by simp [cappedListening, listeningSetup]) hσ "c"
    obtain ⟨-, w, -, htold⟩ := (hfarewell hended).2.2 _ hresult
    exact ⟨σ, id, hσ, htold⟩
  · cases htimed

end Wscall.Server
