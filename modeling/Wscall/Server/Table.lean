import Wscall.Server.Steps
import Wscall.Server.Moves

/-!
# Who is in the table (`server_runtime.rs:743-754`, `984-993`)

The entry is made before the `on_connected` handlers are called and taken out where the reader
loop has ended. Nothing takes it out when the task unwinds in between.
-/

namespace Wscall.Server
open RustStd Protocol

section Life

variable {W : Type} (setup : Setup W)

/-- No handler panics in the call; panics of the futures are caught. -/
def Quietly (w : W) (ctx : ServerConnectionContext) : Prop :=
  ∀ handler ∈ setup.server.connectionHandlers, handler w ctx ≠ .callPanics

/-- The task of a connection unwinds between its entry into the table and its exit. -/
def Unwinds (c : String) (s : State) (a : Action W) : Prop :=
  (∃ op w output, a = .conn c op ∧ entering setup op (s.conns c).phase = some (w, output) ∧
    ¬ Quietly setup w (connectedContext setup s c output)) ∨
  (∃ codec bytes now random, a = .conn c (.received (some (.binary bytes)) now random) ∧
    (s.conns c).phase = .reading ∧ (s.conns c).codec = some codec ∧
    ReadUnwinds setup s c codec now bytes)

/-- The entry of a connection whose task is gone. -/
def Leaked (c : String) (s : State) : Prop :=
  (s.clients c).isSome = true ∧ (s.conns c).phase = .ended

def InTable (c : String) (s : State) : Prop :=
  (s.clients c).isSome = true ↔ (s.conns c).phase.Served

/-- A connection has been announced. -/
def Heard (c : String) (s : State) : Prop := ∃ ctx ∈ s.connected, ctx.connectionId = c

/-- One step in the life of a connection. -/
inductive LifeStep (s s' : State) (c : String) : Action W → Prop
  | stays {a} (ha : ∀ op, a ≠ .conn c op) (hp : (s'.conns c).phase = (s.conns c).phase)
      (he : s'.clients c = s.clients c) (hpeer : (s'.conns c).peer = (s.conns c).peer) :
      LifeStep s s' c a
  | shakes {op} (hp : (s.conns c).phase = .absent ∨ (s.conns c).phase.Handshake)
      (hp' : (s'.conns c).phase.Handshake ∨ (s'.conns c).phase = .ended)
      (he : s'.clients c = s.clients c) (hout : entering setup op (s.conns c).phase = none) :
      LifeStep s s' c (.conn c op)
  | enters {op w output} (hin : entering setup op (s.conns c).phase = some (w, output))
      (he : s'.clients c = some ⟨storedContext output⟩)
      (hh : setup.server.connectionHandlers ≠ [] → Heard c s')
      (hp' : (Quietly setup w (connectedContext setup s c output) ∧ (s'.conns c).phase = .notifying) ∨
        (¬ Quietly setup w (connectedContext setup s c output) ∧ (s'.conns c).phase = .ended)) :
      LifeStep s s' c (.conn c op)
  | serves {op} (hp : (s.conns c).phase.Served) (hp' : (s'.conns c).phase.Served)
      (he : s'.clients c = s.clients c) : LifeStep s s' c (.conn c op)
  | unwinds {op} (h : Unwinds setup c s (.conn c op)) (hp : (s.conns c).phase = .reading)
      (hp' : (s'.conns c).phase = .ended) (he : s'.clients c = s.clients c) :
      LifeStep s s' c (.conn c op)
  | leaves {op} (hp : (s.conns c).phase.Served) (hp' : (s'.conns c).phase = .closing)
      (he : s'.clients c = none) : LifeStep s s' c (.conn c op)
  | ends {op} (hp : (s.conns c).phase = .closing) (hp' : (s'.conns c).phase = .ended)
      (he : s'.clients c = s.clients c) : LifeStep s s' c (.conn c op)

variable {setup} {s s' : State} {c : String} {a : Action W}

theorem isSome_notifyFrom {α : Type} (w : W) (ctx : α) (i : ℕ)
    (handlers : List (W → α → Callback Unit)) :
    (notifyFrom w ctx i handlers).result.isSome = true ↔
      ∀ handler ∈ handlers, handler w ctx ≠ .callPanics := by
  induction handlers generalizing i with
  | nil => simp [notifyFrom]
  | cons handler handlers ih =>
    rw [List.forall_mem_cons, ← ih (i + 1), notifyFrom, Exec.bind_result]
    cases handler w ctx <;> simp [Exec.catchUnwind]

theorem notifyConnected_calls (w : W) (ctx : ServerConnectionContext)
    {handlers : List (ConnectionHandler W)} (h : handlers ≠ []) :
    ctx ∈ (notifyConnected w ctx handlers).calls.map Prod.snd := by
  cases handlers with
  | nil => exact absurd rfl h
  | cons handler handlers =>
    cases hcall : handler w ctx <;>
      simp [notifyConnected, notifyFrom, hcall, Exec.catchUnwind, bind, Exec.andThen]

theorem entering_handshake {op : ConnOp W} {p : Phase} {entry : W × Option AuthOutput}
    (h : entering setup op p = some entry) : p.Handshake := by
  unfold entering at h
  split at h
  · trivial
  · trivial
  · trivial
  · cases h

theorem conn_eq_of_action_eq {d : String} {op : ConnOp W} (op' : ConnOp W)
    (h : (Action.conn d op : Action W) = .conn c op') : c = d := by
  cases h
  rfl

/-- A step of one connection is none of another's. -/
theorem LifeStep.of_conn (c d : String) (ha : ∀ op, a = .conn c op → c = d)
    (hne : ∀ e, e ≠ d → s'.conns e = s.conns e ∧ s'.clients e = s.clients e)
    (h : LifeStep setup s s' d a) : LifeStep setup s s' c a := by
  by_cases hcd : c = d
  · exact hcd ▸ h
  · obtain ⟨hconn, hentry⟩ := hne c hcd
    exact .stays (fun op h => hcd (ha op h)) (by rw [hconn]) hentry (by rw [hconn])

theorem LifeStep.setConn (c : String) {d : String} {conn : Conn} {s₁ : State}
    (ha : ∀ op, a = .conn c op → c = d) (hconns : s₁.conns = s.conns) (hclients : s₁.clients = s.clients)
    (h : LifeStep setup s (s₁.setConn d conn) d a) : LifeStep setup s (s₁.setConn d conn) c a :=
  .of_conn c d ha (fun e he => ⟨by rw [State.setConn_of_ne _ he, hconns], by rw [← hclients]; rfl⟩) h

theorem LifeStep.teardown (c : String) {d : String} {s₁ : State} {op : ConnOp W}
    (hne : ∀ e, e ≠ d → s₁.conns e = s.conns e) (hclients : s₁.clients = s.clients)
    (hp : (s.conns d).phase.Served) :
    LifeStep setup s (Wscall.Server.teardown s₁ d) c (.conn d op) := by
  refine .of_conn c d conn_eq_of_action_eq (fun e he => ⟨?_, ?_⟩) (.leaves hp ?_ ?_)
  · exact (State.setConn_of_ne _ he _).trans (hne e he)
  · simp only [Wscall.Server.teardown, Function.update_of_ne he, hclients]
  · simp only [Wscall.Server.teardown, State.setConn_self]
  · simp only [Wscall.Server.teardown, Function.update_self]

theorem LifeStep.enter (c : String) {d : String} {op : ConnOp W} {conn : Conn} {w : W}
    {output : Option AuthOutput} (hpeer : conn.peer = (s.conns d).peer)
    (hin : entering setup op (s.conns d).phase = some (w, output)) :
    LifeStep setup s (Wscall.Server.enter setup (s.setConn d conn) d w output) c (.conn d op) := by
  have hctx : connectedContext setup (s.setConn d conn) d output = connectedContext setup s d output := by
    simp only [connectedContext, State.setConn_self, hpeer]
  refine .of_conn c d conn_eq_of_action_eq (fun e he => ⟨?_, ?_⟩) (.enters hin ?_ (fun hsome => ?_) ?_)
  · simp only [Wscall.Server.enter, State.setConn_setConn, State.setConn_of_ne s he]
  · exact Function.update_of_ne he ..
  · exact Function.update_self ..
  · exact ⟨_, List.mem_append_right _ (notifyConnected_calls w _ hsome), rfl⟩
  · have hrun := isSome_notifyFrom w (connectedContext setup s d output) 0 setup.server.connectionHandlers
    simp only [Wscall.Server.enter, State.setConn_self, hctx, notifyConnected]
    by_cases hquiet : Quietly setup w (connectedContext setup s d output)
    · exact .inl ⟨hquiet, if_pos (hrun.mpr hquiet)⟩
    · exact .inr ⟨hquiet, if_neg fun hsome => hquiet (hrun.mp hsome)⟩

theorem lifeStep_of_move (hm : Move setup s a s') (c : String) : LifeStep setup s s' c a := by
  cases hm with
  | @accepted d peer now limiter phase hp hphase =>
    refine .setConn c conn_eq_of_action_eq rfl rfl (.shakes (.inl hp) ?_ rfl ?_)
    · rw [State.setConn_self]
      rcases hphase with rfl | rfl
      · exact .inl trivial
      · exact .inr rfl
    · rw [hp]
      rfl
  | shook h hout =>
    refine .setConn c conn_eq_of_action_eq rfl rfl (.shakes (.inr h.handshake) ?_ rfl hout)
    rw [State.setConn_self]
    exact h.next
  | entered h hin => exact .enter c h.shaken.peer hin
  | @greeted d _ _ hp =>
    have hserved : (s.conns d).phase.Served := hp ▸ trivial
    refine .setConn c conn_eq_of_action_eq rfl rfl (.serves hserved ?_ rfl)
    rw [State.setConn_self]
    trivial
  | @ungreeted d _ hp =>
    have hserved : (s.conns d).phase.Served := hp ▸ trivial
    exact .teardown c (fun e he => State.setConn_of_ne _ he _) rfl hserved
  | @read d codec message now random limiter phase hp hc h =>
    have hserved : (s.conns d).phase.Served := hp ▸ trivial
    refine .setConn c conn_eq_of_action_eq rfl rfl ?_
    cases h with
    | unwound hu =>
      exact .unwinds (.inr ⟨codec, _, now, random, rfl, hp, hc, hu⟩) hp (by rw [State.setConn_self]) rfl
    | _ =>
      refine .serves hserved ?_ rfl
      rw [State.setConn_self]
      trivial
  | @hungUp d _ _ _ _ hp =>
    have hserved : (s.conns d).phase.Served := hp ▸ trivial
    exact .teardown c (fun e he => State.setConn_of_ne _ he _) rfl hserved
  | queued hp =>
    refine .setConn c conn_eq_of_action_eq rfl rfl (.serves (held_served hp) ?_ rfl)
    rw [State.setConn_self]
    trivial
  | @unqueued d _ hp =>
    have hserved : (s.conns d).phase.Served := hp ▸ trivial
    refine .setConn c conn_eq_of_action_eq rfl rfl (.serves hserved ?_ rfl)
    rw [State.setConn_self]
    trivial
  | @unponged d _ hp =>
    have hserved : (s.conns d).phase.Served := hp ▸ trivial
    exact .teardown c (fun e _ => rfl) rfl hserved
  | @acquired d _ _ hp =>
    have hserved : (s.conns d).phase.Served := hp ▸ trivial
    refine .setConn c conn_eq_of_action_eq rfl rfl (.serves hserved ?_ rfl)
    rw [State.setConn_self]
    trivial
  | graceOver hp => exact .setConn c conn_eq_of_action_eq rfl rfl (.ends hp (by rw [State.setConn_self]) rfl)
  | ticked => exact .setConn c (by simp) rfl rfl (.stays (by simp) (by rw [State.setConn_self]) rfl (by rw [State.setConn_self]))
  | stopped => exact .setConn c (by simp) rfl rfl (.stays (by simp) (by rw [State.setConn_self]) rfl (by rw [State.setConn_self]))
  | wrote => exact .setConn c (by simp) rfl rfl (.stays (by simp) (by rw [State.setConn_self]) rfl (by rw [State.setConn_self]))
  | ran => exact .stays (by simp) rfl rfl rfl
  | encoded => exact .stays (by simp) rfl rfl rfl
  | @answered t =>
    refine .of_conn c (s.tasks t).connectionId (by simp) (fun e he => ⟨?_, rfl⟩) (.stays (by simp) ?_ rfl ?_)
    · exact (State.setConn_of_ne _ he _).trans (State.setConn_of_ne _ he _)
    · simp only [finishTask, State.setConn_self]
    · simp only [finishTask, State.setConn_self]
  | finished => exact .setConn c (by simp) rfl rfl (.stays (by simp) (by rw [State.setConn_self]) rfl (by rw [State.setConn_self]))
  | delivered => exact .setConn c (by simp) rfl rfl (.stays (by simp) (by rw [State.setConn_self]) rfl (by rw [State.setConn_self]))
  | aside ha => exact .stays (fun op hop => by subst hop; exact ha) rfl rfl rfl

/-- Only the entry into the table announces a connection. -/
theorem heard_of_move (hm : Move setup s a s')
    (ha : ∀ op, a = .conn c op → entering setup op (s.conns c).phase = none) :
    Heard c s' ↔ Heard c s := by
  cases hm with
  | @entered d op conn w output h hin =>
    have hdc : d ≠ c := by
      rintro rfl
      rw [ha op rfl] at hin
      cases hin
    constructor
    · rintro ⟨ctx, hmem, hid⟩
      rcases List.mem_append.mp hmem with hmem | hmem
      · exact ⟨ctx, hmem, hid⟩
      · rw [mem_notifyConnected hmem] at hid
        exact absurd hid hdc
    · rintro ⟨ctx, hmem, hid⟩
      exact ⟨ctx, List.mem_append_left _ hmem, hid⟩
  | _ => exact Iff.rfl

/-- Where the reader unwinds, the task ends and nothing else changes. -/
theorem readBinary_unwinds {codec : FrameCodec} {bytes : Bytes} {now : ℕ}
    (h : ReadUnwinds setup s c codec now bytes) (random : Except String Nonce) :
    ((readBinary setup s c codec bytes now random).conns c).phase = .ended ∧
      (readBinary setup s c codec bytes now random).clients = s.clients := by
  obtain ⟨hfast, hpanic | ⟨p, hd, hin⟩⟩ := h
  · unfold readBinary
    rw [hfast, hpanic]
    exact ⟨by simp [State.setPhase], rfl⟩
  · unfold readBinary
    rw [hfast, hd]
    dsimp only
    rw [hin]
    exact ⟨by simp [State.setPhase], rfl⟩

theorem Unwinds.leaks (h : Unwinds setup c s a) (hs : step setup a s = some s')
    (hserved : (s.conns c).phase.Served → (s.clients c).isSome = true) : Leaked c s' := by
  rcases h with ⟨op, w, output, rfl, hin, hloud⟩ | ⟨codec, bytes, now, random, rfl, hp, hc, hu⟩
  · have hshake := entering_handshake hin
    cases lifeStep_of_move (move_of_step hs) c with
    | stays ha => exact absurd rfl (ha op)
    | shakes _ _ _ hout =>
      rw [hout] at hin
      cases hin
    | enters hin' he _ hp' =>
      rw [hin] at hin'
      cases hin'
      obtain ⟨hquiet, -⟩ | ⟨-, hended⟩ := hp'
      · exact absurd hquiet hloud
      · exact ⟨by rw [he]; rfl, hended⟩
    | serves hp => exact absurd hp hshake.not_served
    | unwinds _ hp =>
      rw [hp] at hshake
      exact hshake.elim
    | leaves hp => exact absurd hp hshake.not_served
    | ends hp =>
      rw [hp] at hshake
      exact hshake.elim
  · have hlogged : ReadUnwinds setup (s.logged c (some (.binary bytes))) c codec now bytes := by
      have hpeer : ((s.logged c (some (.binary bytes))).conns c).peer = (s.conns c).peer := by
        simp [State.logged]
      simp only [ReadUnwinds, hpeer]
      exact hu
    obtain ⟨hended, hclients⟩ := readBinary_unwinds hlogged random
    simp only [step, stepConn, hp, hc, Option.map_some, Option.some.injEq] at hs
    subst hs
    refine ⟨?_, hended⟩
    rw [readMessage, hclients]
    exact hserved (hp ▸ trivial)

/-! ### Over whole runs -/

theorem InTable.step (h : InTable c s) (hs : step setup a s = some s') (hquiet : ¬ Unwinds setup c s a) :
    InTable c s' := by
  unfold InTable at h ⊢
  cases lifeStep_of_move (move_of_step hs) c with
  | stays _ hp he => rwa [hp, he]
  | shakes hp hp' he =>
    have hold : ¬ (s.conns c).phase.Served := by
      rcases hp with hp | hp
      · rw [hp]
        exact not_false
      · exact hp.not_served
    have hnew : ¬ (s'.conns c).phase.Served := by
      rcases hp' with hp' | hp'
      · exact hp'.not_served
      · rw [hp']
        exact not_false
    rw [he, h]
    exact iff_of_false hold hnew
  | @enters op w output hin he _ hp' =>
    obtain ⟨-, hnotifying⟩ | ⟨hloud, -⟩ := hp'
    · rw [he, hnotifying]
      exact iff_of_true rfl trivial
    · exact absurd (.inl ⟨op, w, output, rfl, hin, hloud⟩) hquiet
  | serves hp hp' he =>
    rw [he, h]
    exact iff_of_true hp hp'
  | unwinds hu => exact absurd hu hquiet
  | leaves _ hp' he =>
    rw [he, hp']
    exact iff_of_false (by simp) not_false
  | ends hp hp' he =>
    rw [he, h, hp, hp']
    exact iff_of_false not_false not_false

theorem Leaked.step (h : Leaked c s) (hs : step setup a s = some s') : Leaked c s' := by
  obtain ⟨hentry, hended⟩ := h
  cases lifeStep_of_move (move_of_step hs) c with
  | stays _ hp he => exact ⟨by rwa [he], by rwa [hp]⟩
  | shakes hp =>
    rw [hended] at hp
    rcases hp with hp | hp <;> cases hp
  | enters hin =>
    have hshake := entering_handshake hin
    rw [hended] at hshake
    exact hshake.elim
  | serves hp =>
    rw [hended] at hp
    exact hp.elim
  | unwinds _ hp =>
    rw [hended] at hp
    cases hp
  | leaves hp =>
    rw [hended] at hp
    exact hp.elim
  | ends hp =>
    rw [hended] at hp
    cases hp

/-- The table holds the connections that are served, and those whose task has unwound while
it was in the table. -/
theorem in_table_iff (setup : Setup W) {actions : List (Action W)} {s : State}
    (h : Machine.run (step setup) actions (State.init setup) = some s) (c : String) :
    (s.clients c).isSome = true ↔ (s.conns c).phase.Served ∨
      ¬ Machine.Along (step setup) (fun s a => ¬ Unwinds setup c s a) actions (State.init setup) := by
  have hsplit := Machine.run_good_or_spoiled (G := InTable c) (B := Leaked c)
    (P := fun s a => ¬ Unwinds setup c s a) (fun a s s' hg hs hp => hg.step hs hp)
    (fun a s s' hg hs hp => (Classical.not_not.mp hp).leaks hs hg.mpr)
    (fun a s s' hb hs => hb.step hs) h (iff_of_false (by simp [State.init]) not_false)
  rcases hsplit with ⟨hall, hgood⟩ | ⟨hnot, hentry, hended⟩
  · exact hgood.trans ⟨.inl, fun h => h.resolve_right (not_not_intro hall)⟩
  · exact iff_of_true hentry (.inr hnot)

end Life

/-- A server whose `on_connected` handler panics in the call. -/
def unwindingSetup : Setup Unit :=
  { loginSetup with server := { loginServer with connectionHandlers := [fun _ _ => .callPanics] } }

/-- The entry of such a connection stays. -/
theorem in_table_iff_unwound :
    ∃ s, Machine.run (step unwindingSetup) (loginRun.take 5) (State.init unwindingSetup) = some s ∧
      (s.clients "c").isSome = true ∧ ¬ (s.conns "c").phase.Served ∧
      ¬ Machine.Along (step unwindingSetup) (fun s a => ¬ Unwinds unwindingSetup "c" s a)
        (loginRun.take 5) (State.init unwindingSetup) := by
  have hrun : (Machine.run (step unwindingSetup) (loginRun.take 5) (State.init unwindingSetup)).any
      (fun s => (s.clients "c").isSome && !decide (s.conns "c").phase.Served) = true := by
    decide +kernel
  obtain ⟨s, hs, hp⟩ := (Option.any_eq_true ..).mp hrun
  simp only [Bool.and_eq_true, Bool.not_eq_true', decide_eq_false_iff_not] at hp
  exact ⟨s, hs, hp.1, hp.2, ((in_table_iff unwindingSetup hs "c").mp hp.1).resolve_left hp.2⟩

end Wscall.Server
