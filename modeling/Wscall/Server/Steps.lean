import Wscall.Server.AuthGate

/-!
# Quiet moves

For who is in the table and who has been announced most moves are quiet; the others are the
return of the auth handler and the entry into the table.
-/

namespace Wscall.Server
open RustStd Protocol

/-- Neither served nor about to get the auth response. -/
def Phase.Aside : Phase → Prop
  | .notifying | .reading | .queueing _ | .acquiring _ | .ponging _ | .authReplying _ _ => False
  | _ => True

theorem Phase.Aside.not_served {p : Phase} (h : p.Aside) : ¬ p.Served := by
  cases p <;> first | exact not_false | exact h.elim

/-- The phases a quiet step may lead to. -/
inductive Phase.Next (old : Phase) : Phase → Prop
  | same : Next old old
  | aside {new : Phase} (h : new.Aside) : Next old new
  | served {new : Phase} (hold : old.Served) (h : new.Served) : Next old new

/-- A step that neither announces anyone nor concerns the auth handler, and after which only those
are served who were before and whose table entry has not changed. -/
structure Quiet (s s' : State) : Prop where
  connected : s'.connected = s.connected
  authCalls : ∀ d, (s'.conns d).authCalls = (s.conns d).authCalls
  replying : ∀ d result bytes, (s'.conns d).phase = .authReplying result bytes →
    (s.conns d).phase = .authReplying result bytes
  served : ∀ d, (s'.conns d).phase.Served → (s.conns d).phase.Served ∧ s'.clients d = s.clients d

section Quiet

variable {W : Type} {setup : Setup W} {s s₁ s₂ : State} {c : String}

theorem Quiet.trans (h : Quiet s s₁) (h' : Quiet s₁ s₂) : Quiet s s₂ where
  connected := h'.connected.trans h.connected
  authCalls d := (h'.authCalls d).trans (h.authCalls d)
  replying d result bytes hp := h.replying d result bytes (h'.replying d result bytes hp)
  served d hd := by
    obtain ⟨hserved', hclients'⟩ := h'.served d hd
    obtain ⟨hserved, hclients⟩ := h.served d hserved'
    exact ⟨hserved, hclients'.trans hclients⟩

theorem Quiet.setConn {conn : Conn} (hcalls : conn.authCalls = (s.conns c).authCalls)
    (hphase : (s.conns c).phase.Next conn.phase) : Quiet s (s.setConn c conn) := by
  refine ⟨rfl, fun d => ?_, fun d result bytes hp => ?_, fun d hd => ⟨?_, rfl⟩⟩
  · by_cases hdc : d = c
    · subst hdc
      rw [State.setConn_self, hcalls]
    · rw [State.setConn_of_ne s hdc]
  · by_cases hdc : d = c
    · subst hdc
      rw [State.setConn_self] at hp
      rw [hp] at hphase
      generalize (s.conns d).phase = old at hphase
      cases hphase with
      | same => rfl
      | aside h => exact h.elim
      | served _ h => exact h.elim
    · rwa [State.setConn_of_ne s hdc] at hp
  · by_cases hdc : d = c
    · subst hdc
      rw [State.setConn_self] at hd
      generalize (s.conns d).phase = old at hphase
      generalize conn.phase = new at hphase hd
      cases hphase with
      | same => exact hd
      | aside h => exact absurd hd h.not_served
      | served hold _ => exact hold
    · rwa [State.setConn_of_ne s hdc] at hd

theorem Quiet.setPhase (s : State) (c : String) {phase : Phase}
    (h : (s.conns c).phase.Next phase) : Quiet s (s.setPhase c phase) :=
  .setConn rfl h

theorem Quiet.elsewhere (hconns : s₁.conns = s.conns) (hconnected : s₁.connected = s.connected)
    (hclients : s₁.clients = s.clients) : Quiet s s₁ where
  connected := hconnected
  authCalls d := by rw [hconns]
  replying d result bytes hp := by rwa [hconns] at hp
  served d hd := by
    rw [hconns] at hd
    exact ⟨hd, by rw [hclients]⟩

theorem Quiet.teardown (s : State) (c : String) : Quiet s (Wscall.Server.teardown s c) := by
  have hset : Quiet s (s.setConn c { s.conns c with
      phase := .closing
      channel := ((s.conns c).channel.trySend .close).getD (s.conns c).channel }) :=
    .setConn rfl (.aside trivial)
  refine ⟨hset.connected, hset.authCalls, hset.replying, fun d hd => ⟨(hset.served d hd).1, ?_⟩⟩
  have hdc : d ≠ c := by
    rintro rfl
    simp only [Wscall.Server.teardown, State.setConn_self] at hd
    exact hd.elim
  simp only [Wscall.Server.teardown, Function.update_of_ne hdc]

theorem Quiet.finishTask (s : State) (t : ℕ) (task : HandlerTask) :
    Quiet s (Wscall.Server.finishTask s t task) := by
  have htask : Quiet s (s.setTask t { task with pc := .finished }) := .elsewhere rfl rfl rfl
  exact htask.trans (.setConn rfl .same)

end Quiet

/-! ### The moves that are not quiet -/

section Steps

variable {W : Type} {setup : Setup W} {s s' : State} {c : String}

inductive ConnStep (setup : Setup W) (s : State) (c : String) : State → Prop
  | quiet {t : State} (h : Quiet s t) : ConnStep setup s c t
  | asked {credential outcome conn} (hphase : (s.conns c).phase = .authHandling credential)
      (hauth : setup.server.authHandler.isSome)
      (hcalls : conn.authCalls = (s.conns c).authCalls ++ [(credential, outcome)])
      (hreply : ∀ result bytes, conn.phase = .authReplying result bytes → outcome = .returns result)
      (hout : ¬ conn.phase.Served) :
      ConnStep setup s c (s.setConn c conn)
  | entered {s₁ w output} (h : Quiet s s₁) (hstands : Stands setup (s.conns c) output) :
      ConnStep setup s c (enter setup s₁ c w output)

theorem Phase.Handshake.not_served {p : Phase} (h : p.Handshake) : ¬ p.Served := by
  cases p with
  | notifying | reading | queueing | acquiring | ponging => exact h.elim
  | _ => exact not_false

theorem held_served {p : Phase} {item : ServerOutbound} (h : p.held = some item) : p.Served := by
  cases p with
  | queueing | ponging => trivial
  | _ => cases h

theorem Reads.served_or_ended {codec : FrameCodec} {now : ℕ} {random : Except String Nonce}
    {message : Option WsMessage} {phase : Phase}
    (h : Reads setup s c codec now random message phase) : phase.Served ∨ phase = .ended := by
  cases h with
  | unwound => exact .inr rfl
  | _ => exact .inl trivial

/-- The handshake up to the return of the auth handler. -/
theorem Shakes.next_of_authCalls {old new : Conn} {op : ConnOp W} (h : Shakes setup old op new)
    (hcalls : new.authCalls = old.authCalls) : old.phase.Next new.phase := by
  cases h with
  | accepted => exact .same
  | asked => simp at hcalls
  | _ => exact .aside trivial

theorem connStep_shook {op : ConnOp W} {conn : Conn} (h : Shakes setup (s.conns c) op conn) :
    ConnStep setup s c (s.setConn c conn) := by
  by_cases hcalls : conn.authCalls = (s.conns c).authCalls
  · exact .quiet (.setConn hcalls (h.next_of_authCalls hcalls))
  · cases h with
    | asked hp hauth hphase =>
      rcases hphase with rfl | ⟨result, bytes, rfl, hret, -⟩
      · exact .asked hp hauth rfl (fun _ _ he => by cases he) not_false
      · refine .asked hp hauth rfl (fun result' bytes' he => ?_) not_false
        cases he
        exact hret
    | _ => exact absurd rfl hcalls

theorem quiet_read {message : Option WsMessage} {limiter : Option RateLimiterState} {phase : Phase}
    (hp : (s.conns c).phase.Served) (hphase : phase.Served ∨ phase = .ended) :
    Quiet s ({ s with limiter := limiter }.setConn c { s.conns c with
      phase := phase
      inbox := (s.conns c).inbox ++ message.toList }) := by
  have hlimiter : Quiet s { s with limiter := limiter } := .elsewhere rfl rfl rfl
  refine hlimiter.trans (.setConn rfl ?_)
  rcases hphase with hphase | rfl
  · exact .served hp hphase
  · exact .aside trivial

/-- The steps of the writer, of the handler tasks and of user code. -/
theorem quiet_of_move {a : Action W} (hm : Move setup s a s') (ha : ∀ c op, a ≠ .conn c op) :
    Quiet s s' := by
  cases hm with
  | ticked | stopped | wrote => exact .setConn rfl .same
  | ran | encoded | aside => exact .elsewhere rfl rfl rfl
  | @answered t item ht halive hroom =>
    have hset : Quiet s (s.setConn (s.tasks t).connectionId { s.conns (s.tasks t).connectionId with
        channel := (s.conns (s.tasks t).connectionId).channel.push item }) := .setConn rfl .same
    exact hset.trans (.finishTask _ _ _)
  | @finished t op calls hf =>
    have hcalls : Quiet s { s with calls := calls } := .elsewhere rfl rfl rfl
    exact hcalls.trans (.finishTask _ _ _)
  | @delivered k op c item n =>
    have hid : Quiet s { s with nextEventId := n } := .elsewhere rfl rfl rfl
    exact hid.trans (.setConn rfl .same)
  | _ => exact absurd rfl (ha _ _)

theorem connStep_of_move (h : Sound setup .any s) {op : ConnOp W} (hm : Move setup s (.conn c op) s') :
    ConnStep setup s c s' := by
  have hserved : ∀ {p : Phase}, (s.conns c).phase = p → p.Served → (s.conns c).phase.Served :=
    fun hp hs => hp ▸ hs
  generalize ha : Action.conn c op = a at hm
  cases hm with
  | @accepted d peer now limiter phase hp hphase =>
    cases ha
    have hlimiter : Quiet s { s with limiter := limiter } := .elsewhere rfl rfl rfl
    have hcalls := (h.conns c).unasked (by rw [hp]; trivial)
    refine .quiet (hlimiter.trans (.setConn hcalls.symm (.aside ?_)))
    rcases hphase with rfl | rfl <;> trivial
  | shook hs =>
    cases ha
    exact connStep_shook hs
  | entered hs hin =>
    cases ha
    obtain ⟨hcalls, hstands⟩ := hs.stands hin
    exact .entered (.setConn hcalls (hs.next_of_authCalls hcalls)) hstands
  | greeted hp =>
    cases ha
    have hid : Quiet s { s with nextEventId := s.nextEventId + 1 } := .elsewhere rfl rfl rfl
    exact .quiet (hid.trans (.setConn rfl (.served (hserved hp trivial) trivial)))
  | ungreeted hp =>
    cases ha
    have hid : Quiet s { s with nextEventId := s.nextEventId + 1 } := .elsewhere rfl rfl rfl
    refine .quiet (Quiet.trans (hid.trans ?_) (.teardown _ c))
    exact .setConn rfl .same
  | read hp hc hreads =>
    cases ha
    exact .quiet (quiet_read (hserved hp trivial) hreads.served_or_ended)
  | @hungUp d codec message now random hp =>
    cases ha
    have hlogged : Quiet s (s.logged c message) := .setConn rfl .same
    exact .quiet (hlogged.trans (.teardown _ c))
  | queued hp =>
    cases ha
    exact .quiet (.setConn rfl (.served (held_served hp) trivial))
  | unqueued hp =>
    cases ha
    exact .quiet (.setPhase s c (.served (hserved hp trivial) trivial))
  | unponged =>
    cases ha
    exact .quiet (.teardown s c)
  | @acquired d t body hp =>
    cases ha
    have htask : Quiet s (s.setTask t ⟨c, body, .spawned⟩) := .elsewhere rfl rfl rfl
    exact .quiet (htask.trans (.setConn rfl (.served (hserved hp trivial) trivial)))
  | graceOver =>
    cases ha
    exact .quiet (.setConn rfl (.aside trivial))
  | aside haside =>
    subst ha
    exact haside.elim
  | _ => cases ha

theorem step_quiet_or_conn (h : Sound setup .any s) {a : Action W}
    (hs : step setup a s = some s') : ∃ c, ConnStep setup s c s' := by
  have hm := move_of_step hs
  cases a with
  | conn c op => exact ⟨c, connStep_of_move h hm⟩
  | _ => exact ⟨"", .quiet (quiet_of_move hm (by simp))⟩

theorem sound_run_invariant {I : State → Prop}
    (hstep : ∀ a s s', Sound setup .any s → I s → step setup a s = some s' → I s')
    (hinit : I (State.init setup)) {actions : List (Action W)}
    (h : Machine.run (step setup) actions (State.init setup) = some s) : I s := by
  have hboth : Sound setup .any s ∧ I s := by
    refine Machine.run_invariant (I := fun s => Sound setup .any s ∧ I s) ?_ h ⟨sound_init, hinit⟩
    rintro a s s' ⟨hsound, hs⟩ hs'
    exact ⟨hsound.step ownItems_any (fun _ _ _ _ _ _ => trivial) (fun _ _ _ _ _ => trivial) hs',
      hstep a s s' hsound hs hs'⟩
  exact hboth.2

end Steps

/-! ### Served connections are in the table -/

def Listed (s : State) : Prop := ∀ c, (s.conns c).phase.Served → (s.clients c).isSome

section Listed

variable {W : Type} {setup : Setup W} {s s' : State} {c : String}

theorem listed_init : Listed (State.init setup) := fun _ h => h.elim

theorem Listed.setConn (h : Listed s) {conn : Conn} (hconn : conn.phase.Served → (s.clients c).isSome) :
    Listed (s.setConn c conn) := by
  intro d hd
  by_cases hdc : d = c
  · subst hdc
    rw [State.setConn_self] at hd
    exact hconn hd
  · rw [State.setConn_of_ne s hdc] at hd
    exact h d hd

theorem Listed.quiet (h : Listed s) (hq : Quiet s s') : Listed s' := by
  intro d hd
  obtain ⟨hserved, hclients⟩ := hq.served d hd
  rw [hclients]
  exact h d hserved

theorem Listed.enter (h : Listed s) (w : W) (output : Option AuthOutput) :
    Listed (Wscall.Server.enter setup s c w output) := by
  intro d hd
  by_cases hdc : d = c
  · subst hdc
    simp [Wscall.Server.enter]
  · simp only [Wscall.Server.enter, State.setConn_of_ne s hdc, Function.update_of_ne hdc] at hd ⊢
    exact h d hd

theorem Listed.step (h : Listed s) (hsound : Sound setup .any s) {a : Action W}
    (hs : step setup a s = some s') : Listed s' := by
  obtain ⟨c, hstep⟩ := step_quiet_or_conn hsound hs
  cases hstep with
  | quiet hq => exact h.quiet hq
  | asked _ _ _ _ hout => exact h.setConn fun hd => absurd hd hout
  | entered hq _ => exact (h.quiet hq).enter _ _

theorem listed_run {actions : List (Action W)}
    (h : Machine.run (Wscall.Server.step setup) actions (State.init setup) = some s) : Listed s :=
  sound_run_invariant (fun _ _ _ hsound hs hstep => hs.step hsound hstep) listed_init h

end Listed

end Wscall.Server
