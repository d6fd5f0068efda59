import Wscall.Server.Steps

/-!
# What `on_connected` is told (`server_runtime.rs:665-739`, `1353-1378`)

The flag is not set where the auth handler returns: it is derived from the context that was
stored, and an empty context is not stored.
-/

namespace Wscall.Server
open RustStd Protocol

section Flag

variable {W : Type} (setup : Setup W)

/-- What the auth handler returned for a connection that was let in. -/
def Returned (conn : Conn) : Option AuthOutput → Prop
  | none => setup.server.authHandler = none
  | some output => setup.server.authHandler.isSome ∧
      ∃ credential, conn.authCalls = [(credential, .returns (.ok output))]

structure Announced (s : State) : Prop where
  replying : ∀ c output bytes, (s.conns c).phase = .authReplying (.ok output) bytes →
    Returned setup (s.conns c) (some output)
  connected : ∀ ctx ∈ s.connected, ∃ output, Returned setup (s.conns ctx.connectionId) output ∧
    ctx.authenticated = (storedContext output).isSome

/-- The auth handler is configured and returned `Ok` for the connection. -/
def Accepted (conn : Conn) : Prop :=
  setup.server.authHandler.isSome ∧
    ∃ credential output, (credential, .returns (.ok output)) ∈ conn.authCalls

/-- What the auth handler accepted the connection with was not an empty context. -/
def ContextGiven (conn : Conn) : Prop :=
  ∀ credential output, (credential, .returns (.ok output)) ∈ conn.authCalls →
    output.context.isEmpty = false

variable {setup} {s s' : State}

theorem announced_init : Announced setup (State.init setup) where
  replying _ _ _ h := by cases h
  connected _ h := by cases h

theorem Returned.congr {old new : Conn} {output : Option AuthOutput} (h : Returned setup old output)
    (heq : new.authCalls = old.authCalls) : Returned setup new output := by
  cases output with
  | none => exact h
  | some output => simpa only [Returned, heq] using h

theorem Announced.quiet (h : Announced setup s) (hq : Quiet s s') : Announced setup s' where
  replying c output bytes hp :=
    (h.replying c output bytes (hq.replying c _ bytes hp)).congr (hq.authCalls c)
  connected := by
    rw [hq.connected]
    intro ctx hctx
    obtain ⟨output, hret, hflag⟩ := h.connected ctx hctx
    exact ⟨output, hret.congr (hq.authCalls _), hflag⟩

theorem Announced.asked (h : Announced setup s) (hsound : Sound setup .any s) {c : String}
    {credential : String} {outcome : Callback (Except ApiError AuthOutput)} {conn : Conn}
    (hphase : (s.conns c).phase = .authHandling credential)
    (hauth : setup.server.authHandler.isSome)
    (hcalls : conn.authCalls = (s.conns c).authCalls ++ [(credential, outcome)])
    (hreply : ∀ result bytes, conn.phase = .authReplying result bytes → outcome = .returns result) :
    Announced setup (s.setConn c conn) := by
  have hnil := (hsound.conns c).unasked (by rw [hphase]; trivial)
  refine ⟨fun d output bytes hp => ?_, fun ctx hctx => ?_⟩
  · by_cases hdc : d = c
    · subst hdc
      rw [State.setConn_self] at hp ⊢
      exact ⟨hauth, credential, by rw [hcalls, hnil, hreply _ _ hp, List.nil_append]⟩
    · rw [State.setConn_of_ne s hdc] at hp ⊢
      exact h.replying d output bytes hp
  · obtain ⟨output, hret, hflag⟩ := h.connected ctx hctx
    -- an announced connection has been asked before
    have hne : ctx.connectionId ≠ c := by
      intro he
      obtain ⟨_, _, -, hmem⟩ := hsound.connected ctx hctx hauth
      rw [he, hnil] at hmem
      cases hmem
    exact ⟨output, by rwa [State.setConn_of_ne s hne], hflag⟩

theorem Announced.enter (h : Announced setup s) {c : String} (w : W) {output : Option AuthOutput}
    (hret : Returned setup (s.conns c) output) :
    Announced setup (Wscall.Server.enter setup s c w output) := by
  have hcalls : ∀ d, ((Wscall.Server.enter setup s c w output).conns d).authCalls =
      (s.conns d).authCalls := by
    intro d
    by_cases hdc : d = c
    · subst hdc
      simp only [Wscall.Server.enter, State.setConn_self]
    · simp only [Wscall.Server.enter, State.setConn_of_ne s hdc]
  refine ⟨fun d output' bytes hp => ?_, fun ctx hctx => ?_⟩
  · by_cases hdc : d = c
    · subst hdc
      simp only [Wscall.Server.enter, State.setConn_self] at hp
      split at hp <;> cases hp
    · simp only [Wscall.Server.enter, State.setConn_of_ne s hdc] at hp ⊢
      exact h.replying d output' bytes hp
  · rcases List.mem_append.mp hctx with hctx | hctx
    · obtain ⟨output', hret', hflag⟩ := h.connected ctx hctx
      exact ⟨output', hret'.congr (hcalls _), hflag⟩
    · rw [mem_notifyConnected hctx]
      exact ⟨output, hret.congr (hcalls c), rfl⟩

theorem Announced.step (h : Announced setup s) (hsound : Sound setup .any s) {a : Action W}
    (hs : step setup a s = some s') : Announced setup s' := by
  obtain ⟨c, hstep⟩ := step_quiet_or_conn hsound hs
  cases hstep with
  | quiet hq => exact h.quiet hq
  | asked hphase hauth hcalls hreply _ => exact h.asked hsound hphase hauth hcalls hreply
  | @entered s₁ w output hq hstands =>
    refine (h.quiet hq).enter w ?_
    cases output with
    | none => exact hstands.1
    | some output =>
      obtain ⟨bytes, hp⟩ := hstands
      exact (h.replying c output bytes hp).congr (hq.authCalls c)

theorem announced_run {actions : List (Action W)}
    (h : Machine.run (Wscall.Server.step setup) actions (State.init setup) = some s) :
    Announced setup s :=
  sound_run_invariant (fun _ _ _ hsound hs hstep => hs.step hsound hstep) announced_init h

theorem storedContext_isSome (output : AuthOutput) :
    (storedContext (some output)).isSome = true ↔ output.context.isEmpty = false := by
  cases h : output.context.isEmpty <;> simp [storedContext, h]

/-- What an `on_connected` handler is told about the connection is true exactly when the
connection was not accepted with an empty context. -/
theorem authenticated_flag_iff (setup : Setup W) {actions : List (Action W)} {s : State}
    (h : Machine.run (step setup) actions (State.init setup) = some s)
    {ctx : ServerConnectionContext} (hctx : ctx ∈ s.connected) :
    (ctx.authenticated = true ↔ Accepted setup (s.conns ctx.connectionId)) ↔
      (setup.server.authHandler.isSome → ContextGiven (s.conns ctx.connectionId)) := by
  obtain ⟨output, hret, hflag⟩ := (announced_run h).connected ctx hctx
  rw [hflag]
  cases output with
  | none =>
    have hnone : setup.server.authHandler = none := hret
    simp [Accepted, storedContext, hnone]
  | some output =>
    obtain ⟨hauth, credential, hcalls⟩ := hret
    simp [Accepted, ContextGiven, storedContext_isSome, hauth, hcalls]

end Flag

/-! ### An announcement with a context and one without -/

/-- Everyone is accepted with the context, and one handler listens for connections. -/
def listeningSetup (context : Map) : Setup Unit :=
  { loginSetup with
    server := { loginServer with
      authHandler := some fun _ _ => .returns (.ok ⟨none, context⟩)
      connectionHandlers := [fun _ _ => .returns ()] } }

/-- One connection was accepted, and announced with the flag. -/
def toldOnce (flag : Bool) (s : State) : Bool :=
  match s.connected, (s.conns "c").authCalls with
  | [ctx], [(_, .returns (.ok output))] =>
    ctx.connectionId == "c" && ctx.authenticated == flag && output.context.isEmpty == !flag
  | _, _ => false

theorem toldOnce_eq_true {flag : Bool} {s : State} (h : toldOnce flag s = true) :
    ∃ ctx credential output, s.connected = [ctx] ∧ ctx.connectionId = "c" ∧ ctx.authenticated = flag ∧
      (s.conns "c").authCalls = [(credential, .returns (.ok output))] ∧
      output.context.isEmpty = !flag := by
  unfold toldOnce at h
  split at h
  · rename_i ctx credential output hconnected hcalls
    simp only [Bool.and_eq_true, beq_iff_eq] at h
    exact ⟨ctx, credential, output, hconnected, h.1.1, h.1.2, hcalls, h.2⟩
  · cases h

theorem authenticated_flag_iff_userContext :
    ∃ s ctx, Machine.run (step (listeningSetup userContext)) (loginRun.take 5)
        (State.init (listeningSetup userContext)) = some s ∧ ctx ∈ s.connected ∧
      (ctx.authenticated = true ↔ Accepted (listeningSetup userContext) (s.conns ctx.connectionId)) := by
  have hrun : (Machine.run (step (listeningSetup userContext)) (loginRun.take 5)
      (State.init (listeningSetup userContext))).any (toldOnce true) = true := by decide +kernel
  obtain ⟨s, hs, htold⟩ := (Option.any_eq_true ..).mp hrun
  obtain ⟨ctx, credential, output, hconnected, hid, -, hcalls, hcontext⟩ := toldOnce_eq_true htold
  have hctx : ctx ∈ s.connected := by simp [hconnected]
  refine ⟨s, ctx, hs, hctx, (authenticated_flag_iff _ hs hctx).mpr fun _ credential' output' hmem => ?_⟩
  rw [hid, hcalls] at hmem
  cases List.mem_singleton.mp hmem
  exact hcontext

theorem emptyContext_not_announced :
    ∃ s ctx, Machine.run (step (listeningSetup .empty)) (loginRun.take 5)
        (State.init (listeningSetup .empty)) = some s ∧ ctx ∈ s.connected ∧
      Accepted (listeningSetup .empty) (s.conns ctx.connectionId) ∧ ctx.authenticated = false := by
  have hrun : (Machine.run (step (listeningSetup .empty)) (loginRun.take 5)
      (State.init (listeningSetup .empty))).any (toldOnce false) = true := by decide +kernel
  obtain ⟨s, hs, htold⟩ := (Option.any_eq_true ..).mp hrun
  obtain ⟨ctx, credential, output, hconnected, hid, hflag, hcalls, -⟩ := toldOnce_eq_true htold
  refine ⟨s, ctx, hs, by simp [hconnected], ⟨rfl, credential, output, ?_⟩, hflag⟩
  rw [hid, hcalls]
  exact List.mem_singleton.mpr rfl

end Wscall.Server
