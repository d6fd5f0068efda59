import Wscall.Server.AuthGate

/-!
# The identity callbacks see

A handler task looks the connection's context up in the table when it first runs. The
entry is the right one as long as it is there; after the teardown the task finds nothing.
-/

namespace Wscall.Server
open RustStd Protocol

/-- The auth context a filter, route handler or event handler was given. -/
def Invocation.seen : Invocation → Option (Option Map)
  | .filter ctx => some ctx.authContext
  | .route ctx => some ctx.authContext
  | .event ctx => some ctx.authContext
  | .exception _ => none

namespace WscallServer

variable {W : Type} (server : WscallServer W) (w : W)

/-- The filters hand on the auth context they were given. -/
def KeepsContext : Prop :=
  ∀ filter ∈ server.filters, ∀ ctx next, filter w ctx = .returns (.ok next) →
    next.authContext = ctx.authContext

variable {server w}

theorem mapException_seen {ctx : ExceptionContext} {call : Invocation}
    (h : call ∈ (server.mapException w ctx).calls) : call.seen = none := by
  unfold mapException at h
  split at h
  · simp only [Exec.await_calls, List.mem_singleton] at h
    rw [h]
    rfl
  · cases h

theorem apiErrorPacket_seen {connectionId : String} {requestId : Option UInt64} {route : String}
    {error : ApiError} {call : Invocation}
    (h : call ∈ (server.apiErrorPacket w connectionId requestId route error).calls) :
    call.seen = none := by
  rcases Exec.mem_calls_bind h with h | ⟨_, -, h⟩
  · exact mapException_seen h
  · cases h

theorem runFilters_seen {filters : List (Filter W)}
    (hkeep : ∀ filter ∈ filters, ∀ ctx next, filter w ctx = .returns (.ok next) →
      next.authContext = ctx.authContext) (ctx : ApiContext) :
    (∀ call ∈ (runFilters w filters ctx).calls, call.seen = some ctx.authContext) ∧
      ∀ next, (runFilters w filters ctx).result = some (.ok next) →
        next.authContext = ctx.authContext := by
  induction filters generalizing ctx with
  | nil =>
    refine ⟨fun _ h => (by cases h), fun next h => ?_⟩
    cases h
    rfl
  | cons filter filters ih =>
    have ih := ih (fun f hf => hkeep f (List.mem_cons_of_mem _ hf))
    refine ⟨fun call h => ?_, fun next h => ?_⟩
    · rcases Exec.mem_calls_bind h with h | ⟨result, hres, h⟩
      · simp only [Exec.await_calls, List.mem_singleton] at h
        rw [h]
        rfl
      · cases result with
        | error e => cases h
        | ok mid =>
          have hmid := hkeep filter (List.mem_cons_self ..) ctx mid (Exec.await_result_eq_some.mp hres)
          rw [(ih mid).1 call h, hmid]
    · simp only [runFilters, Exec.bind_result, Option.bind_eq_some_iff] at h
      obtain ⟨result, hres, h⟩ := h
      cases result with
      | error e => cases h
      | ok mid =>
        have hmid := hkeep filter (List.mem_cons_self ..) ctx mid (Exec.await_result_eq_some.mp hres)
        rw [(ih mid).2 next h, hmid]

theorem callRoute_seen {connectionId : String} {r : ApiRequestInput} {ctx : ApiContext}
    {call : Invocation} (h : call ∈ (server.callRoute w connectionId r ctx).calls)
    {seen : Option Map} (hs : call.seen = some seen) : seen = ctx.authContext := by
  unfold callRoute at h
  dsimp only at h
  split at h
  · simp [apiErrorPacket_seen h] at hs
  · rcases Exec.mem_calls_bind h with h | ⟨result, -, h⟩
    · simp only [Exec.catchUnwind_calls, List.mem_singleton] at h
      rw [h] at hs
      exact (Option.some.inj hs).symm
    · rcases result with _ | _ | _
      · simp [apiErrorPacket_seen h] at hs
      · simp [apiErrorPacket_seen h] at hs
      · cases h

theorem runApiRequest_seen (hkeep : server.KeepsContext w) {connectionId : String}
    {peerAddr : Option SocketAddr} {authContext : Option Map} {r : ApiRequestInput} {call : Invocation}
    (h : call ∈ (server.runApiRequest w connectionId peerAddr authContext r).calls)
    {seen : Option Map} (hs : call.seen = some seen) : seen = authContext := by
  have hfilters := runFilters_seen hkeep (server.apiContext connectionId peerAddr authContext r)
  rcases Exec.mem_calls_bind h with h | ⟨result, hres, h⟩
  · rw [hfilters.1 call h] at hs
    exact (Option.some.inj hs).symm
  · cases result with
    | error e => simp [apiErrorPacket_seen h] at hs
    | ok ctx => exact (callRoute_seen h hs).trans (hfilters.2 ctx hres)

theorem runEvent_seen {connectionId : String} {peerAddr : Option SocketAddr}
    {authContext : Option Map} {e : EventEmitInput} {call : Invocation}
    (h : call ∈ (server.runEvent w connectionId peerAddr authContext e).calls)
    {seen : Option Map} (hs : call.seen = some seen) : seen = authContext := by
  have hfailed : ∀ {ctx : ExceptionContext} {k : ErrorPayload → PacketEnvelope},
      call ∉ (do let payload ← server.mapException w ctx; return k payload : Exec Invocation _).calls := by
    intro ctx k hmem
    rcases Exec.mem_calls_bind hmem with h | ⟨_, -, h⟩
    · simp [mapException_seen h] at hs
    · cases h
  unfold runEvent at h
  dsimp only at h
  split at h
  · cases h
  · rcases Exec.mem_calls_bind h with h | ⟨result, -, h⟩
    · simp only [Exec.catchUnwind_calls, List.mem_singleton] at h
      rw [h] at hs
      exact (Option.some.inj hs).symm
    · rcases result with _ | _ | _
      · exact absurd h hfailed
      · exact absurd h hfailed
      · cases h

/-- Every callback of a task sees the context the task found. -/
theorem processPacket_seen (hkeep : server.KeepsContext w) {connectionId : String}
    {peerAddr : Option SocketAddr} {authContext : Option Map} {body : PacketBody} {call : Invocation}
    (h : call ∈ (server.processPacket w connectionId peerAddr authContext body).calls)
    {seen : Option Map} (hs : call.seen = some seen) : seen = authContext := by
  unfold processPacket at h
  split at h
  · rcases Exec.mem_calls_bind h with h | ⟨_, -, h⟩
    · exact runApiRequest_seen hkeep h hs
    · cases h
  · rcases Exec.mem_calls_bind h with h | ⟨_, -, h⟩
    · exact runEvent_seen h hs
    · cases h
  · cases h

end WscallServer

section Runs

variable {W : Type} {setup : Setup W}

/-- Callbacks see what belongs to their own connection. -/
def Policy.identity : Policy where
  item _ := True
  call conn inv := ∀ seen, inv.seen = some seen → ContextOf conn seen
  stable heq h seen hs := (h seen hs).mono heq

/-- A task that starts finds its connection in the table, and the filters it runs hand on
the auth context. -/
def Timely (setup : Setup W) (s : State) : Action W → Prop
  | .task t (.run w) =>
    (s.clients (s.tasks t).connectionId).isSome ∧ setup.server.KeepsContext w
  | _ => True

/-- Whenever the auth handler returned a context for a connection, every callback invoked
for a frame of that connection was given it. -/
def SeesIdentity (s : State) : Prop :=
  ∀ c credential output, (credential, .returns (.ok output)) ∈ (s.conns c).authCalls →
    output.context.isEmpty = false →
      ∀ call ∈ s.calls, call.1 = c → ∀ seen, call.2.seen = some seen → seen = some output.context

theorem execTask_identity {s : State} (h : Sound setup .identity s) {t : ℕ} {w : W}
    (ht : Timely setup s (.task t (.run w))) :
    ∀ call ∈ (execTask setup s (s.tasks t) w).calls,
      Policy.identity.call (s.conns (s.tasks t).connectionId) call := by
  intro call hcall seen hs
  obtain ⟨entry, hentry⟩ := Option.isSome_iff_exists.mp ht.1
  have hseen := WscallServer.processPacket_seen ht.2 hcall hs
  rw [lookupAuthContext, hentry] at hseen
  rw [hseen]
  exact h.contexts _ entry hentry

theorem Sound.step_identity {s s' : State} {a : Action W} (h : Sound setup .identity s)
    (ht : Timely setup s a) (hs : Wscall.Server.step setup a s = some s') : Sound setup .identity s' := by
  refine h.step ⟨fun _ _ _ _ => trivial, fun _ => trivial, trivial⟩ (fun _ _ _ _ _ _ => trivial)
    (fun t w ha => ?_) hs
  subst ha
  exact execTask_identity h ht

theorem Sound.seesIdentity {s : State} (h : Sound setup .identity s) : SeesIdentity s := by
  rintro c credential output hauth hctx call hcall rfl seen hs
  rw [(h.calls call hcall).2 seen hs credential output hauth, storedContext, Option.bind_some,
    if_neg (by simp [hctx])]

/-- The callbacks of tasks that start before the teardown see their connection's identity. -/
theorem seesIdentity_of_timely {actions : List (Action W)} {s : State}
    (htimely : Machine.Along (step setup) (Timely setup) actions (State.init setup))
    (h : Machine.run (step setup) actions (State.init setup) = some s) : SeesIdentity s :=
  (Machine.run_invariant_along (fun _ _ _ ht hs hstep => hs.step_identity ht hstep) htimely h
    sound_init).seesIdentity

end Runs

/-! ### A request followed by a close -/

def echoFrame : Bytes :=
  FrameCodec.frame .api
    (FrameCodec.composite (asBytes "\x7b\"k\":0,\"i\":7,\"r\":\"echo\",\"p\":null\x7d") [])

def requestRun : List (Action Unit) :=
  loginRun ++ [.conn "c" (.received (some (.binary echoFrame)) 0 (.error "unused")),
    .conn "c" (.acquired 0)]

/-- The route handler was called once, with a context or without, for a connection that
was accepted with one. -/
def echoCalled (withContext : Bool) (s : State) : Bool :=
  match s.calls, (s.conns "c").authCalls with
  | [(c, .route ctx)], [(_, .returns (.ok output))] =>
    c == "c" && ctx.authContext.isSome == withContext && !output.context.isEmpty
  | _, _ => false

theorem seesIdentity_of_timely_echo :
    ∃ s, Machine.run (step loginSetup) (requestRun ++ [.task 0 (.run ())]) (State.init loginSetup) =
      some s ∧ echoCalled true s ∧ SeesIdentity s := by
  have hrun : (Machine.run (step loginSetup) (requestRun ++ [.task 0 (.run ())])
      (State.init loginSetup)).any (echoCalled true) = true := by decide +kernel
  have hlive : (Machine.run (step loginSetup) requestRun (State.init loginSetup)).all
      (fun s => (s.clients (s.tasks 0).connectionId).isSome) = true := by decide +kernel
  have htimely : Machine.Along (step loginSetup) (Timely loginSetup)
      (requestRun ++ [.task 0 (.run ())]) (State.init loginSetup) := by
    refine (Machine.along_of_forall (fun a ha s => ?_) _).append (fun s hs => ?_)
    · simp only [requestRun, loginRun, List.cons_append, List.nil_append, List.mem_cons,
        List.not_mem_nil, or_false] at ha
      rcases ha with rfl | rfl | rfl | rfl | rfl | rfl | rfl | rfl <;> trivial
    · rw [hs] at hlive
      exact Machine.along_singleton ⟨hlive, fun filter hf => by cases hf⟩
  obtain ⟨s, hs, hcalled⟩ := (Option.any_eq_true ..).mp hrun
  exact ⟨s, hs, hcalled, seesIdentity_of_timely htimely hs⟩

theorem lateTask_without_identity :
    ∃ s, Machine.run (step loginSetup)
        (requestRun ++ [.conn "c" (.received (some .close) 0 (.error "unused")), .task 0 (.run ())])
        (State.init loginSetup) = some s ∧ ¬ SeesIdentity s := by
  have hrun : (Machine.run (step loginSetup)
      (requestRun ++ [.conn "c" (.received (some .close) 0 (.error "unused")), .task 0 (.run ())])
      (State.init loginSetup)).any (echoCalled false) = true := by decide +kernel
  obtain ⟨s, hs, hcalled⟩ := (Option.any_eq_true ..).mp hrun
  refine ⟨s, hs, fun h => ?_⟩
  unfold echoCalled at hcalled
  split at hcalled
  · rename_i c ctx credential output hcalls hauth
    simp only [Bool.and_eq_true, beq_iff_eq, Bool.not_eq_true'] at hcalled
    obtain ⟨⟨rfl, hnone⟩, hctx⟩ := hcalled
    have hseen := h "c" credential output (by simp [hauth]) hctx ("c", .route ctx)
      (by simp [hcalls]) rfl ctx.authContext rfl
    simp [hseen] at hnone
  · cases hcalled

end Wscall.Server
