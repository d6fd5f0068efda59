import Wscall.Server.Answers

/-!
# The filter chain (`server_runtime.rs:475-495`, `1158-1232`)

A filter may return any context, so the route that is looked up is the last context's. The
request id and the route that errors name were taken from the request before the loop.
-/

namespace Wscall.Server
open RustStd Protocol

namespace WscallServer

section Chain

variable {W : Type} (w : W)

/-- The filters on a context: the contexts they are invoked with, and what comes out. -/
inductive Passes : List (Filter W) → ApiContext → List ApiContext → Except ApiError ApiContext → Prop
  | done {ctx} : Passes [] ctx [] (.ok ctx)
  | stop {filter filters ctx e} (h : filter w ctx = .returns (.error e)) :
      Passes (filter :: filters) ctx [ctx] (.error e)
  | next {filter filters ctx ctx' seen result} (h : filter w ctx = .returns (.ok ctx'))
      (rest : Passes filters ctx' seen result) : Passes (filter :: filters) ctx (ctx :: seen) result

def FilterReturns (filter : Filter W) : Prop := ∀ ctx, ∃ result, filter w ctx = .returns result

variable {w} {filters : List (Filter W)} {ctx : ApiContext} {seen : List ApiContext}
  {result : Except ApiError ApiContext}

theorem exists_passes (hret : ∀ f ∈ filters, FilterReturns w f) (ctx : ApiContext) :
    ∃ seen result, Passes w filters ctx seen result := by
  induction filters generalizing ctx with
  | nil => exact ⟨[], .ok ctx, .done⟩
  | cons filter filters ih =>
    obtain ⟨result, hres⟩ := hret filter (List.mem_cons_self ..) ctx
    cases result with
    | error e => exact ⟨[ctx], .error e, .stop hres⟩
    | ok ctx' =>
      obtain ⟨seen, result, hrest⟩ := ih (fun f hf => hret f (List.mem_cons_of_mem _ hf)) ctx'
      exact ⟨ctx :: seen, result, .next hres hrest⟩

theorem Passes.runFilters (h : Passes w filters ctx seen result) :
    WscallServer.runFilters w filters ctx = ⟨seen.map .filter, some result⟩ := by
  induction h with
  | done => rfl
  | stop h =>
    simp only [WscallServer.runFilters, h]
    rfl
  | next h _ ih =>
    simp only [WscallServer.runFilters, h, Exec.await, Exec.bind_of_some, ih]
    rfl

end Chain

/-! ### After the filters -/

section Route

variable {W : Type} (server : WscallServer W) (w : W) (connectionId : String) (r : ApiRequestInput)

/-- Where the chain leads to a route handler, with the context it gets. -/
def routed : Except ApiError ApiContext → List ApiContext
  | .ok ctx => if (server.routes ctx.route).isSome then [ctx] else []
  | .error _ => []

/-- The exception handler was told of these errors of the request. -/
def Reports (calls : List Invocation) : Prop :=
  ∃ errs : List ExceptionContext, calls = errs.map .exception ∧
    ∀ ctx ∈ errs, ctx.requestId = some r.requestId ∧ ctx.target = r.route

theorem apiErrorPacket_calls (e : ApiError) :
    Reports r (server.apiErrorPacket w connectionId (some r.requestId) r.route e).calls := by
  have hcalls : (server.apiErrorPacket w connectionId (some r.requestId) r.route e).calls =
      (server.mapException w ⟨connectionId, some r.requestId, r.route, .api, e⟩).calls :=
    Exec.bind_pure_calls _ _
  rw [hcalls, mapException]
  cases server.exceptionHandler with
  | none => exact ⟨[], rfl, by simp⟩
  | some handler =>
    exact ⟨[⟨connectionId, some r.requestId, r.route, .api, e⟩], by simp, by simp⟩

/-- What `run_api_request` does with the outcome of the chain. -/
def afterFilters : Except ApiError ApiContext → Exec Invocation PacketEnvelope
  | .error e => server.apiErrorPacket w connectionId (some r.requestId) r.route e
  | .ok ctx => server.callRoute w connectionId r ctx

theorem afterFilters_calls (result : Except ApiError ApiContext) :
    ∃ reported, (server.afterFilters w connectionId r result).calls =
      (server.routed result).map .route ++ reported ∧ Reports r reported := by
  have hfailed := server.apiErrorPacket_calls w connectionId r
  have hnone : Reports r [] := ⟨[], rfl, by simp⟩
  cases result with
  | error e => exact ⟨_, rfl, hfailed e⟩
  | ok ctx =>
    cases hroute : server.routes ctx.route with
    | none =>
      simp only [afterFilters, callRoute, routed, hroute]
      exact ⟨_, rfl, hfailed _⟩
    | some handler =>
      simp only [afterFilters, callRoute, routed, hroute]
      cases handler w ctx with
      | callPanics => exact ⟨[], rfl, hnone⟩
      | panics => exact ⟨_, rfl, hfailed _⟩
      | returns outcome =>
        cases outcome with
        | ok data => exact ⟨[], rfl, hnone⟩
        | error e => exact ⟨_, rfl, hfailed e⟩

def ExceptionsReturn : Prop :=
  ∀ handler, server.exceptionHandler = some handler → ∀ ctx, ∃ payload, handler w ctx = .returns payload

theorem exists_mapped (h : server.ExceptionsReturn w) (ctx : ExceptionContext) :
    ∃ payload, server.Mapped w ctx payload := by
  unfold Mapped
  cases hh : server.exceptionHandler with
  | none => exact ⟨_, rfl⟩
  | some handler => exact h handler hh ctx

def HandlerSucceeds (result : Except ApiError ApiContext) : Prop :=
  ∃ ctx handler v, result = .ok ctx ∧ server.routes ctx.route = some handler ∧
    handler w ctx = .returns (.ok v)

/-- An `ApiResponse` to the request, with `ok` only from a route handler that returned `Ok`. -/
def RepliesTo (result : Except ApiError ApiContext) (p : PacketEnvelope) : Prop :=
  ∃ ok status data error metadata,
    p.body = .apiResponse r.requestId ok status data error metadata ∧
      (ok = true → server.HandlerSucceeds w result)

variable {server w connectionId r} {result : Except ApiError ApiContext}

theorem Answers.repliesTo {outcome : Except ApiError Value} {p : PacketEnvelope}
    (h : server.Answers w connectionId r outcome p)
    (hok : ∀ v, outcome = .ok v → server.HandlerSucceeds w result) :
    server.RepliesTo w r result p := by
  cases h with
  | data v => exact ⟨_, _, _, _, _, rfl, fun _ => hok v rfl⟩
  | error hm => exact ⟨_, _, _, _, _, rfl, fun hfalse => by cases hfalse⟩

theorem afterFilters_result {p : PacketEnvelope}
    (h : (server.afterFilters w connectionId r result).result = some p) :
    server.RepliesTo w r result p := by
  cases result with
  | error e =>
    refine ((apiErrorPacket_result server w).mp h).repliesTo fun v hv => ?_
    cases hv
  | ok ctx =>
    obtain ⟨outcome, hsettles, hans⟩ := (callRoute_result server w).mp h
    refine hans.repliesTo fun v hv => ?_
    subst hv
    cases hsettles with
    | handled hroute hcall => exact ⟨ctx, _, v, rfl, hroute, hcall⟩

/-- An answer comes back unless the route handler panics in its call or the exception
handler panics. -/
theorem afterFilters_isSome (hcall : ∀ ctx handler, result = .ok ctx →
      server.routes ctx.route = some handler → handler w ctx ≠ .callPanics)
    (hexc : server.ExceptionsReturn w) :
    (server.afterFilters w connectionId r result).result.isSome := by
  have hanswer : ∀ outcome, ∃ p, server.Answers w connectionId r outcome p := by
    intro outcome
    cases outcome with
    | ok v => exact ⟨_, .data v⟩
    | error e =>
      obtain ⟨payload, hm⟩ := server.exists_mapped w hexc ⟨connectionId, some r.requestId, r.route, .api, e⟩
      exact ⟨_, .error hm⟩
  cases result with
  | error e =>
    obtain ⟨p, hp⟩ := hanswer (.error e)
    exact Option.isSome_iff_exists.mpr ⟨p, (apiErrorPacket_result server w).mpr hp⟩
  | ok ctx =>
    obtain ⟨outcome, hsettles⟩ : ∃ outcome, server.Settles w [] ctx outcome := by
      cases hroute : server.routes ctx.route with
      | none => exact ⟨_, .unrouted hroute⟩
      | some handler =>
        cases hret : handler w ctx with
        | callPanics => exact absurd hret (hcall ctx handler rfl hroute)
        | panics => exact ⟨_, .caught hroute hret⟩
        | returns outcome => exact ⟨outcome, .handled hroute hret⟩
    obtain ⟨p, hp⟩ := hanswer outcome
    exact Option.isSome_iff_exists.mpr ⟨p, (callRoute_result server w).mpr ⟨outcome, hsettles, hp⟩⟩

end Route

/-! ### The whole request -/

section Request

variable {W : Type}

theorem filters_foldl (fs : List (Filter W)) (base : WscallServer W) :
    (fs.foldl filter base).filters = base.filters ++ fs := by
  induction fs generalizing base with
  | nil => simp
  | cons f fs ih => simp [ih, filter]

theorem Passes.runApiRequest {server : WscallServer W} {w : W} {connectionId : String}
    {peerAddr : Option SocketAddr} {authContext : Option Map} {r : ApiRequestInput}
    {seen : List ApiContext} {result : Except ApiError ApiContext}
    (h : Passes w server.filters (server.apiContext connectionId peerAddr authContext r) seen result) :
    server.runApiRequest w connectionId peerAddr authContext r =
      ⟨seen.map .filter ++ (server.afterFilters w connectionId r result).calls,
        (server.afterFilters w connectionId r result).result⟩ := by
  unfold WscallServer.runApiRequest
  rw [h.runFilters, Exec.bind_of_some]
  cases result <;> rfl

/-- The filters run in registration order up to the first that refuses, the route handler
runs when the chain led to one, and whatever comes back answers this request. -/
theorem filter_chain (base : WscallServer W) (fs : List (Filter W)) (w : W)
    (hret : ∀ f ∈ base.filters ++ fs, FilterReturns w f) (connectionId : String)
    (peerAddr : Option SocketAddr) (authContext : Option Map) (r : ApiRequestInput) :
    let server := fs.foldl filter base
    let run := server.runApiRequest w connectionId peerAddr authContext r
    ∃ seen result reported,
      Passes w (base.filters ++ fs) (server.apiContext connectionId peerAddr authContext r) seen result ∧
      run.calls = seen.map .filter ++ ((server.routed result).map .route ++ reported) ∧
      Reports r reported ∧
      (∀ p, run.result = some p → server.RepliesTo w r result p) ∧
      ((∀ ctx handler, result = .ok ctx → server.routes ctx.route = some handler →
        handler w ctx ≠ .callPanics) → server.ExceptionsReturn w → run.result.isSome) := by
  intro server run
  obtain ⟨seen, result, hpass⟩ :=
    exists_passes hret (server.apiContext connectionId peerAddr authContext r)
  have hrun : run = ⟨seen.map .filter ++ (server.afterFilters w connectionId r result).calls,
      (server.afterFilters w connectionId r result).result⟩ := by
    refine Passes.runApiRequest ?_
    rw [filters_foldl]
    exact hpass
  obtain ⟨reported, hcalls, hrep⟩ := server.afterFilters_calls w connectionId r result
  rw [hrun]
  exact ⟨seen, result, reported, hpass, by rw [hcalls], hrep, fun p hp => afterFilters_result hp,
    afterFilters_isSome⟩

end Request

/-! ### A filter that moves a request -/

def toEcho : Filter Unit := fun _ ctx => .returns (.ok { ctx with route := "echo", requestId := 0 })

def echoServer : WscallServer Unit :=
  { WscallServer.new with
    routes := fun route => if route = "echo" then some fun _ ctx => .returns (.ok ctx.params) else none }

def movedRequest : ApiRequestInput := ⟨7, "missing", .null, [], .null⟩

/-- Request 7 is answered as 7, though the filter changed its id. -/
theorem filter_chain_moved :
    ∃ p ok status data error metadata,
      (([toEcho].foldl filter echoServer).runApiRequest () "c" none none movedRequest).result = some p ∧
        p.body = .apiResponse 7 ok status data error metadata := by
  have hret : ∀ f ∈ echoServer.filters ++ [toEcho], FilterReturns () f := by
    intro f hf ctx
    cases List.mem_singleton.mp hf
    exact ⟨_, rfl⟩
  obtain ⟨seen, result, reported, -, -, -, hreply, -⟩ :=
    filter_chain echoServer [toEcho] () hret "c" none none movedRequest
  obtain ⟨ok, status, data, error, metadata, hbody, -⟩ := hreply _ rfl
  exact ⟨_, ok, status, data, error, metadata, rfl, hbody⟩

end WscallServer

end Wscall.Server
