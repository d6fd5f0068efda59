import Wscall.Lib.Semaphore
import Wscall.Server.Table
import Wscall.Server.Announced

/-!
# The accept loop and the end of a connection (`server_runtime.rs:573-621`, `984-993`, `1380-1420`)

`Runtime` takes over where a connection's task starts and lets go of it where the writer has been
aborted. Around it stand the loop of `listen`, which takes a permit before it accepts, and the
`on_disconnected` handlers, which the task still runs before its permit goes back.
-/

namespace Wscall.Server
open RustStd Protocol

structure ServerDisconnectContext where
  connectionId : String
  peerAddr : Option SocketAddr
  reason : String
  server : ServerHandle

abbrev DisconnectHandler (W : Type) := W → ServerDisconnectContext → Callback Unit

/-- The errors that end a reader loop. -/
inductive ServerError where
  | webSocket (source : String)
  | protocol (e : ProtocolError)
  | api (e : ApiError)
  | idleTimeout (connectionId : String)

/-- How the stream ends, where it yields no message. -/
inductive StreamEnd where
  | timeout
  | finished
  | failed (source : String)

structure Listening (W : Type) where
  setup : Setup W
  disconnectHandlers : List (DisconnectHandler W)
  maxConnections : Option ℕ
  /-- The texts of the errors. -/
  display : ServerError → String

inductive AcceptPc where
  | acquiring
  | accepting
  | returned

inductive ServePc where
  | absent
  | spawned (peer : SocketAddr)
  | running
  /-- `notify_disconnected`. -/
  | parting
  | done

structure Site where
  state : State
  acceptPc : AcceptPc
  /-- The free permits, where connections are capped. -/
  permits : Option ℕ
  pc : String → ServePc
  /-- What the reader loop ended with. -/
  result : String → Option (Except ServerError Unit)
  /-- Calls of `on_disconnected` handlers, with the place of the handler. -/
  disconnected : List (ℕ × ServerDisconnectContext)

def disconnectReason (display : ServerError → String) : Except ServerError Unit → String
  | .ok () => "connection closed"
  | .error (.idleTimeout _) => "idle timeout"
  | .error e => display e

def notifyDisconnected {W : Type} (w : W) (ctx : ServerDisconnectContext)
    (handlers : List (DisconnectHandler W)) : Exec (ℕ × ServerDisconnectContext) Unit :=
  notifyFrom w ctx 0 handlers

section Site

variable {W : Type}

/-- The error of `send_event_to` for the greeting. -/
def greetError (setup : Setup W) (s : State) (c : String) (random : Except String Nonce) :
    Option ApiError :=
  match s.clients c with
  | none => some (.notFound "target connection not found")
  | some _ =>
    match setup.server.handle.outbound setup.libs random
        (setup.server.handle.eventPacket (s.nextEventId + 1) (systemNotice c)) with
    | .error _ => some (.internal "failed to encode direct event")
    | .ok item =>
      match (s.conns c).channel.trySend item with
      | none => some (.internal "failed to queue direct event")
      | some _ => none

/-- What the reader loop ends with at a step, if it ends there. -/
def loopResult (setup : Setup W) (s : State) (c : String) (ending : StreamEnd) :
    ConnOp W → Phase → Option (Except ServerError Unit)
  | .notified random, .notifying => (greetError setup s c random).map fun e => .error (.api e)
  | .received none _ _, .reading =>
    match ending with
    | .timeout => some (.error (.idleTimeout c))
    | .finished => some (.ok ())
    | .failed source => some (.error (.webSocket source))
  | .received (some .close) _ _, .reading => some (.ok ())
  | .received (some (.binary bytes)) _ _, .reading =>
    match fastReject setup.server.maxFrameBytes bytes, (s.conns c).codec with
    | none, some codec =>
      match codec.decode setup.libs bytes with
      | .error (.err e) => some (.error (.protocol e))
      | _ => none
    | _, _ => none
  | .queued, .ponging _ => if (s.conns c).channel.alive then none else some (.ok ())
  | _, _ => none

def Site.init (L : Listening W) : Site where
  state := State.init L.setup
  acceptPc := .acquiring
  permits := L.maxConnections
  pc _ := .absent
  result _ := none
  disconnected := []

def Site.setPc (σ : Site) (c : String) (pc : ServePc) : Site :=
  { σ with pc := Function.update σ.pc c pc }

/-- The task is over and drops its permit. -/
def Site.finish (σ : Site) (c : String) : Site :=
  { σ.setPc c .done with permits := σ.permits.map (· + 1) }

variable (L : Listening W)

/-- What the `on_disconnected` handlers see. -/
def farewell (c : String) (peer : SocketAddr) (result : Except ServerError Unit) :
    ServerDisconnectContext :=
  ⟨c, some peer, disconnectReason L.display result, L.setup.server.handle⟩

/-- After `writer.abort()`. A handler that panics in the call takes the task down. -/
def Site.part (σ : Site) (c : String) (w : W) (result : Except ServerError Unit) : Site :=
  let run := notifyDisconnected w (farewell L c (σ.state.conns c).peer result) L.disconnectHandlers
  let told := { σ with disconnected := σ.disconnected ++ run.calls }
  if run.result.isSome then told.setPc c .parting else told.finish c

/-- A step of `serve_connection`. -/
def Site.serve (σ : Site) (c : String) (op : ConnOp W) (ending : StreamEnd) (w : W) : Option Site :=
  let phase := (σ.state.conns c).phase
  (stepConn L.setup σ.state c op phase).map fun s =>
    let result := (loopResult L.setup σ.state c ending op phase).or (σ.result c)
    let served := { σ with state := s, result := Function.update σ.result c result }
    match (s.conns c).phase, result with
    | .ended, some result => served.part L c w result
    | .ended, none => served.finish c
    | _, _ => served.setPc c .running

inductive SiteAction (W : Type) where
  | acquire
  | accepted (c : String) (peer : SocketAddr)
  | acceptFailed
  | start (c : String) (now : ℕ) (w : W)
  | serve (c : String) (op : ConnOp W) (ending : StreamEnd) (w : W)
  | other (a : Action W)
  | parted (c : String)

/-- A connection's own steps are not for others. -/
def stepOther (σ : Site) : Action W → Option Site
  | .conn _ _ => none
  | a => (step L.setup a σ.state).map fun s => { σ with state := s }

def siteStep : SiteAction W → Site → Option Site
  | .acquire, σ =>
    match σ.acceptPc, σ.permits with
    | .acquiring, none => some { σ with acceptPc := .accepting }
    | .acquiring, some (n + 1) => some { σ with acceptPc := .accepting, permits := some n }
    | _, _ => none
  | .accepted c peer, σ =>
    match σ.acceptPc, σ.pc c with
    | .accepting, .absent => some { σ.setPc c (.spawned peer) with acceptPc := .acquiring }
    | _, _ => none
  -- `listen` returns and drops the permit it holds
  | .acceptFailed, σ =>
    match σ.acceptPc with
    | .accepting => some { σ with acceptPc := .returned, permits := σ.permits.map (· + 1) }
    | _ => none
  | .start c now w, σ =>
    match σ.pc c with
    | .spawned peer => σ.serve L c (.accept peer now) .finished w
    | _ => none
  | .serve c op ending w, σ =>
    match σ.pc c with
    | .running => σ.serve L c op ending w
    | _ => none
  | .other a, σ => stepOther L σ a
  | .parted c, σ =>
    match σ.pc c with
    | .parting => some (σ.finish c)
    | _ => none

end Site

/-! ### The cap -/

def ServePc.Live : ServePc → Prop
  | .spawned _ | .running | .parting => True
  | _ => False

/-- The connections whose task is there. -/
def Site.live (σ : Site) : Set String := {c | (σ.pc c).Live}

/-- The permit the accept loop holds. -/
def AcceptPc.holds : AcceptPc → ℕ
  | .accepting => 1
  | _ => 0

/-- Every permit is free, held by the loop, or owned by the task of a connection. -/
def Capped (max : ℕ) (σ : Site) : Prop :=
  ∃ free used, σ.permits = some free ∧ Owned σ.live used ∧ free + σ.acceptPc.holds + used = max

section Cap

variable {W : Type} {L : Listening W} {σ σ' : Site} {c : String} {max : ℕ}

theorem live_setPc {pc : ServePc} (h : (σ.pc c).Live ↔ pc.Live) : (σ.setPc c pc).live = σ.live := by
  ext d
  by_cases hdc : d = c
  · subst hdc
    simp [Site.live, Site.setPc, h]
  · simp [Site.live, Site.setPc, hdc]

theorem live_spawn (peer : SocketAddr) : (σ.setPc c (.spawned peer)).live = insert c σ.live := by
  ext d
  by_cases hdc : d = c
  · subst hdc
    simp [Site.live, Site.setPc, ServePc.Live]
  · simp [Site.live, Site.setPc, hdc]

theorem live_finish : (σ.finish c).live = σ.live \ {c} := by
  ext d
  by_cases hdc : d = c
  · subst hdc
    simp [Site.live, Site.finish, Site.setPc, ServePc.Live]
  · simp [Site.live, Site.finish, Site.setPc, hdc]

theorem Capped.congr (h : Capped max σ) (hpermits : σ'.permits = σ.permits)
    (haccept : σ'.acceptPc = σ.acceptPc) (hlive : σ'.live = σ.live) : Capped max σ' := by
  obtain ⟨free, used, hfree, howned, hsum⟩ := h
  exact ⟨free, used, hpermits.trans hfree, hlive ▸ howned, by rw [haccept, hsum]⟩

theorem Capped.finish (h : Capped max σ) (hlive : (σ.pc c).Live) : Capped max (σ.finish c) := by
  obtain ⟨free, used, hfree, howned, hsum⟩ := h
  obtain ⟨hpos, hrest⟩ := howned.release (x := c) hlive
  refine ⟨free + 1, used - 1, ?_, ?_, ?_⟩
  · simp [Site.finish, hfree]
  · rw [live_finish]
    exact hrest
  · simp only [Site.finish, Site.setPc]
    omega

theorem Capped.part (h : Capped max σ) (hlive : (σ.pc c).Live) (w : W)
    (result : Except ServerError Unit) : Capped max (σ.part L c w result) := by
  unfold Site.part
  dsimp only
  split
  · exact h.congr rfl rfl (live_setPc (iff_of_true hlive trivial))
  · apply Capped.finish
    · exact h.congr rfl rfl rfl
    · exact hlive

theorem Capped.serve (h : Capped max σ) (hlive : (σ.pc c).Live) {op : ConnOp W} {ending : StreamEnd}
    {w : W} (hs : σ.serve L c op ending w = some σ') : Capped max σ' := by
  obtain ⟨s, -, rfl⟩ := Option.map_eq_some_iff.mp hs
  dsimp only
  split
  · apply Capped.part
    · exact h.congr rfl rfl rfl
    · exact hlive
  · apply Capped.finish
    · exact h.congr rfl rfl rfl
    · exact hlive
  · exact h.congr rfl rfl (live_setPc (iff_of_true hlive trivial))

theorem Capped.step (h : Capped max σ) {a : SiteAction W} (hs : siteStep L a σ = some σ') :
    Capped max σ' := by
  unfold siteStep at hs
  split at hs
  · -- the loop takes a permit
    obtain ⟨free, used, hfree, howned, hsum⟩ := h
    split at hs
    · rename_i hnone
      rw [hnone] at hfree
      cases hfree
    · rename_i n hpc hsome
      cases hs
      rw [hsome] at hfree
      cases hfree
      rw [hpc] at hsum
      refine ⟨n, used, rfl, howned, ?_⟩
      simp only [AcceptPc.holds] at hsum ⊢
      omega
    · cases hs
  · -- and hands it to the task it spawns
    obtain ⟨free, used, hfree, howned, hsum⟩ := h
    rename_i c peer
    split at hs
    · rename_i hpc habsent
      cases hs
      rw [hpc] at hsum
      have hfresh : c ∉ σ.live := by
        intro hmem
        rw [Site.live, Set.mem_ofPred_eq, habsent] at hmem
        exact hmem
      refine ⟨free, used + 1, hfree, ?_, ?_⟩
      · change Owned (σ.setPc c (.spawned peer)).live _
        rw [live_spawn]
        exact howned.acquire hfresh
      · simp only [AcceptPc.holds] at hsum ⊢
        omega
    · cases hs
  · obtain ⟨free, used, hfree, howned, hsum⟩ := h
    split at hs
    · rename_i hpc
      cases hs
      rw [hpc] at hsum
      refine ⟨free + 1, used, by simp [hfree], howned, ?_⟩
      simp only [AcceptPc.holds] at hsum ⊢
      omega
    · cases hs
  · split at hs
    · rename_i hpc
      exact h.serve (hpc ▸ trivial) hs
    · cases hs
  · split at hs
    · rename_i hpc
      exact h.serve (hpc ▸ trivial) hs
    · cases hs
  · unfold stepOther at hs
    split at hs
    · cases hs
    · obtain ⟨s, -, rfl⟩ := Option.map_eq_some_iff.mp hs
      exact h.congr rfl rfl rfl
  · split at hs
    · rename_i hpc
      cases hs
      exact h.finish (hpc ▸ trivial)
    · cases hs

/-- The tasks of connections, the permit the accept loop holds and the free ones are as many as
`max_connections`, so at most that many connections are served at a time and no permit is lost. -/
theorem connections_capped (L : Listening W) {max : ℕ} (hmax : L.maxConnections = some max)
    {actions : List (SiteAction W)} {σ : Site}
    (h : Machine.run (siteStep L) actions (Site.init L) = some σ) :
    ∃ free used : ℕ, σ.permits = some free ∧ σ.live.encard = used ∧
      free + σ.acceptPc.holds + used = max := by
  have hinit : Capped max (Site.init L) := by
    have hnone : (Site.init L).live = ∅ := Set.eq_empty_of_forall_notMem fun c hc => hc
    exact ⟨max, 0, hmax, hnone ▸ .empty, rfl⟩
  exact Machine.run_invariant (I := Capped max) (fun _ _ _ hs hstep => hs.step hstep) h hinit

end Cap

/-- Two connections at most, one handler for each end of them. -/
def cappedListening : Listening Unit where
  setup := listeningSetup userContext
  disconnectHandlers := [fun _ _ => .returns ()]
  maxConnections := some 2
  display _ := ""

/-- From the accept to the idle timeout. -/
def timeoutRun : List (SiteAction Unit) :=
  [.acquire, .accepted "c" ⟨.v4 1, 1⟩, .start "c" 0 (),
    .serve "c" (.upgraded true (.error "unused") ()) .finished (),
    .serve "c" (.received (some (.binary loginFrame)) 0 (.error "unused")) .finished (),
    .serve "c" (.authReturned () (.error "unused")) .finished (),
    .serve "c" (.sent true ()) .finished (), .serve "c" (.notified (.error "unused")) .finished (),
    .serve "c" (.received none 0 (.error "unused")) .timeout (), .serve "c" .graceOver .finished ()]

theorem connections_capped_timeout :
    ∃ σ, Machine.run (siteStep cappedListening) timeoutRun (Site.init cappedListening) = some σ ∧
      ∃ free used : ℕ, σ.permits = some free ∧ σ.live.encard = used ∧
        free + σ.acceptPc.holds + used = 2 := by
  have hrun : (Machine.run (siteStep cappedListening) timeoutRun (Site.init cappedListening)).isSome =
      true := by decide +kernel
  obtain ⟨σ, hσ⟩ := Option.isSome_iff_exists.mp hrun
  exact ⟨σ, hσ, connections_capped cappedListening rfl hσ⟩

end Wscall.Server
