import Wscall.Client.Correlation
import Wscall.Client.Lifecycle

/-!
# Failover (`wscall-client/src/client_runtime.rs:505-616`)

One cycle of `establish_connection` up to the point where the connection is published.
The candidate loop makes the WebSocket connection only; the key exchange and the auth
exchange follow it, on the socket the loop settled on.
-/

namespace Wscall.Client
open RustStd Protocol
open Lifecycle (Config authAccepted)

/-- How the exchanges go on a socket. A keypair or a request that cannot be made counts as
a failed send; a reply is a binary message that arrived in time. -/
structure Peer where
  ecdhSent : Except ClientError Unit
  ecdhReply : Option Bytes
  authSent : Except ClientError Unit
  authReply : Option (Except ProtocolError PacketBody)

/-- What `connect_async` gives for a URL. -/
abbrev Reply := Except String Peer

def exchangeKeys (p : Peer) : Except ClientError Unit := do
  p.ecdhSent
  match p.ecdhReply with
  | some bytes =>
    if bytes.length = 32 then return ()
    else throw (.protocol (.invalidEcdhPublicKey 32 bytes.length))
  | none => throw (.connectionClosed "ECDH handshake failed: no valid server public key")

def authenticate (p : Peer) : Except ClientError Unit := do
  p.authSent
  match p.authReply with
  | none => throw (.connectionClosed "auth handshake failed: no valid server response")
  | some (.error e) => throw (.protocol e)
  | some (.ok (.authResponse true _ _)) => return ()
  | some (.ok (.authResponse false _ (some error))) => throw (.authFailed error)
  | some (.ok (.authResponse false _ none)) =>
    throw (.connectionClosed "authentication rejected by server")
  | some (.ok _) => throw (.connectionClosed "auth handshake failed: unexpected response frame")

def handshake (cfg : Config) (p : Peer) : Except ClientError Unit := do
  if cfg.useEcdh then exchangeKeys p
  if cfg.hasCredential then authenticate p

section Loop

variable {n : ℕ} (reply : Fin n → Reply) (start : Fin n)

/-- `(start + offset) % count`. -/
def urlIdx (start : Fin n) (offset : ℕ) : Fin n :=
  ⟨(start + offset) % n, Nat.mod_lt _ (Nat.zero_lt_of_lt start.isLt)⟩

structure Attempt (n : ℕ) where
  socket : Option (Fin n × Peer)
  lastError : Option ClientError
  tried : List (Fin n)

/-- The candidate loop over the offsets that are left. -/
def connectLoop : List ℕ → Option ClientError → List (Fin n) → Attempt n
  | [], lastError, tried => ⟨none, lastError, tried⟩
  | offset :: offsets, lastError, tried =>
    let idx := urlIdx start offset
    match reply idx with
    | .ok peer => ⟨some (idx, peer), lastError, tried ++ [idx]⟩
    | .error e => connectLoop offsets (some (.webSocket e)) (tried ++ [idx])

structure Cycle (n : ℕ) where
  result : Except ClientError (Fin n)
  lastUrlIdx : Fin n
  tried : List (Fin n)

/-- `last_url_idx` only ever holds an index: it starts at 0 and the loop stores indices. -/
def establishConnection (cfg : Config) : Cycle n :=
  let attempt := connectLoop reply start (List.range n) none []
  match attempt.socket with
  | none =>
    ⟨.error (attempt.lastError.getD (.connectionClosed "all server URLs unreachable")), start,
      attempt.tried⟩
  | some (idx, peer) =>
    -- the index is stored as soon as the WebSocket is open
    ⟨(handshake cfg peer).map fun _ => idx, idx, attempt.tried⟩

end Loop

/-! ### What failover promises -/

section Spec

variable {n : ℕ} (cfg : Config) (reply : Fin n → Reply) (start : Fin n)

def Reachable (i : Fin n) : Prop := ∃ peer, reply i = .ok peer

def FullSuccess (i : Fin n) : Prop := ∃ peer, reply i = .ok peer ∧ handshake cfg peer = .ok ()

/-- The place of a URL in the cyclic order that starts at `start`. -/
def place (start i : Fin n) : ℕ := (i + n - start) % n

/-- The cycle succeeds when some URL does, tries every URL before the one it settles on, and
moves `last_url_idx` to a URL that works only. -/
def FailsOver (c : Cycle n) : Prop :=
  ((∃ i, c.result = .ok i) ↔ ∃ i, FullSuccess cfg reply i) ∧
  (∀ i, c.result = .ok i → ∀ j, place start j < place start i → j ∈ c.tried) ∧
  (c.lastUrlIdx ≠ start → FullSuccess cfg reply c.lastUrlIdx)

/-- The first URL in cyclic order that accepts a WebSocket connection. -/
def FirstReachable (i : Fin n) : Prop :=
  Reachable reply i ∧ ∀ j, place start j < place start i → ¬ Reachable reply j

/-- The first reachable URL, if there is one, is a full success; or it is the one that
`last_url_idx` names and no URL is a full success. -/
def FirstDecides : Prop :=
  ∀ i, FirstReachable reply start i →
    FullSuccess cfg reply i ∨ (i = start ∧ ∀ j, ¬ FullSuccess cfg reply j)

end Spec

section Proofs

variable {n : ℕ} {cfg : Config} {reply : Fin n → Reply} {start : Fin n}

theorem place_lt (start i : Fin n) : place start i < n :=
  Nat.mod_lt _ (Nat.zero_lt_of_lt start.isLt)

theorem urlIdx_place (start i : Fin n) : urlIdx start (place start i) = i := by
  apply Fin.ext
  have hs := start.isLt
  have hi := i.isLt
  simp only [urlIdx, place, Nat.add_mod_mod]
  rw [show (start : ℕ) + (i + n - start) = i + n by omega, Nat.add_mod_right, Nat.mod_eq_of_lt hi]

theorem place_urlIdx (start : Fin n) {k : ℕ} (hk : k < n) : place start (urlIdx start k) = k := by
  have hs := start.isLt
  simp only [place, urlIdx]
  rcases Nat.lt_or_ge (start + k) n with hlt | hge
  · rw [Nat.mod_eq_of_lt hlt, show (start : ℕ) + k + n - start = k + n by omega, Nat.add_mod_right,
      Nat.mod_eq_of_lt hk]
  · rw [Nat.mod_eq_sub_mod hge, Nat.mod_eq_of_lt (show (start : ℕ) + k - n < n by omega),
      show (start : ℕ) + k - n + n - start = k by omega, Nat.mod_eq_of_lt hk]

/-- The loop settles on the first offset that connects, having tried all up to it, or none
of the URLs connects. -/
theorem connectLoop_settles (reply : Fin n → Reply) (start : Fin n) (offsets : List ℕ)
    (e : Option ClientError) (tried : List (Fin n)) :
    (∃ before k after peer, offsets = before ++ k :: after ∧
      (∀ j ∈ before, ¬ Reachable reply (urlIdx start j)) ∧ reply (urlIdx start k) = .ok peer ∧
      (connectLoop reply start offsets e tried).socket = some (urlIdx start k, peer) ∧
      (connectLoop reply start offsets e tried).tried = tried ++ (before ++ [k]).map (urlIdx start)) ∨
    ((∀ j ∈ offsets, ¬ Reachable reply (urlIdx start j)) ∧
      (connectLoop reply start offsets e tried).socket = none ∧
      (connectLoop reply start offsets e tried).tried = tried ++ offsets.map (urlIdx start) ∧
      ∀ k text, offsets.getLast? = some k → reply (urlIdx start k) = .error text →
        (connectLoop reply start offsets e tried).lastError = some (.webSocket text)) := by
  induction offsets generalizing e tried with
  | nil => exact .inr ⟨by simp, rfl, by simp [connectLoop], by simp⟩
  | cons k offsets ih =>
    simp only [connectLoop]
    cases hk : reply (urlIdx start k) with
    | ok peer => exact .inl ⟨[], k, offsets, peer, rfl, by simp, hk, rfl, rfl⟩
    | error text =>
      have hno : ¬ Reachable reply (urlIdx start k) := by
        intro ⟨peer, hpeer⟩
        rw [hk] at hpeer
        cases hpeer
      rcases ih (some (.webSocket text)) (tried ++ [urlIdx start k]) with
        ⟨before, k', after, peer, hsplit, hbefore, hok, hsocket, htried⟩ | ⟨hall, hsocket, htried, herror⟩
      · refine .inl ⟨k :: before, k', after, peer, by rw [hsplit]; rfl, ?_, hok, hsocket, ?_⟩
        · intro j hj
          rcases List.mem_cons.mp hj with rfl | hj
          · exact hno
          · exact hbefore j hj
        · rw [htried]
          simp
      · refine .inr ⟨fun j hj => ?_, hsocket, ?_, fun last text' hlast htext => ?_⟩
        · rcases List.mem_cons.mp hj with rfl | hj
          · exact hno
          · exact hall j hj
        · rw [htried]
          simp
        · cases offsets with
          | nil =>
            obtain rfl : k = last := by simpa using hlast
            rw [hk] at htext
            cases htext
            rfl
          | cons next rest => exact herror last text' hlast htext

theorem range_split {before after : List ℕ} {k : ℕ} (h : List.range n = before ++ k :: after) :
    k < n ∧ before = List.range k := by
  have hlen := congrArg List.length h
  simp only [List.length_range, List.length_append, List.length_cons] at hlen
  have hk : before.length = k := by
    have hget := congrArg (fun l => l[before.length]?) h
    simpa [List.getElem?_range (show before.length < n by omega)] using hget
  refine ⟨by omega, ?_⟩
  have htake := congrArg (List.take before.length) h
  rw [List.take_left, List.take_range, Nat.min_eq_left (by omega), hk] at htake
  exact htake.symm

theorem establish_cases (cfg : Config) (reply : Fin n → Reply) (start : Fin n) :
    (∃ i peer, FirstReachable reply start i ∧ reply i = .ok peer ∧
      (establishConnection reply start cfg).result = (handshake cfg peer).map (fun _ => i) ∧
      (establishConnection reply start cfg).lastUrlIdx = i ∧
      ∀ j, place start j < place start i → j ∈ (establishConnection reply start cfg).tried) ∨
    ((∀ i, ¬ Reachable reply i) ∧ (∃ e, (establishConnection reply start cfg).result = .error e) ∧
      (establishConnection reply start cfg).lastUrlIdx = start) := by
  rcases connectLoop_settles reply start (List.range n) none [] with
    ⟨before, k, after, peer, hsplit, hbefore, hok, hsocket, htried⟩ | ⟨hall, hsocket, -, -⟩
  · obtain ⟨hk, hrange⟩ := range_split hsplit
    have hplace := place_urlIdx start hk
    refine .inl ⟨urlIdx start k, peer, ⟨⟨peer, hok⟩, fun j hj => ?_⟩, hok, ?_, ?_, fun j hj => ?_⟩
    · rw [hplace] at hj
      rw [← urlIdx_place start j]
      exact hbefore _ (by rw [hrange]; exact List.mem_range.mpr hj)
    · simp only [establishConnection, hsocket]
    · simp only [establishConnection, hsocket]
    · rw [hplace] at hj
      simp only [establishConnection, hsocket, htried, hrange, List.nil_append, List.map_append,
        List.mem_append, List.mem_map, List.mem_range]
      exact .inl ⟨place start j, hj, urlIdx_place start j⟩
  · refine .inr ⟨fun i => ?_, ⟨_, by simp only [establishConnection, hsocket]; rfl⟩, ?_⟩
    · rw [← urlIdx_place start i]
      exact hall _ (List.mem_range.mpr (place_lt start i))
    · simp only [establishConnection, hsocket]

theorem firstReachable_unique {i j : Fin n} (hi : FirstReachable reply start i)
    (hj : FirstReachable reply start j) : i = j := by
  have hplace : place start i = place start j := by
    by_contra hne
    rcases Nat.lt_or_gt_of_ne hne with hlt | hlt
    · exact hj.2 i hlt hi.1
    · exact hi.2 j hlt hj.1
  rw [← urlIdx_place start i, hplace, urlIdx_place]

theorem handshake_map_ok {i j : Fin n} {peer : Peer} :
    (handshake cfg peer).map (fun _ => i) = .ok j ↔ handshake cfg peer = .ok () ∧ i = j := by
  cases h : handshake cfg peer with
  | error e => simp [Except.map]
  | ok u => simp [Except.map]

/-- Failover keeps its promise exactly when the first reachable URL decides it. -/
theorem failsOver_iff (cfg : Config) (reply : Fin n → Reply) (start : Fin n) :
    FailsOver cfg reply start (establishConnection reply start cfg) ↔
      FirstDecides cfg reply start := by
  rcases establish_cases cfg reply start with
    ⟨i, peer, hfirst, hok, hresult, hidx, htried⟩ | ⟨hnone, ⟨e, hresult⟩, hidx⟩
  · have hfull : FullSuccess cfg reply i ↔ handshake cfg peer = .ok () := by
      simp only [FullSuccess, hok, Except.ok.injEq, exists_eq_left']
    have hdecides : FirstDecides cfg reply start ↔
        FullSuccess cfg reply i ∨ (i = start ∧ ∀ j, ¬ FullSuccess cfg reply j) := by
      constructor
      · intro h
        exact h i hfirst
      · intro h j hj
        rw [firstReachable_unique hj hfirst]
        exact h
    rw [hdecides, hfull]
    simp only [FailsOver, hresult, hidx, handshake_map_ok]
    by_cases hh : handshake cfg peer = .ok ()
    · simp only [hh, true_and, true_or, iff_true]
      refine ⟨⟨fun _ => ⟨i, hfull.mpr hh⟩, fun _ => ⟨i, rfl⟩⟩, fun j hj => ?_, fun _ => hfull.mpr hh⟩
      exact hj ▸ htried
    · simp only [hh, false_and, exists_false, false_iff, not_exists, false_implies, implies_true,
        true_and, false_or]
      constructor
      · intro ⟨hnofull, hkeeps⟩
        refine ⟨?_, hnofull⟩
        by_contra hne
        exact hnofull i (hkeeps hne)
      · intro ⟨hstart, hnofull⟩
        exact ⟨hnofull, fun hne => absurd hstart hne⟩
  · have hnofull : ∀ j, ¬ FullSuccess cfg reply j := fun j ⟨peer, hpeer, _⟩ => hnone j ⟨peer, hpeer⟩
    refine ⟨fun _ i hi => absurd hi.1 (hnone i), fun _ => ⟨?_, fun i hi => ?_, fun hne => ?_⟩⟩
    · simp [hresult, hnofull]
    · rw [hresult] at hi
      cases hi
    · exact absurd hidx hne

end Proofs

/-- A server that takes the connection and refuses the credential. -/
def refusing : Peer :=
  ⟨.ok (), none, .ok (), some (.ok (.authResponse false none (some ⟨"unauthorized", "bad token", 401, none⟩)))⟩

def accepting : Peer := ⟨.ok (), none, .ok (), some (.ok (.authResponse true none none))⟩

/-- The first of three servers is down, the second refuses, the third would accept. -/
def threeServers : Fin 3 → Reply
  | 0 => .error "connection refused"
  | 1 => .ok refusing
  | 2 => .ok accepting

def tokenConfig : Config := ⟨false, true, true, 2⟩

/-- The cycle fails on the second server, never tries the third, and remembers the second. -/
theorem threeServers_stop_at_refusal :
    (∃ e, (establishConnection threeServers 0 tokenConfig).result = .error (.authFailed e)) ∧
      FullSuccess tokenConfig threeServers 2 ∧
      (establishConnection threeServers 0 tokenConfig).tried = [0, 1] ∧
      (establishConnection threeServers 0 tokenConfig).lastUrlIdx = 1 ∧
      ¬ FullSuccess tokenConfig threeServers 1 ∧
      ¬ FailsOver tokenConfig threeServers 0 (establishConnection threeServers 0 tokenConfig) := by
  have hthird : FullSuccess tokenConfig threeServers 2 := ⟨accepting, rfl, rfl⟩
  have hsecond : ¬ FullSuccess tokenConfig threeServers 1 := by
    intro ⟨peer, hpeer, hok⟩
    cases hpeer
    cases hok
  refine ⟨⟨_, rfl⟩, hthird, rfl, rfl, hsecond, fun h => ?_⟩
  obtain ⟨i, hi⟩ := h.1.mpr ⟨2, hthird⟩
  cases hi

/-! ### The cycle in the supervisor -/

namespace Lifecycle

section Supervisor

variable {n : ℕ} {cfg : Config} {s : State} {g : ℕ}

def sent : Except ClientError Unit → Bool
  | .ok _ => true
  | .error _ => false

/-- The packet the supervisor sees, if one arrived and decoded. -/
def received : Option (Except ProtocolError PacketBody) → Option PacketBody
  | some (.ok body) => some body
  | _ => none

def authOps (cfg : Config) (p : Peer) : List SupervisorOp :=
  if cfg.hasCredential then
    .authSent (sent p.authSent) :: if sent p.authSent then [.authReceived (received p.authReply)] else []
  else []

def handshakeOps (cfg : Config) (p : Peer) : List SupervisorOp :=
  if cfg.useEcdh then
    .ecdhSent (sent p.ecdhSent) ::
      if sent p.ecdhSent then
        .ecdhReceived p.ecdhReply ::
          if p.ecdhReply.any (fun bytes => bytes.length = 32) then authOps cfg p else []
      else []
  else authOps cfg p

/-- What the supervisor goes through while the candidate loop runs over `offsets`. -/
def cycleOps (cfg : Config) (reply : Fin n → Reply) (start : Fin n) : List ℕ → List SupervisorOp
  | [] => []
  | offset :: offsets =>
    match reply (urlIdx start offset) with
    | .ok peer => .connectResult true :: handshakeOps cfg peer
    | .error _ => .connectResult false :: cycleOps cfg reply start offsets

/-- The operations bring the supervisor to the published connection exactly if `ok`. -/
def Ends (cfg : Config) (s : State) (g : ℕ) (ops : List SupervisorOp) (ok : Prop) : Prop :=
  ∃ s', Machine.run (step cfg) (ops.map .supervisor) s = some s' ∧ (s'.phase = .established g ↔ ok)

theorem failed_phase (cfg : Config) (s : State) (g : ℕ) : (failed cfg s).phase ≠ .established g := by
  unfold failed afterConnection
  split_ifs <;> simp

theorem Ends.nil {ok : Prop} (h : s.phase = .established g ↔ ok) : Ends cfg s g [] ok := ⟨s, rfl, h⟩

theorem Ends.cons {op : SupervisorOp} {ops : List SupervisorOp} {s₁ : State} {ok : Prop}
    (hs : stepSupervisor cfg s op s.phase = some s₁) (h : Ends cfg s₁ g ops ok) :
    Ends cfg s g (op :: ops) ok := by
  obtain ⟨s', hrun, hphase⟩ := h
  refine ⟨s', ?_, hphase⟩
  simp only [List.map_cons, Machine.run, step, hs, Option.bind_some, hrun]

theorem ends_failed {ok : Prop} (h : ¬ ok) : Ends cfg (failed cfg s) g [] ok :=
  .nil ⟨fun hphase => absurd hphase (failed_phase cfg s g), fun hok => absurd hok h⟩

theorem exchangeKeys_eq_ok {p : Peer} :
    exchangeKeys p = .ok () ↔
      sent p.ecdhSent = true ∧ p.ecdhReply.any (fun bytes => bytes.length = 32) = true := by
  unfold exchangeKeys
  cases p.ecdhSent with
  | error e => simp [sent, bind, Except.bind]
  | ok u =>
    cases p.ecdhReply with
    | none => simp [bind, Except.bind, throw, throwThe, MonadExceptOf.throw]
    | some bytes =>
      by_cases hlen : bytes.length = 32
      · simp [sent, bind, Except.bind, pure, Except.pure, hlen]
      · simp [bind, Except.bind, throw, throwThe, MonadExceptOf.throw, hlen]

theorem authenticate_eq_ok {p : Peer} :
    authenticate p = .ok () ↔
      sent p.authSent = true ∧ (received p.authReply).any authAccepted = true := by
  unfold authenticate
  cases p.authSent with
  | error e => simp [sent, bind, Except.bind]
  | ok u =>
    simp only [sent, true_and, bind, Except.bind]
    split <;> simp_all [received, authAccepted, throw, throwThe, MonadExceptOf.throw, pure, Except.pure]

theorem handshake_eq_ok {p : Peer} :
    handshake cfg p = .ok () ↔ (cfg.useEcdh = true → exchangeKeys p = .ok ()) ∧
      (cfg.hasCredential = true → authenticate p = .ok ()) := by
  unfold handshake
  cases cfg.useEcdh <;> cases cfg.hasCredential <;> cases exchangeKeys p <;>
    simp [bind, Except.bind, pure, Except.pure]

theorem ends_auth (p : Peer) :
    Ends cfg (afterEcdh cfg s g) g (authOps cfg p)
      (cfg.hasCredential = true → authenticate p = .ok ()) := by
  unfold afterEcdh authOps
  cases hc : cfg.hasCredential with
  | false => exact .nil (by simp)
  | true =>
    simp only [if_true, true_implies, authenticate_eq_ok]
    refine .cons rfl ?_
    cases hsent : sent p.authSent with
    | false =>
      simp only [Bool.false_eq_true, if_false, false_and]
      exact ends_failed id
    | true =>
      simp only [if_true, true_and]
      cases hr : received p.authReply with
      | none => exact .cons rfl (ends_failed (by simp))
      | some body =>
        refine .cons rfl ?_
        cases ha : authAccepted body with
        | true => exact .nil (by simp [ha])
        | false =>
          simp only [Bool.false_eq_true, if_false, Option.any_some, ha]
          exact ends_failed id

theorem ends_handshake (p : Peer) :
    Ends cfg (afterConnect cfg s g) g (handshakeOps cfg p) (handshake cfg p = .ok ()) := by
  unfold afterConnect handshakeOps
  rw [handshake_eq_ok]
  cases hu : cfg.useEcdh with
  | false => simpa using ends_auth p
  | true =>
    simp only [if_true, true_implies, exchangeKeys_eq_ok]
    refine .cons rfl ?_
    cases hsent : sent p.ecdhSent with
    | false =>
      simp only [Bool.false_eq_true, if_false, false_and]
      exact ends_failed id
    | true =>
      simp only [if_true, true_and]
      cases hr : p.ecdhReply with
      | none => exact .cons rfl (ends_failed (by simp))
      | some bytes =>
        refine .cons rfl ?_
        by_cases hlen : bytes.length = 32
        · simpa [hlen] using ends_auth p
        · simp only [hlen, if_false, Option.any_some, decide_false, Bool.false_eq_true, false_and]
          exact ends_failed id

theorem ends_cycle (reply : Fin n → Reply) (start : Fin n) {k : ℕ} {offsets : List ℕ}
    (hphase : s.phase = .connecting g k) (hne : offsets ≠ [])
    (hlen : k + offsets.length = cfg.failovers + 1) (e : Option ClientError) (tried : List (Fin n)) :
    Ends cfg s g (cycleOps cfg reply start offsets)
      (∃ idx peer, (connectLoop reply start offsets e tried).socket = some (idx, peer) ∧
        handshake cfg peer = .ok ()) := by
  induction offsets generalizing k s e tried with
  | nil => exact absurd rfl hne
  | cons offset offsets ih =>
    simp only [cycleOps, connectLoop]
    cases hr : reply (urlIdx start offset) with
    | ok peer =>
      have hconnected : stepSupervisor cfg s (.connectResult true) s.phase =
          some (afterConnect cfg s g) := by
        simp [stepSupervisor, hphase]
      refine .cons hconnected ?_
      simpa using ends_handshake peer
    | error text =>
      cases offsets with
      | nil =>
        simp only [List.length_cons, List.length_nil] at hlen
        have hlast : stepSupervisor cfg s (.connectResult false) s.phase = some (failed cfg s) := by
          simp only [stepSupervisor, hphase, Bool.false_eq_true, if_false]
          rw [if_neg (by omega)]
        exact .cons hlast (ends_failed (by simp [connectLoop]))
      | cons next rest =>
        simp only [List.length_cons] at hlen ih
        have hnext : stepSupervisor cfg s (.connectResult false) s.phase =
            some { s with phase := .connecting g (k + 1) } := by
          simp only [stepSupervisor, hphase, Bool.false_eq_true, if_false]
          rw [if_pos (by omega)]
        exact .cons hnext (ih rfl (by simp) (by omega) _ _)

/-- One cycle of the supervisor reaches the published connection exactly when
`establish_connection` succeeds with the same answers from the servers. -/
theorem cycle_established (reply : Fin n → Reply) (start : Fin n) (hphase : s.phase = .connecting g 0)
    (hn : n = cfg.failovers + 1) :
    Ends cfg s g (cycleOps cfg reply start (List.range n))
      (∃ i, (establishConnection reply start cfg).result = .ok i) := by
  have hne : List.range n ≠ [] := by
    rw [hn]
    simp
  have hlen : 0 + (List.range n).length = cfg.failovers + 1 := by
    simp [hn]
  obtain ⟨s', hrun, hok⟩ := ends_cycle reply start hphase hne hlen none []
  refine ⟨s', hrun, hok.trans ?_⟩
  cases hs : (connectLoop reply start (List.range n) none []).socket with
  | none => simp [establishConnection, hs]
  | some found =>
    obtain ⟨idx, peer⟩ := found
    simp [establishConnection, hs, handshake_map_ok]

end Supervisor

end Lifecycle

end Wscall.Client
