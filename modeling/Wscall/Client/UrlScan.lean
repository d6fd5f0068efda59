import Mathlib.Data.List.Nodup
import Wscall.Client.Failover

/-!
# The URL scan and its index (`client_runtime.rs:115-125`, `509-540`, `916-920`)

In `Failover` the index is one of the URL list by its type. Here it is the bare number that
the client stores, every use of it is a checked access to the list, and what the type
promised there is proved: of the loop, and of every run of the supervisor.
-/

namespace Wscall.Client
open RustStd Protocol
open Lifecycle (Config SupervisorOp cycleOps handshakeOps authOps)

/-- `self.urls[idx]`. -/
def urlAt (urls : List String) (idx : ℕ) : Checked ClientError String :=
  match urls[idx]? with
  | some url => .ok url
  | none => crash

def currentUrl (urls : List String) (lastUrlIdx : ℕ) : Checked ClientError String :=
  urlAt urls lastUrlIdx

/-- The list `connect` builds: the primary URL, then the failover URLs. -/
def candidateUrls (url : String) (failoverUrls : List String) : List String := url :: failoverUrls

section Scan

variable (urls : List String) (reply : ℕ → Reply) (start : ℕ)

structure Candidates where
  socket : Option (ℕ × Peer)
  lastError : Option ClientError
  tried : List ℕ

/-- The loop over the offsets that are left; `reply` is what the URL at an index answers. -/
def scanLoop : List ℕ → Option ClientError → List ℕ → Checked ClientError Candidates
  | [], lastError, tried => .ok ⟨none, lastError, tried⟩
  | offset :: offsets, lastError, tried => do
    let idx := (start + offset) % urls.length
    let _ ← urlAt urls idx
    match reply idx with
    | .ok peer => return ⟨some (idx, peer), lastError, tried ++ [idx]⟩
    | .error e => scanLoop offsets (some (.webSocket e)) (tried ++ [idx])

structure Scan where
  result : Except ClientError (ℕ × Peer)
  lastUrlIdx : ℕ
  tried : List ℕ

/-- `establish_connection` up to the socket. -/
def scan : Checked ClientError Scan := do
  let c ← scanLoop urls reply start (List.range urls.length) none []
  match c.socket with
  | some (idx, peer) => return ⟨.ok (idx, peer), idx, c.tried⟩
  | none =>
    return ⟨.error (c.lastError.getD (.connectionClosed "all server URLs unreachable")), start, c.tried⟩

end Scan

/-! ### The loop keeps to the list -/

section Refinement

variable {urls : List String} {reply : ℕ → Reply}

theorem urlAt_of_lt {idx : ℕ} (h : idx < urls.length) : ∃ url, urlAt urls idx = .ok url := by
  simp only [urlAt, List.getElem?_eq_getElem h]
  exact ⟨_, rfl⟩

/-- The numbers behind an attempt of the typed loop. -/
def Attempt.raw {n : ℕ} (a : Attempt n) : Candidates :=
  ⟨a.socket.map fun found => (found.1.val, found.2), a.lastError, a.tried.map (·.val)⟩

theorem scanLoop_eq (urls : List String) (reply : ℕ → Reply) (start : Fin urls.length)
    (offsets : List ℕ) (e : Option ClientError) (tried : List (Fin urls.length)) :
    scanLoop urls reply start offsets e (tried.map (·.val)) =
      .ok (connectLoop (fun i => reply i) start offsets e tried).raw := by
  induction offsets generalizing e tried with
  | nil => rfl
  | cons offset offsets ih =>
    obtain ⟨url, hurl⟩ := urlAt_of_lt (urlIdx start offset).isLt
    have hidx : (start + offset) % urls.length = (urlIdx start offset).val := rfl
    simp only [scanLoop, connectLoop, hidx, hurl, ok_bind]
    cases hr : reply (urlIdx start offset).val with
    | ok peer => simp [Attempt.raw, pure, Except.pure]
    | error text => simpa using ih (some (.webSocket text)) (tried ++ [urlIdx start offset])

end Refinement

/-! ### A sticky cyclic search -/

def Connects (reply : ℕ → Reply) (i : ℕ) : Prop := ∃ peer, reply i = .ok peer

/-- URLs are tried in cyclic order, none twice, up to the first that connects; its index is
stored. If none connects, each was tried once, the last error is returned and the index
stays. -/
structure StickyCyclic (n : ℕ) (reply : ℕ → Reply) (start : ℕ) (r : Scan) : Prop where
  order : r.tried = (List.range r.tried.length).map fun k => (start + k) % n
  once : r.tried.Nodup
  found : (∃ i < n, Connects reply i) → ∃ i peer before,
    r.tried = before ++ [i] ∧ (∀ j ∈ before, ¬ Connects reply j) ∧ reply i = .ok peer ∧
      r.result = .ok (i, peer) ∧ r.lastUrlIdx = i
  exhausted : (∀ i < n, ¬ Connects reply i) → (∀ i < n, r.tried.count i = 1) ∧
    (∃ i text, r.tried.getLast? = some i ∧ reply i = .error text ∧
      r.result = .error (.webSocket text)) ∧ r.lastUrlIdx = start

section Cyclic

variable {n : ℕ} {reply : ℕ → Reply} (start : Fin n)

theorem urlIdx_nodup {m : ℕ} (hm : m ≤ n) : ((List.range m).map (urlIdx start)).Nodup := by
  refine List.Nodup.map_on (fun a ha b hb heq => ?_) List.nodup_range
  rw [List.mem_range] at ha hb
  rw [← place_urlIdx start (k := a) (by omega), heq, place_urlIdx start (by omega)]

theorem map_urlIdx (m : ℕ) : ((List.range m).map (urlIdx start)).map (·.val) =
    (List.range m).map fun k => (start + k) % n := by
  rw [List.map_map]
  rfl

theorem cyclic_nodup {m : ℕ} (hm : m ≤ n) :
    ((List.range m).map fun k => (start + k) % n).Nodup := by
  rw [← map_urlIdx]
  exact (urlIdx_nodup start hm).map fun _ _ h => Fin.ext h

theorem cyclic_covers {i : ℕ} (hi : i < n) : i ∈ (List.range n).map fun k => (start + k) % n := by
  have hplace := congrArg Fin.val (urlIdx_place start ⟨i, hi⟩)
  exact List.mem_map.mpr ⟨place start ⟨i, hi⟩, List.mem_range.mpr (place_lt start _), hplace⟩

theorem stickyCyclic_found {k : ℕ} (hk : k < n) {peer : Peer}
    (hbefore : ∀ j < k, ¬ Connects reply (urlIdx start j))
    (hok : reply (urlIdx start k) = .ok peer) :
    StickyCyclic n reply start ⟨.ok ((urlIdx start k).val, peer), urlIdx start k,
      (List.range (k + 1)).map fun j => (start + j) % n⟩ := by
  refine ⟨by simp, cyclic_nodup start hk, fun _ => ?_, fun hnone => ?_⟩
  · refine ⟨_, peer, (List.range k).map fun j => (start + j) % n, ?_, fun j hj => ?_, hok, rfl, rfl⟩
    · rw [List.range_succ, List.map_append]
      rfl
    · obtain ⟨offset, hoffset, rfl⟩ := List.mem_map.mp hj
      exact hbefore offset (List.mem_range.mp hoffset)
  · exact absurd ⟨peer, hok⟩ (hnone _ (urlIdx start k).isLt)

theorem getLast?_range_pos (hn : 0 < n) : (List.range n).getLast? = some (n - 1) := by
  rw [List.getLast?_range, if_neg (by omega)]

theorem stickyCyclic_exhausted (hnone : ∀ i < n, ¬ Connects reply i) {text : String}
    (htext : reply (urlIdx start (n - 1)) = .error text) :
    StickyCyclic n reply start ⟨.error (.webSocket text), start,
      (List.range n).map fun j => (start + j) % n⟩ := by
  refine ⟨by simp, cyclic_nodup start le_rfl, fun hsome => ?_, fun _ => ⟨fun i hi => ?_, ?_, rfl⟩⟩
  · obtain ⟨i, hi, hc⟩ := hsome
    exact absurd hc (hnone i hi)
  · exact List.count_eq_one_of_mem (cyclic_nodup start le_rfl) (cyclic_covers start hi)
  · refine ⟨_, text, ?_, htext, rfl⟩
    rw [List.getLast?_map, getLast?_range_pos (Nat.zero_lt_of_lt start.isLt)]
    rfl

end Cyclic

theorem scan_stickyCyclic (urls : List String) (reply : ℕ → Reply) (start : Fin urls.length) :
    ∃ r, scan urls reply start = .ok r ∧ StickyCyclic urls.length reply start r := by
  have hpos : 0 < urls.length := Nat.zero_lt_of_lt start.isLt
  have hloop := scanLoop_eq urls reply start (List.range urls.length) none []
  rw [List.map_nil] at hloop
  rcases connectLoop_settles (fun i : Fin urls.length => reply i) start (List.range urls.length) none []
    with ⟨before, k, after, peer, hsplit, hbefore, hok, hsocket, htried⟩ |
      ⟨hall, hsocket, htried, herror⟩
  · obtain ⟨hk, rfl⟩ := range_split hsplit
    rw [List.nil_append, ← List.range_succ] at htried
    refine ⟨_, ?_, stickyCyclic_found start hk (fun j hj => hbefore j (List.mem_range.mpr hj)) hok⟩
    simp only [scan, hloop, ok_bind, Attempt.raw, hsocket, Option.map_some, htried, map_urlIdx]
    rfl
  · have hunreached : ∀ i < urls.length, ¬ Connects reply i := by
      intro i hi
      obtain ⟨offset, hoffset, rfl⟩ := List.mem_map.mp (cyclic_covers start hi)
      exact hall offset hoffset
    -- the last offset is tried last, and it fails
    obtain ⟨text, htext⟩ : ∃ text, reply (urlIdx start (urls.length - 1)) = .error text := by
      cases hr : reply (urlIdx start (urls.length - 1)) with
      | error text => exact ⟨text, rfl⟩
      | ok peer => exact absurd ⟨peer, hr⟩ (hunreached _ (urlIdx start _).isLt)
    have hlast := herror _ text (getLast?_range_pos hpos) htext
    refine ⟨_, ?_, stickyCyclic_exhausted start hunreached htext⟩
    simp only [scan, hloop, ok_bind, Attempt.raw, hsocket, hlast, Option.map_none, Option.getD_some,
      htried, List.nil_append, map_urlIdx]
    rfl

/-! ### Runs of the supervisor -/

/-- The client with its stored index, and the `start` of the loop that is under way. -/
structure Dialer where
  client : Lifecycle.State
  lastUrlIdx : ℕ
  start : ℕ

namespace Dialer

def init : Dialer := ⟨.init, 0, 0⟩

/-- `last_url_idx` after a step: only a connection attempt that succeeds stores it. -/
def stored (urls : List String) (d : Dialer) (a : Lifecycle.Action) : ℕ :=
  match a, d.client.phase with
  | .supervisor (.connectResult true), .connecting _ offset => (d.start + offset) % urls.length
  | _, _ => d.lastUrlIdx

/-- The loop loads the index when it starts. -/
def loaded (d : Dialer) : Lifecycle.Action → ℕ
  | .supervisor .top => d.lastUrlIdx
  | _ => d.start

def step (cfg : Config) (urls : List String) (a : Lifecycle.Action) (d : Dialer) : Option Dialer :=
  (Lifecycle.step cfg a d.client).map fun client => ⟨client, d.stored urls a, d.loaded a⟩

/-- The accesses to the list that the client makes in this state: `current_url`, which anyone
may call, and the next candidate of a loop that is under way. -/
def InRange (urls : List String) (d : Dialer) : Prop :=
  d.lastUrlIdx < urls.length ∧ (∃ url, currentUrl urls d.lastUrlIdx = .ok url) ∧
    ∀ g offset, d.client.phase = .connecting g offset →
      ∃ url, urlAt urls ((d.start + offset) % urls.length) = .ok url

variable {cfg : Config} {urls : List String}

theorem step_eq_some {a : Lifecycle.Action} {d d' : Dialer} (h : step cfg urls a d = some d') :
    Lifecycle.step cfg a d.client = some d'.client ∧ d'.lastUrlIdx = d.stored urls a ∧
      d'.start = d.loaded a := by
  obtain ⟨client, hclient, rfl⟩ := Option.map_eq_some_iff.mp h
  exact ⟨hclient, rfl, rfl⟩

theorem stored_lt (hpos : 0 < urls.length) {d : Dialer} (h : d.lastUrlIdx < urls.length)
    (a : Lifecycle.Action) : d.stored urls a < urls.length := by
  unfold stored
  split
  · exact Nat.mod_lt _ hpos
  · exact h

theorem run_lastUrlIdx_lt (hpos : 0 < urls.length) {actions : List Lifecycle.Action} {d : Dialer}
    (h : Machine.run (step cfg urls) actions init = some d) : d.lastUrlIdx < urls.length := by
  refine Machine.run_invariant (I := fun d => d.lastUrlIdx < urls.length) (fun a d d' hd hs => ?_) h hpos
  rw [(step_eq_some hs).2.1]
  exact stored_lt hpos hd a

theorem inRange_of_lt (hpos : 0 < urls.length) {d : Dialer} (h : d.lastUrlIdx < urls.length) :
    InRange urls d :=
  ⟨h, urlAt_of_lt h, fun _ _ _ => urlAt_of_lt (Nat.mod_lt _ hpos)⟩

/-! ### The supervisor's loop is the scan -/

theorem run_of_client {actions : List Lifecycle.Action} {d : Dialer} {s' : Lifecycle.State}
    (h : Machine.run (Lifecycle.step cfg) actions d.client = some s') :
    ∃ d', Machine.run (step cfg urls) actions d = some d' := by
  induction actions generalizing d with
  | nil => exact ⟨d, rfl⟩
  | cons a actions ih =>
    obtain ⟨client, h1, h2⟩ := Machine.run_cons_eq_some h
    obtain ⟨d', hd'⟩ := ih (d := ⟨client, d.stored urls a, d.loaded a⟩) h2
    exact ⟨d', by simpa [Machine.run, step, h1] using hd'⟩

def connects : Lifecycle.Action → Bool
  | .supervisor (.connectResult _) => true
  | _ => false

theorem run_keeps_index {actions : List Lifecycle.Action} (hquiet : ∀ a ∈ actions, connects a = false)
    {d d' : Dialer} (h : Machine.run (step cfg urls) actions d = some d') :
    d'.lastUrlIdx = d.lastUrlIdx := by
  induction actions generalizing d with
  | nil =>
    cases h
    rfl
  | cons a actions ih =>
    obtain ⟨d₁, h1, h2⟩ := Machine.run_cons_eq_some h
    have ha := hquiet a (List.mem_cons_self ..)
    rw [ih (fun b hb => hquiet b (List.mem_cons_of_mem _ hb)) h2, (step_eq_some h1).2.1]
    unfold stored
    split
    · cases ha
    · rfl

theorem handshakeOps_quiet (p : Peer) :
    ∀ a ∈ (handshakeOps cfg p).map Lifecycle.Action.supervisor, connects a = false := by
  unfold handshakeOps authOps
  split_ifs <;> simp [connects]

theorem step_connected {d : Dialer} {g k : ℕ} (hphase : d.client.phase = .connecting g k) :
    step cfg urls (.supervisor (.connectResult true)) d =
      some ⟨Lifecycle.afterConnect cfg d.client g, (d.start + k) % urls.length, d.start⟩ := by
  simp [step, Lifecycle.step, Lifecycle.stepSupervisor, hphase, stored, loaded]

theorem step_refused {d : Dialer} {g k : ℕ} (hphase : d.client.phase = .connecting g k) :
    step cfg urls (.supervisor (.connectResult false)) d =
      some { d with client := if k < cfg.failovers then { d.client with phase := .connecting g (k + 1) }
        else Lifecycle.failed cfg d.client } := by
  by_cases hk : k < cfg.failovers
  · simp [step, Lifecycle.step, Lifecycle.stepSupervisor, hphase, stored, loaded, hk]
  · simp [step, Lifecycle.step, Lifecycle.stepSupervisor, hphase, stored, loaded, hk]

theorem run_found {d : Dialer} {g k : ℕ} (hphase : d.client.phase = .connecting g k) (p : Peer) :
    ∃ d', Machine.run (step cfg urls)
        ((.connectResult true :: handshakeOps cfg p : List SupervisorOp).map .supervisor) d = some d' ∧
      d'.lastUrlIdx = (d.start + k) % urls.length := by
  have hends : Lifecycle.Ends cfg (Lifecycle.afterConnect cfg d.client g) g (handshakeOps cfg p) _ :=
    Lifecycle.ends_handshake p
  obtain ⟨s', hrun, -⟩ := hends
  obtain ⟨d', hd'⟩ : ∃ d', Machine.run (step cfg urls) ((handshakeOps cfg p).map .supervisor)
      ⟨Lifecycle.afterConnect cfg d.client g, (d.start + k) % urls.length, d.start⟩ = some d' :=
    run_of_client hrun
  refine ⟨d', ?_, run_keeps_index (handshakeOps_quiet p) hd'⟩
  simpa only [List.map_cons, Machine.run, step_connected hphase, Option.bind_some] using hd'

theorem run_loop (reply : ℕ → Reply) (start : Fin urls.length) {g k m : ℕ} {d : Dialer}
    (hphase : d.client.phase = .connecting g k) (hstart : d.start = start)
    (hm : k + m = cfg.failovers) (e : Option ClientError) (tried : List (Fin urls.length)) :
    ∃ d', Machine.run (step cfg urls)
        ((cycleOps cfg (fun i : Fin urls.length => reply i) start (List.range' k (m + 1))).map
          .supervisor) d = some d' ∧
      d'.lastUrlIdx = (connectLoop (fun i : Fin urls.length => reply i) start (List.range' k (m + 1))
        e tried).socket.elim d.lastUrlIdx (·.1.val) := by
  -- what the supervisor stores while its loop goes through the offsets from `k` on
  induction m generalizing k d e tried with
  | zero =>
    rw [List.range'_succ, List.range'_zero]
    simp only [cycleOps, connectLoop]
    cases hr : reply (urlIdx start k) with
    | ok peer => simpa [hstart, urlIdx] using run_found hphase peer
    | error text =>
      simp only [List.map_cons, List.map_nil, Machine.run, step_refused hphase, Option.bind_some]
      exact ⟨_, rfl, rfl⟩
  | succ m ih =>
    rw [List.range'_succ]
    simp only [cycleOps, connectLoop]
    cases hr : reply (urlIdx start k) with
    | ok peer => simpa [hstart, urlIdx] using run_found hphase peer
    | error text =>
      simp only [List.map_cons, Machine.run, step_refused hphase, Option.bind_some]
      rw [if_pos (by omega)]
      exact ih (d := { d with client := { d.client with phase := .connecting g (k + 1) } }) rfl hstart
        (by omega) _ _

/-- A cycle of the supervisor leaves the index that the scan with the same answers leaves. -/
theorem run_cycle (reply : ℕ → Reply) {g : ℕ} {d : Dialer}
    (hphase : d.client.phase = .connecting g 0) (hstart : d.start = d.lastUrlIdx)
    (hlt : d.lastUrlIdx < urls.length) (hn : urls.length = cfg.failovers + 1) :
    ∃ d' r, Machine.run (step cfg urls)
        ((cycleOps cfg (fun i : Fin urls.length => reply i) ⟨d.lastUrlIdx, hlt⟩
          (List.range urls.length)).map .supervisor) d = some d' ∧
      scan urls reply d.lastUrlIdx = .ok r ∧ d'.lastUrlIdx = r.lastUrlIdx := by
  obtain ⟨d', hrun, hidx⟩ := run_loop reply ⟨d.lastUrlIdx, hlt⟩ hphase hstart (Nat.zero_add _) none []
  rw [← hn, ← List.range_eq_range'] at hrun hidx
  have hloop := scanLoop_eq urls reply ⟨d.lastUrlIdx, hlt⟩ (List.range urls.length) none []
  rw [List.map_nil] at hloop
  simp only [scan, hloop, ok_bind, Attempt.raw]
  cases hs : (connectLoop (fun i : Fin urls.length => reply i) ⟨d.lastUrlIdx, hlt⟩
      (List.range urls.length) none []).socket with
  | none => exact ⟨d', _, hrun, rfl, by rw [hidx, hs]; rfl⟩
  | some found => exact ⟨d', _, hrun, rfl, by rw [hidx, hs]; rfl⟩

end Dialer

/-- Each scan is a sticky cyclic search, and in every run of the client from index 0 on the
index and the candidates of the loop are within the list. -/
theorem failover_scan (url : String) (failoverUrls : List String) :
    (∀ reply start, start < (candidateUrls url failoverUrls).length →
      ∃ r, scan (candidateUrls url failoverUrls) reply start = .ok r ∧
        StickyCyclic (candidateUrls url failoverUrls).length reply start r) ∧
    ∀ cfg actions d,
      Machine.run (Dialer.step cfg (candidateUrls url failoverUrls)) actions .init = some d →
        d.InRange (candidateUrls url failoverUrls) := by
  refine ⟨fun reply start hstart => ?_, fun cfg actions d h => ?_⟩
  · exact scan_stickyCyclic _ reply ⟨start, hstart⟩
  · have hpos : 0 < (candidateUrls url failoverUrls).length := Nat.succ_pos _
    exact Dialer.inRange_of_lt hpos (Dialer.run_lastUrlIdx_lt hpos h)

/-- The second of two servers is down. -/
def secondDown : ℕ → Reply
  | 0 => .ok accepting
  | _ => .error "connection refused"

/-- A scan that starts at the second server wraps around to the first and moves there. -/
theorem failover_scan_secondDown :
    ∃ r, scan (candidateUrls "a" ["b"]) secondDown 1 = .ok r ∧ r.tried.Nodup ∧ r.lastUrlIdx = 0 := by
  obtain ⟨r, hscan, hsticky⟩ := (failover_scan "a" ["b"]).1 secondDown 1 (by decide)
  refine ⟨r, hscan, hsticky.once, ?_⟩
  obtain ⟨i, peer, before, -, -, hok, -, hidx⟩ := hsticky.found ⟨0, by decide, accepting, rfl⟩
  cases i with
  | zero => exact hidx
  | succ i => cases hok

end Wscall.Client
