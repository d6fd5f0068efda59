import Wscall.Server.LimiterRun

/-!
# Counters and windows

The counter of a key is the window that its counted frames are in, with the number of frames
and their bytes modulo `2 ^ 64`. A counter that `cleanup` deletes belongs to a window that has
ended, so the next frame opens a new one either way.
-/

namespace Wscall.Server

/-! ### One dimension -/

namespace Dimension

variable {κ : Type} [DecidableEq κ] {d : Dimension κ} {config : RateLimitConfig}
  {counted : κ → List (ℕ × ℕ)} {time now : ℕ} {key : κ}

/-- The counter of a window; a window without a counter has ended. -/
def Tracks (period time : ℕ) : Option WindowCounter → Option Load → Prop
  | some counter, l =>
    ∃ n b, l = some ⟨⟨counter.windowStart, n⟩, b⟩ ∧ counter.messageCount.toNat = n % 2 ^ 64 ∧
      counter.byteCount.toNat = b % 2 ^ 64
  | none, l => ∀ v, l = some v → period ≤ time - v.window.start

/-- The counters follow the frames counted for each key: instant and length. -/
def CountsMatch (d : Dimension κ) (config : Option RateLimitConfig) (counted : κ → List (ℕ × ℕ))
    (time : ℕ) : Prop :=
  ∀ cfg, config = some cfg →
    ∀ key, Tracks cfg.period time (d.counters key) (Load.current cfg.period (counted key))

theorem Tracks.mono {period : ℕ} {counter : Option WindowCounter} {l : Option Load}
    (h : Tracks period time counter l) (hle : time ≤ now) : Tracks period now counter l := by
  cases counter with
  | none =>
    intro v hv
    have := h v hv
    omega
  | some counter => exact h

/-- What a recorded frame leaves is the load of the window it falls into. -/
structure Counts (counter : WindowCounter) (l : Load) : Prop where
  start : counter.windowStart = l.window.start
  messages : counter.messageCount.toNat = l.window.count % 2 ^ 64
  bytes : counter.byteCount.toNat = l.weight % 2 ^ 64

omit [DecidableEq κ] in
theorem Tracks.next
    (h : Tracks config.period now (d.counters key) (Load.current config.period (counted key)))
    (frameLen : UInt64) : Counts (d.nextCounter config now key frameLen)
      (Load.after config.period (counted key) (now, frameLen.toNat)) := by
  have hlen := frameLen.toNat_lt
  cases hk : d.counters key with
  | none =>
    rw [hk] at h
    rw [Load.after, Load.next_eq_open (x := (now, frameLen.toNat)) h]
    simp only [nextCounter, hk]
    exact ⟨rfl, rfl, (Nat.mod_eq_of_lt hlen).symm⟩
  | some counter =>
    rw [hk] at h
    obtain ⟨n, b, hl, hn, hb⟩ := h
    simp only [nextCounter, hk, WindowCounter.maybeReset, WindowCounter.elapsed, Load.after, hl, Load.next,
      Option.map_some, Window.next, decide_eq_true_eq]
    by_cases he : config.period ≤ now - counter.windowStart
    · simp only [he, if_true, WindowCounter.add]
      exact ⟨rfl, rfl, by simp [Nat.mod_eq_of_lt hlen]⟩
    · simp only [he, if_false, WindowCounter.add]
      refine ⟨rfl, ?_, ?_⟩
      · simp only [UInt64.toNat_add, hn]
        exact Nat.mod_add_mod n (2 ^ 64) 1
      · simp only [UInt64.toNat_add, hb]
        exact Nat.mod_add_mod b (2 ^ 64) frameLen.toNat

theorem Counts.tracks {counter : WindowCounter} {l : Load} (h : Counts counter l) (period : ℕ) :
    Tracks period now (some counter) (some l) := by
  refine ⟨l.window.count, l.weight, ?_, h.messages, h.bytes⟩
  rw [h.start]

variable {config : Option RateLimitConfig}

omit [DecidableEq κ] in
theorem CountsMatch.congr {d' : Dimension κ} (h : d.CountsMatch config counted time)
    (hc : d'.counters = d.counters) (hle : time ≤ now) : d'.CountsMatch config counted now := by
  intro cfg hcfg key
  rw [hc]
  exact (h cfg hcfg key).mono hle

theorem CountsMatch.recordIf (h : d.CountsMatch config counted now) (banDuration : Option ℕ) (key : κ)
    (frameLen : UInt64) :
    (d.recordIf none config banDuration now key frameLen).2.CountsMatch config
      (Function.update counted key (counted key ++ [(now, frameLen.toNat)])) now := by
  intro cfg hcfg k
  subst hcfg
  simp only [Dimension.recordIf, record_unbounded]
  by_cases hk : k = key
  · subst hk
    simp only [Function.update_self, Load.current_snoc]
    exact ((h cfg rfl k).next frameLen).tracks _
  · simp only [Function.update_of_ne hk]
    exact h cfg rfl k

omit [DecidableEq κ] in
theorem CountsMatch.cleanup (h : d.CountsMatch config counted now) {staleThreshold : ℕ}
    (hstale : ∀ cfg, config = some cfg → cfg.period ≤ staleThreshold) :
    (d.cleanup now staleThreshold).CountsMatch config counted now := by
  intro cfg hcfg key
  have hkey := h cfg hcfg key
  simp only [Dimension.cleanup]
  cases hk : d.counters key with
  | none => simpa [hk] using hkey
  | some counter =>
    rw [hk] at hkey
    by_cases hlt : now - counter.windowStart < staleThreshold
    · simpa [Option.filter, hlt] using hkey
    · -- the deleted window is at least two periods old
      obtain ⟨n, b, hl, -, -⟩ := hkey
      have hperiod := hstale cfg hcfg
      simp only [Option.filter, hlt, decide_false, Bool.false_eq_true, if_false, Tracks, hl,
        Option.some.injEq, forall_eq']
      omega

end Dimension

/-! ### The limiter -/

/-- The frames of a key that were counted: instant and length. -/
def Entry.counted {κ : Type} [DecidableEq κ] (keyOf : Frame → κ) (key : κ) (e : Entry) :
    Option (ℕ × ℕ) :=
  match e.call with
  | .checkAndRecord f =>
    if keyOf f = key ∧ e.answer ≠ .verdict (some .banned) then some (f.now, f.frameLen.toNat) else none
  | _ => none

theorem counted_eq_update {κ : Type} [DecidableEq κ] (counted : κ → List (ℕ × ℕ)) (key : κ)
    (x : ℕ × ℕ) : (fun k => counted k ++ (if key = k then some x else none).toList) =
      Function.update counted key (counted key ++ [x]) := by
  funext k
  by_cases hk : key = k
  · subst hk
    simp
  · simp [hk, Function.update_of_ne (Ne.symm hk)]

namespace RateLimiterState

theorem period_le_maxPeriod (rl : RateLimiterState) {cfg : RateLimitConfig}
    (h : rl.config.connection = some cfg ∨ rl.config.ip = some cfg) : cfg.period ≤ rl.maxPeriod := by
  unfold maxPeriod
  rcases h with h | h
  · cases hi : rl.config.ip <;> simp [h]
  · cases hc : rl.config.connection <;> simp [h]

theorem perform_countsMatch {rl : RateLimiterState} {conn : String → List (ℕ × ℕ)}
    {ip : IpAddr → List (ℕ × ℕ)} {time : ℕ} {call : LimiterCall}
    (hconn : rl.conn.CountsMatch rl.config.connection conn time)
    (hip : rl.ip.CountsMatch rl.config.ip ip time) (hle : time ≤ call.now) :
    (rl.perform call).2.conn.CountsMatch rl.config.connection
        (fun key => conn key ++ ((rl.entry call).counted Frame.connectionId key).toList) call.now ∧
      (rl.perform call).2.ip.CountsMatch rl.config.ip
        (fun key => ip key ++ ((rl.entry call).counted Frame.ip key).toList) call.now := by
  cases call with
  | checkAndRecord f =>
    change time ≤ f.now at hle
    cases hc : rl.counts f with
    | false =>
      obtain ⟨-, hcc, hci⟩ := checkBans_frame rl f.now f.connectionId f.ip
      simp only [perform_banned hc, entry, Entry.counted, ne_eq, not_true_eq_false, and_false, if_false,
        Option.toList_none, List.append_nil]
      exact ⟨hconn.congr hcc hle, hip.congr hci hle⟩
    | true =>
      have hfree : (rl.perform (.checkAndRecord f)).1 ≠ .verdict (some .banned) := by
        simp [perform_eq_banned, hc]
      have hconn := (hconn.congr (Dimension.checkBan_counters _ f.now f.connectionId) hle).recordIf
        rl.config.banDuration f.connectionId f.frameLen
      have hip := (hip.congr (Dimension.checkBan_counters _ f.now f.ip) hle).recordIf
        rl.config.banDuration f.ip f.frameLen
      simp only [entry, Entry.counted, hfree, ne_eq, not_false_eq_true, and_true]
      rw [perform_counted hc]
      simp only [counted_eq_update]
      exact ⟨hconn, hip⟩
  | isIpBanned now addr =>
    simp only [entry, Entry.counted, Option.toList_none, List.append_nil]
    exact ⟨hconn.congr rfl hle, hip.congr (Dimension.checkBan_counters ..) hle⟩
  | cleanup now =>
    simp only [entry, Entry.counted, Option.toList_none, List.append_nil, perform, performOn, cleanup]
    split
    · refine ⟨(hconn.congr rfl hle).cleanup fun cfg hcfg => ?_,
        (hip.congr rfl hle).cleanup fun cfg hcfg => ?_⟩
      · have := rl.period_le_maxPeriod (.inl hcfg)
        omega
      · have := rl.period_le_maxPeriod (.inr hcfg)
        omega
    · exact ⟨hconn.congr rfl hle, hip.congr rfl hle⟩

end RateLimiterState

namespace LimiterRun

/-- The counters of both dimensions follow the log. -/
structure CountsKept (r : LimiterRun) : Prop where
  conn : r.limiter.conn.CountsMatch r.limiter.config.connection
    (fun key => r.log.filterMap (Entry.counted Frame.connectionId key)) r.time
  ip : r.limiter.ip.CountsMatch r.limiter.config.ip
    (fun key => r.log.filterMap (Entry.counted Frame.ip key)) r.time

theorem init_countsKept (config : RateLimiter) : (init config).CountsKept :=
  ⟨fun _ _ _ _ h => (by cases h), fun _ _ _ _ h => (by cases h)⟩

theorem step_countsKept {call : LimiterCall} {r r' : LimiterRun} (h : r.CountsKept)
    (hs : step call r = some r') : r'.CountsKept := by
  obtain ⟨hle, rfl⟩ := step_eq_some hs
  obtain ⟨hconn, hip⟩ := RateLimiterState.perform_countsMatch h.conn h.ip hle
  refine ⟨?_, ?_⟩ <;> dsimp only <;> rw [RateLimiterState.perform_config]
  · simpa only [History.filterMap_snoc] using hconn
  · simpa only [History.filterMap_snoc] using hip

end LimiterRun

end Wscall.Server
