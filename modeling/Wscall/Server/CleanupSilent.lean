import Wscall.Server.MessageBudget

/-!
# Cleanup cannot be seen (`rate_limiter.rs:321-343`)

`cleanup` drops counters that are twice the longest period old, and bans that have run out.
The next frame of such a key would have reset its counter; instead it takes the path of a
first frame, which tests other thresholds. The two agree on frames that are neither empty nor
larger than `max_bytes`.
-/

namespace Wscall.Server

/-! ### One dimension -/

namespace Dimension

variable {κ : Type} [DecidableEq κ] {d e : Dimension κ} {config : Option RateLimitConfig}
  {now : ℕ} {key : κ}

/-- `d` lacks counters of `e` that the next frame would reset, and bans the same keys from `now`
on. -/
structure Trims (config : Option RateLimitConfig) (now : ℕ) (d e : Dimension κ) : Prop where
  counters : ∀ key, d.counters key = e.counters key ∨ d.counters key = none ∧
    ∀ cfg counter, config = some cfg → e.counters key = some counter →
      counter.elapsed now cfg.period = true
  bans : ∀ key t, now ≤ t → (d.InForce key t ↔ e.InForce key t)

omit [DecidableEq κ] in
theorem Trims.refl (config : Option RateLimitConfig) (now : ℕ) (d : Dimension κ) :
    Trims config now d d :=
  ⟨fun _ => .inl rfl, fun _ _ _ => Iff.rfl⟩

omit [DecidableEq κ] in
theorem Trims.later (h : Trims config now d e) {t : ℕ} (hle : now ≤ t) : Trims config t d e := by
  refine ⟨fun key => ?_, fun key u hu => h.bans key u (by omega)⟩
  rcases h.counters key with heq | ⟨hnone, hold⟩
  · exact .inl heq
  · refine .inr ⟨hnone, fun cfg counter hcfg hk => ?_⟩
    have hperiod := hold cfg counter hcfg hk
    simp only [WindowCounter.elapsed, decide_eq_true_eq] at hperiod ⊢
    omega

theorem Trims.checkBan (h : Trims config now d e) (key : κ) :
    (d.checkBan now key).1 = (e.checkBan now key).1 ∧
      Trims config now (d.checkBan now key).2 (e.checkBan now key).2 := by
  refine ⟨?_, fun k => ?_, fun k t ht => ?_⟩
  · rw [Bool.eq_iff_iff, checkBan_eq_true, checkBan_eq_true]
    exact h.bans key now le_rfl
  · rw [checkBan_counters, checkBan_counters]
    exact h.counters k
  · rw [checkBan_inForce ht, checkBan_inForce ht]
    exact h.bans k t ht

/-- A frame the two paths treat alike: at least a header, and within `max_bytes`. -/
def Fair (config : RateLimitConfig) (frameLen : UInt64) : Prop :=
  5 ≤ frameLen ∧ ∀ b, config.maxBytes = some b → frameLen ≤ b

/-- The test of a first frame against a limit, where it agrees with that of a counter at `n`. -/
theorem zero_test_eq {limit : Option UInt64} {n : UInt64}
    (h : ∀ m, limit = some m → (m = 0 ↔ m < n)) : decide (limit = some 0) = limit.any (n > ·) := by
  cases limit with
  | none => rfl
  | some m => simp [h m rfl]

theorem zero_iff_lt_one (m : UInt64) : m = 0 ↔ m < 1 := by
  rw [← UInt64.toNat_inj, UInt64.lt_iff_toNat_lt]
  simp

theorem Fair.zero_iff_lt {cfg : RateLimitConfig} {frameLen : UInt64} (h : Fair cfg frameLen) {b : UInt64}
    (hb : cfg.maxBytes = some b) : b = 0 ↔ b < frameLen := by
  have hmin := UInt64.le_iff_toNat_le.mp h.1
  have hmax := UInt64.le_iff_toNat_le.mp (h.2 b hb)
  rw [← UInt64.toNat_inj, UInt64.lt_iff_toNat_lt]
  simp at hmin ⊢
  omega

omit [DecidableEq κ] in
theorem Trims.nextCounter {cfg : RateLimitConfig} (h : Trims (some cfg) now d e) (key : κ)
    (frameLen : UInt64) : d.nextCounter cfg now key frameLen = e.nextCounter cfg now key frameLen := by
  rcases h.counters key with heq | ⟨hnone, hold⟩
  · simp only [Dimension.nextCounter, heq]
  · cases hk : e.counters key with
    | none => simp only [Dimension.nextCounter, hnone, hk]
    | some counter =>
      have helapsed := hold cfg counter rfl hk
      simp only [Dimension.nextCounter, hnone, hk, WindowCounter.maybeReset_add helapsed]

omit [DecidableEq κ] in
theorem Trims.exceeds {cfg : RateLimitConfig} (h : Trims (some cfg) now d e) (key : κ)
    {frameLen : UInt64} (hfair : Fair cfg frameLen) :
    d.exceeds cfg now key frameLen = e.exceeds cfg now key frameLen := by
  have hmessages : decide (cfg.maxMessages = some 0) = cfg.maxMessages.any ((1 : UInt64) > ·) :=
    zero_test_eq fun m _ => zero_iff_lt_one m
  have hbytes : decide (cfg.maxBytes = some 0) = cfg.maxBytes.any (frameLen > ·) :=
    zero_test_eq fun b hb => hfair.zero_iff_lt hb
  rcases h.counters key with heq | ⟨hnone, hold⟩
  · simp only [Dimension.exceeds, Dimension.nextCounter, heq]
  · cases hk : e.counters key with
    | none => simp only [Dimension.exceeds, hnone, hk]
    | some counter =>
      have helapsed := hold cfg counter rfl hk
      simp only [Dimension.exceeds, Dimension.nextCounter, hnone, hk,
        WindowCounter.maybeReset_add helapsed, WindowCounter.exceeds, hmessages, hbytes]

theorem Trims.setCounter (h : Trims config now d e) (key : κ) (counter : WindowCounter) :
    Trims config now (d.setCounter key counter) (e.setCounter key counter) := by
  refine ⟨fun k => ?_, h.bans⟩
  by_cases hk : k = key
  · subst hk
    exact .inl (by simp [Dimension.setCounter])
  · simpa [Dimension.setCounter, hk] using h.counters k

theorem Trims.limit (h : Trims config now d e) (clock : Clock) (banDuration : Option ℕ) (key : κ)
    (exceeded : Bool) :
    (d.limit clock banDuration now key exceeded).1 = (e.limit clock banDuration now key exceeded).1 ∧
      Trims config now (d.limit clock banDuration now key exceeded).2
        (e.limit clock banDuration now key exceeded).2 := by
  cases exceeded with
  | false => exact ⟨rfl, h⟩
  | true =>
    cases banDuration with
    | none => exact ⟨rfl, h⟩
    | some duration =>
      simp only [Dimension.limit]
      cases clock.after now duration with
      | none => exact ⟨rfl, h⟩
      | some expiry =>
        refine ⟨rfl, h.counters, fun k t ht => ?_⟩
        by_cases hk : k = key
        · subst hk
          simp only [InForce, Function.update_self]
        · simpa only [InForce, Function.update_of_ne hk] using h.bans k t ht

theorem Trims.recordIf (h : Trims config now d e) (clock : Clock) (banDuration : Option ℕ) (key : κ)
    {frameLen : UInt64} (hfair : ∀ cfg, config = some cfg → Fair cfg frameLen) :
    (d.recordIf clock config banDuration now key frameLen).1 =
        (e.recordIf clock config banDuration now key frameLen).1 ∧
      Trims config now (d.recordIf clock config banDuration now key frameLen).2
        (e.recordIf clock config banDuration now key frameLen).2 := by
  cases config with
  | none => exact ⟨rfl, h⟩
  | some cfg =>
    simp only [Dimension.recordIf, record_eq, h.nextCounter, h.exceeds key (hfair cfg rfl)]
    exact (h.setCounter key _).limit clock banDuration key _

omit [DecidableEq κ] in
theorem Trims.cleanup (h : Trims config now d e) {staleThreshold : ℕ}
    (hstale : ∀ cfg, config = some cfg → cfg.period ≤ staleThreshold) :
    Trims config now (d.cleanup now staleThreshold) e := by
  refine ⟨fun key => ?_, fun key t ht => ?_⟩
  · rcases h.counters key with heq | ⟨hnone, hold⟩
    · cases hk : e.counters key with
      | none => exact .inl (by simp [Dimension.cleanup, heq, hk])
      | some counter =>
        by_cases hlt : now - counter.windowStart < staleThreshold
        · exact .inl (by simp [Dimension.cleanup, heq, hk, Option.filter, hlt])
        · refine .inr ⟨by simp [Dimension.cleanup, heq, hk, Option.filter, hlt], ?_⟩
          intro cfg counter' hcfg hcounter
          cases hcounter
          have hperiod := hstale cfg hcfg
          simp only [WindowCounter.elapsed, decide_eq_true_eq]
          omega
    · exact .inr ⟨by simp [Dimension.cleanup, hnone], hold⟩
  · rw [cleanup_inForce ht]
    exact h.bans key t ht

end Dimension

/-! ### The limiter -/

/-- The frame of the call, if it has one, is fair to both dimensions. -/
def LimiterCall.Fair (config : RateLimiter) : LimiterCall → Prop
  | .checkAndRecord f =>
    ∀ cfg, config.connection = some cfg ∨ config.ip = some cfg → Dimension.Fair cfg f.frameLen
  | _ => True

/-- The calls whose answers are looked at. -/
def LimiterCall.asks : LimiterCall → Bool
  | .cleanup _ => false
  | _ => true

namespace RateLimiterState

variable {config : RateLimiter} {rl rl' : RateLimiterState} {now : ℕ}

structure Trims (config : RateLimiter) (now : ℕ) (rl rl' : RateLimiterState) : Prop where
  left : rl.config = config
  right : rl'.config = config
  conn : Dimension.Trims config.connection now rl.conn rl'.conn
  ip : Dimension.Trims config.ip now rl.ip rl'.ip

theorem Trims.later (h : Trims config now rl rl') {t : ℕ} (hle : now ≤ t) : Trims config t rl rl' :=
  ⟨h.left, h.right, h.conn.later hle, h.ip.later hle⟩

theorem Trims.isIpBanned (h : Trims config now rl rl') (ip : IpAddr) :
    (rl.isIpBanned now ip).1 = (rl'.isIpBanned now ip).1 ∧
      Trims config now (rl.isIpBanned now ip).2 (rl'.isIpBanned now ip).2 :=
  ⟨(h.ip.checkBan ip).1, h.left, h.right, h.conn, (h.ip.checkBan ip).2⟩

theorem Trims.checkBans (h : Trims config now rl rl') (connectionId : String) (ip : IpAddr) :
    (rl.checkBans now connectionId ip).1 = (rl'.checkBans now connectionId ip).1 ∧
      Trims config now (rl.checkBans now connectionId ip).2 (rl'.checkBans now connectionId ip).2 := by
  obtain ⟨hconn, htrim⟩ := h.conn.checkBan connectionId
  have h' : Trims config now { rl with conn := (rl.conn.checkBan now connectionId).2 }
      { rl' with conn := (rl'.conn.checkBan now connectionId).2 } := ⟨h.left, h.right, htrim, h.ip⟩
  simp only [RateLimiterState.checkBans, hconn]
  split
  · exact ⟨rfl, h'⟩
  · exact h'.isIpBanned ip

theorem Trims.recordConnection (h : Trims config now rl rl') (clock : Clock) (connectionId : String)
    {frameLen : UInt64} (hfair : ∀ cfg, config.connection = some cfg → Dimension.Fair cfg frameLen) :
    (rl.recordConnection clock now connectionId frameLen).1 =
        (rl'.recordConnection clock now connectionId frameLen).1 ∧
      Trims config now (rl.recordConnection clock now connectionId frameLen).2
        (rl'.recordConnection clock now connectionId frameLen).2 := by
  obtain ⟨hflag, htrim⟩ := h.conn.recordIf clock config.banDuration connectionId hfair
  simp only [RateLimiterState.recordConnection, h.left, h.right]
  exact ⟨hflag, rfl, rfl, htrim, h.ip⟩

theorem Trims.recordIp (h : Trims config now rl rl') (clock : Clock) (ip : IpAddr)
    {frameLen : UInt64} (hfair : ∀ cfg, config.ip = some cfg → Dimension.Fair cfg frameLen) :
    (rl.recordIp clock now ip frameLen).1 = (rl'.recordIp clock now ip frameLen).1 ∧
      Trims config now (rl.recordIp clock now ip frameLen).2
        (rl'.recordIp clock now ip frameLen).2 := by
  obtain ⟨hflag, htrim⟩ := h.ip.recordIf clock config.banDuration ip hfair
  simp only [RateLimiterState.recordIp, h.left, h.right]
  exact ⟨hflag, rfl, rfl, h.conn, htrim⟩

theorem Trims.checkAndRecord (h : Trims config now rl rl') (clock : Clock) (connectionId : String)
    (ip : IpAddr) {frameLen : UInt64}
    (hfair : ∀ cfg, config.connection = some cfg ∨ config.ip = some cfg → Dimension.Fair cfg frameLen) :
    (rl.checkAndRecord clock now connectionId ip frameLen).1 =
        (rl'.checkAndRecord clock now connectionId ip frameLen).1 ∧
      Trims config now (rl.checkAndRecord clock now connectionId ip frameLen).2
        (rl'.checkAndRecord clock now connectionId ip frameLen).2 := by
  obtain ⟨hbanned, h₁⟩ := h.checkBans connectionId ip
  obtain ⟨hconn, h₂⟩ := h₁.recordConnection clock connectionId (fun cfg hcfg => hfair cfg (.inl hcfg))
  obtain ⟨hip, h₃⟩ := h₂.recordIp clock ip (fun cfg hcfg => hfair cfg (.inr hcfg))
  simp only [RateLimiterState.checkAndRecord, hbanned, hconn]
  split
  · exact ⟨rfl, h₁⟩
  · split
    · exact ⟨rfl, h₂⟩
    · simp only [hip]
      split
      · exact ⟨rfl, h₃⟩
      · exact ⟨rfl, h₃⟩

theorem Trims.performOn (h : Trims config now rl rl') (clock : Clock) {call : LimiterCall}
    (hle : now ≤ call.now) (hfair : call.Fair config) (hasks : call.asks = true) :
    (rl.performOn clock call).1 = (rl'.performOn clock call).1 ∧
      Trims config call.now (rl.performOn clock call).2 (rl'.performOn clock call).2 := by
  have h' := h.later hle
  cases call with
  | checkAndRecord f =>
    obtain ⟨hverdict, htrim⟩ := Trims.checkAndRecord h' clock f.connectionId f.ip hfair
    exact ⟨congrArg Answer.verdict hverdict, htrim⟩
  | isIpBanned t ip =>
    obtain ⟨hbanned, htrim⟩ := Trims.isIpBanned h' ip
    exact ⟨congrArg Answer.ipBanned hbanned, htrim⟩
  | cleanup t => cases hasks

/-- A cleanup takes nothing away that could still be seen; one that panics takes nothing. -/
theorem Trims.cleanup (h : Trims config now rl rl') : Trims config now ((rl.cleanup now).getD rl) rl' := by
  have hconn : ∀ cfg, config.connection = some cfg → cfg.period ≤ rl.maxPeriod * 2 := by
    intro cfg hcfg
    have hle := rl.period_le_maxPeriod (.inl (h.left ▸ hcfg))
    omega
  have hip : ∀ cfg, config.ip = some cfg → cfg.period ≤ rl.maxPeriod * 2 := by
    intro cfg hcfg
    have hle := rl.period_le_maxPeriod (.inr (h.left ▸ hcfg))
    omega
  unfold RateLimiterState.cleanup
  dsimp only
  split
  · exact ⟨h.left, h.right, h.conn.cleanup hconn, h.ip.cleanup hip⟩
  · exact h

/-- In a run of calls at times that do not go back, deleting the cleanups changes no verdict
and no answer about a ban. -/
theorem cleanup_unobservable (clock : Clock) (config : RateLimiter) {calls : List LimiterCall}
    (hsorted : calls.Pairwise fun a b => a.now ≤ b.now) (hfair : ∀ call ∈ calls, call.Fair config) :
    (Machine.answers (fun call rl => rl.performOn clock call) calls config.build).filter
        (fun p => p.1.asks) =
      Machine.answers (fun call rl => rl.performOn clock call) (calls.filter (·.asks)) config.build := by
  have hasked : (Machine.answers (fun call rl => rl.performOn clock call) (calls.filter (·.asks))
      config.build).filter (fun p => p.1.asks) =
        Machine.answers (fun call rl => rl.performOn clock call) (calls.filter (·.asks)) config.build := by
    refine List.filter_eq_self.mpr fun p hp => ?_
    exact (List.mem_filter.mp (Machine.mem_answers hp)).2
  rw [← hasked]
  refine Machine.answers_purge_timed (R := Trims config) (P := LimiterCall.Fair config) (fun _ h => h)
    ?_ ?_ hfair hsorted (fun _ _ => Nat.zero_le _) ⟨rfl, rfl, .refl _ _ _, .refl _ _ _⟩
  · intro now call rl rl' hle hcall hasks h
    exact h.performOn clock hle hcall hasks
  · intro now call rl rl' hle hcall hasks h
    cases call with
    | checkAndRecord f => cases hasks
    | isIpBanned t ip => cases hasks
    | cleanup t => exact Trims.cleanup (h.later hle)

/-- The cleanup drops the counter of the first frame. -/
def pausedRun : List LimiterCall :=
  [.checkAndRecord ⟨0, "c", .v4 1, 5⟩, .cleanup (3 * 10 ^ 9),
    .checkAndRecord ⟨3 * 10 ^ 9, "c", .v4 1, 6⟩, .isIpBanned (3 * 10 ^ 9) (.v4 1)]

theorem cleanup_unobservable_pausedRun :
    (Machine.answers (fun call rl => rl.performOn none call) pausedRun Ledger.tenBytes.build).filter
        (fun p => p.1.asks) =
      Machine.answers (fun call rl => rl.performOn none call) (pausedRun.filter (·.asks))
        Ledger.tenBytes.build := by
  have hfair : ∀ call ∈ pausedRun, call.Fair Ledger.tenBytes := by
    simp [pausedRun, LimiterCall.Fair, Ledger.tenBytes, Dimension.Fair]
  exact cleanup_unobservable none Ledger.tenBytes (by simp [pausedRun, LimiterCall.now]) hfair

end RateLimiterState

end Wscall.Server
