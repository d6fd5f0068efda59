import Wscall.Server.LimiterRun

/-!
# The limiter's arithmetic (`rate_limiter.rs:107-145`, `240-343`)

Three computations can leave the range of their type: the expiry `now + ban_duration` of a
frame that is over a limit, the threshold `max_period * 2` of `cleanup`, and the two counter
additions. A meter counts the frames and bytes of each window exactly, next to the limiter.
-/

namespace Wscall.Server

/-- The frames counted in the window that is open, and their bytes. -/
structure Tally where
  messages : ℕ
  bytes : ℕ

/-! ### One dimension -/

namespace Dimension

variable {κ : Type} [DecidableEq κ]

def tallyAfter (d : Dimension κ) (config : Option RateLimitConfig) (now : ℕ) (key : κ)
    (frameLen : UInt64) (tally : κ → Tally) : κ → Tally :=
  match config with
  | none => tally
  | some cfg =>
    Function.update tally key
      (if d.opensWindow cfg now key then ⟨1, frameLen.toNat⟩
      else ⟨(tally key).messages + 1, (tally key).bytes + frameLen.toNat⟩)

/-- The two `+=` of a frame that finds a counter stay below 2^64. -/
def AddsInRange (d : Dimension κ) (config : Option RateLimitConfig) (now : ℕ) (key : κ)
    (frameLen : UInt64) : Prop :=
  ∀ cfg counter, config = some cfg → d.counters key = some counter →
    (counter.maybeReset now cfg.period).messageCount.toNat + 1 < 2 ^ 64 ∧
      (counter.maybeReset now cfg.period).byteCount.toNat + frameLen.toNat < 2 ^ 64

/-- The counters are the exact ones. -/
def Counted (d : Dimension κ) (tally : κ → Tally) : Prop :=
  ∀ key counter, d.counters key = some counter →
    counter.messageCount.toNat = (tally key).messages ∧ counter.byteCount.toNat = (tally key).bytes

/-- A ban that starts now ends within the clock. -/
def Bannable (clock : Clock) (banDuration : Option ℕ) (now : ℕ) : Prop :=
  ∀ duration last, banDuration = some duration → clock = some last → now + duration ≤ last

instance (clock : Clock) (banDuration : Option ℕ) (now : ℕ) :
    Decidable (Bannable clock banDuration now) :=
  decidable_of_iff (banDuration.all fun duration => clock.all fun last => now + duration ≤ last)
    (by cases banDuration <;> cases clock <;> simp [Bannable])

section Rules

variable {d d' : Dimension κ} {clock : Clock} {config : Option RateLimitConfig}
  {banDuration : Option ℕ} {now : ℕ} {key : κ} {frameLen : UInt64} {tally : κ → Tally}

theorem after_isSome (clock : Clock) (now duration : ℕ) :
    (clock.after now duration).isSome ↔ ∀ last, clock = some last → now + duration ≤ last := by
  cases clock with
  | none => simp [Clock.after]
  | some last =>
    by_cases h : now + duration ≤ last
    · simp [Clock.after, h]
    · simp [Clock.after, h]

/-- A threshold test panics exactly where a ban is due that the clock cannot hold. -/
theorem limit_isSome (exceeded : Bool) :
    (d.limit clock banDuration now key exceeded).1.isSome ↔
      (exceeded = true → Bannable clock banDuration now) := by
  cases exceeded with
  | false => simp [limit]
  | true =>
    cases banDuration with
    | none => simp [limit, Bannable]
    | some duration =>
      have hafter := after_isSome clock now duration
      have hlimit : (d.limit clock (some duration) now key true).1.isSome =
          (clock.after now duration).isSome := by
        simp only [limit]
        cases clock.after now duration <;> rfl
      rw [hlimit, hafter]
      constructor
      · intro h _ duration' last hduration hlast
        cases hduration
        exact h last hlast
      · intro h last hlast
        exact h rfl duration last rfl hlast

theorem recordIf_isSome :
    (d.recordIf clock config banDuration now key frameLen).1.isSome ↔
      (d.exceedsIf config now key frameLen = true → Bannable clock banDuration now) := by
  cases config with
  | none => simp [recordIf, exceedsIf]
  | some cfg => rw [recordIf, record_eq, limit_isSome, exceedsIf, Option.any_some]

omit [DecidableEq κ] in
theorem Counted.congr (h : d.Counted tally) (hc : d'.counters = d.counters) : d'.Counted tally := by
  simpa only [Counted, hc] using h

omit [DecidableEq κ] in
theorem Counted.cleanup (h : d.Counted tally) (now staleThreshold : ℕ) :
    (d.cleanup now staleThreshold).Counted tally := by
  intro key counter hk
  exact h key counter (Option.eq_some_of_filter_eq_some hk)

theorem tallyAfter_bytes_le {n : ℕ} (h : ∀ key, (tally key).bytes ≤ n) (key' : κ) :
    (d.tallyAfter config now key frameLen tally key').bytes ≤ n + frameLen.toNat := by
  have hkey := h key
  have hkey' := h key'
  cases config with
  | none => exact Nat.le_add_right_of_le hkey'
  | some cfg =>
    simp only [tallyAfter, Function.update_apply]
    split
    · split
      · dsimp only
        omega
      · dsimp only
        omega
    · omega

theorem Counted.nextCounter {cfg : RateLimitConfig} (h : d.Counted tally)
    (hadds : d.AddsInRange (some cfg) now key frameLen) :
    (d.nextCounter cfg now key frameLen).messageCount.toNat =
        (d.tallyAfter (some cfg) now key frameLen tally key).messages ∧
      (d.nextCounter cfg now key frameLen).byteCount.toNat =
        (d.tallyAfter (some cfg) now key frameLen tally key).bytes := by
  simp only [tallyAfter, Function.update_self]
  cases hk : d.counters key with
  | none => simp [Dimension.nextCounter, opensWindow, hk]
  | some counter =>
    obtain ⟨hmessages, hbytes⟩ := hadds cfg counter rfl hk
    simp only [Dimension.nextCounter, opensWindow, hk]
    by_cases he : counter.elapsed now cfg.period = true
    · simp [WindowCounter.maybeReset_add he, he]
    · rw [WindowCounter.add_messageCount hmessages, WindowCounter.add_byteCount hbytes]
      obtain ⟨hm, hb⟩ := h key counter hk
      simp [WindowCounter.maybeReset, he, hm, hb]

theorem recordIf_counters :
    (d.recordIf clock config banDuration now key frameLen).2.counters =
      config.elim d.counters fun cfg =>
        Function.update d.counters key (some (d.nextCounter cfg now key frameLen)) := by
  cases config with
  | none => rfl
  | some cfg => simp only [recordIf, record_eq, limit_counters, setCounter, Option.elim_some]

theorem recordIf_counters_congr (hc : d'.counters = d.counters) :
    (d'.recordIf clock config banDuration now key frameLen).2.counters =
      (d.recordIf clock config banDuration now key frameLen).2.counters := by
  rw [recordIf_counters, recordIf_counters, hc]
  cases config with
  | none => rfl
  | some cfg => simp only [Option.elim_some, nextCounter, hc]

theorem Counted.recordIf (h : d.Counted tally) (hadds : d.AddsInRange config now key frameLen)
    (hc : d'.counters = (d.recordIf clock config banDuration now key frameLen).2.counters) :
    d'.Counted (d.tallyAfter config now key frameLen tally) := by
  rw [recordIf_counters] at hc
  cases config with
  | none => exact h.congr hc
  | some cfg =>
    intro k counter hk
    rw [hc, Option.elim_some] at hk
    by_cases hkey : k = key
    · subst hkey
      rw [Function.update_self, Option.some.injEq] at hk
      subst hk
      exact h.nextCounter hadds
    · rw [Function.update_of_ne hkey] at hk
      simpa [tallyAfter, hkey] using h k counter hk

omit [DecidableEq κ] in
theorem addsInRange_some {cfg : RateLimitConfig} {counter : WindowCounter}
    (hk : d.counters key = some counter) :
    d.AddsInRange (some cfg) now key frameLen ↔
      (counter.maybeReset now cfg.period).messageCount.toNat + 1 < 2 ^ 64 ∧
        (counter.maybeReset now cfg.period).byteCount.toNat + frameLen.toNat < 2 ^ 64 := by
  constructor
  · intro h
    exact h cfg counter rfl hk
  · intro h cfg' counter' hcfg hk'
    cases hcfg
    rw [hk] at hk'
    cases hk'
    exact h

/-- While the bytes of a window stay below 2^64, only the number of its frames can overflow. -/
theorem Counted.addsInRange_iff (h : d.Counted tally)
    (hbytes : (d.tallyAfter config now key frameLen tally key).bytes < 2 ^ 64) :
    d.AddsInRange config now key frameLen ↔
      (config.isSome → (d.tallyAfter config now key frameLen tally key).messages < 2 ^ 64) := by
  cases config with
  | none => simp [AddsInRange]
  | some cfg =>
    simp only [tallyAfter, Function.update_self, Option.isSome_some, forall_const] at hbytes ⊢
    cases hk : d.counters key with
    | none => simp [AddsInRange, opensWindow, hk]
    | some counter =>
      rw [addsInRange_some hk]
      simp only [opensWindow, hk] at hbytes ⊢
      by_cases he : counter.elapsed now cfg.period = true
      · simp only [WindowCounter.maybeReset, he, if_true] at hbytes ⊢
        simpa using frameLen.toNat_lt
      · obtain ⟨hm, hb⟩ := h key counter hk
        simp only [WindowCounter.maybeReset, he, Bool.false_eq_true, if_false, hm, hb] at hbytes ⊢
        exact and_iff_left hbytes

end Rules

end Dimension

/-! ### The limiter -/

namespace RateLimiterState

open Dimension

variable {rl : RateLimiterState} {clock : Clock} {f : Frame}

/-- Every computation of the call stays within its type, and the call returns. -/
def InRange (clock : Clock) (rl : RateLimiterState) : LimiterCall → Prop
  | .checkAndRecord f =>
    (rl.checkAndRecord clock f.now f.connectionId f.ip f.frameLen).1.isSome ∧
      (rl.counts f = true →
        rl.conn.AddsInRange rl.config.connection f.now f.connectionId f.frameLen ∧
        rl.ip.AddsInRange rl.config.ip f.now f.ip f.frameLen)
  | .isIpBanned _ _ => True
  | .cleanup now => (rl.cleanup now).isSome

/-- The check of a counted frame against its connection's limits. -/
def connCheck (clock : Clock) (rl : RateLimiterState) (f : Frame) : Option Bool × RateLimiterState :=
  (rl.checkBans f.now f.connectionId f.ip).2.recordConnection clock f.now f.connectionId f.frameLen

/-- The check against its address's limits, which is made if that one returns. -/
def ipCheck (clock : Clock) (rl : RateLimiterState) (f : Frame) : Option Bool × RateLimiterState :=
  (rl.connCheck clock f).2.recordIp clock f.now f.ip f.frameLen

def reachesIp (clock : Clock) (rl : RateLimiterState) (f : Frame) : Bool :=
  rl.counts f && (rl.connCheck clock f).1.isSome

theorem cleanup_isSome (rl : RateLimiterState) (now : ℕ) :
    (rl.cleanup now).isSome ↔ rl.maxPeriod * 2 ≤ durationMax := by
  by_cases h : rl.maxPeriod * 2 ≤ durationMax
  · simp [cleanup, h]
  · simp [cleanup, h]

theorem connCheck_isSome (rl : RateLimiterState) (clock : Clock) (f : Frame) :
    (rl.connCheck clock f).1.isSome ↔
      (rl.conn.exceedsIf rl.config.connection f.now f.connectionId f.frameLen = true →
        Bannable clock rl.config.banDuration f.now) := by
  obtain ⟨hcfg, hconn, -⟩ := checkBans_frame rl f.now f.connectionId f.ip
  simp only [connCheck, recordConnection, recordIf_isSome, hcfg, exceedsIf_congr hconn]

theorem ipCheck_isSome (rl : RateLimiterState) (clock : Clock) (f : Frame) :
    (rl.ipCheck clock f).1.isSome ↔
      (rl.ip.exceedsIf rl.config.ip f.now f.ip f.frameLen = true →
        Bannable clock rl.config.banDuration f.now) := by
  obtain ⟨hcfg, -, hip⟩ := checkBans_frame rl f.now f.connectionId f.ip
  simp only [ipCheck, connCheck, recordIp, recordConnection, recordIf_isSome, hcfg,
    exceedsIf_congr hip]

theorem checkAndRecord_counted (h : rl.counts f = true) :
    (rl.checkAndRecord clock f.now f.connectionId f.ip f.frameLen).1.isSome =
        ((rl.connCheck clock f).1.isSome && (rl.ipCheck clock f).1.isSome) ∧
      ((rl.connCheck clock f).1.isSome →
        (rl.checkAndRecord clock f.now f.connectionId f.ip f.frameLen).2 =
          (rl.ipCheck clock f).2) := by
  simp only [counts, Bool.not_eq_true'] at h
  simp only [ipCheck, connCheck]
  rcases h₁ : rl.checkBans f.now f.connectionId f.ip with ⟨banned, rl₁⟩
  rcases h₂ : rl₁.recordConnection clock f.now f.connectionId f.frameLen with ⟨c, rl₂⟩
  rcases h₃ : rl₂.recordIp clock f.now f.ip f.frameLen with ⟨i, rl₃⟩
  obtain rfl : banned = false := by simpa only [h₁] using h
  simp only [checkAndRecord_cases rl clock f.now f.connectionId f.ip f.frameLen h₁ h₂ h₃]
  cases c with
  | none => simp
  | some c => cases i <;> simp

theorem connCheck_returns (h : rl.counts f = true)
    (hreturns : (rl.checkAndRecord clock f.now f.connectionId f.ip f.frameLen).1.isSome) :
    (rl.connCheck clock f).1.isSome := by
  rw [(checkAndRecord_counted h).1, Bool.and_eq_true] at hreturns
  exact hreturns.1

theorem checkAndRecord_isSome (h : rl.counts f = true) :
    (rl.checkAndRecord clock f.now f.connectionId f.ip f.frameLen).1.isSome ↔
      (rl.conn.exceedsIf rl.config.connection f.now f.connectionId f.frameLen = true ∨
          rl.ip.exceedsIf rl.config.ip f.now f.ip f.frameLen = true →
        Bannable clock rl.config.banDuration f.now) := by
  rw [(checkAndRecord_counted h).1, Bool.and_eq_true, connCheck_isSome, ipCheck_isSome, or_imp]

theorem checkAndRecord_counters (h : rl.counts f = true)
    (hconn : (rl.connCheck clock f).1.isSome) :
    (rl.checkAndRecord clock f.now f.connectionId f.ip f.frameLen).2.conn.counters =
        (rl.conn.recordIf clock rl.config.connection rl.config.banDuration f.now f.connectionId
          f.frameLen).2.counters ∧
      (rl.checkAndRecord clock f.now f.connectionId f.ip f.frameLen).2.ip.counters =
        (rl.ip.recordIf clock rl.config.ip rl.config.banDuration f.now f.ip
          f.frameLen).2.counters := by
  obtain ⟨hcfg, hc, hi⟩ := checkBans_frame rl f.now f.connectionId f.ip
  rw [(checkAndRecord_counted h).2 hconn]
  simp only [ipCheck, connCheck, recordIp, recordConnection, hcfg]
  exact ⟨recordIf_counters_congr hc, recordIf_counters_congr hi⟩

end RateLimiterState

/-! ### The metered limiter -/

/-- The limiter, the time of its last call, and the frames and bytes of each open window. -/
structure Meter where
  limiter : RateLimiterState
  time : ℕ
  conn : String → Tally
  ip : IpAddr → Tally

/-- The bytes a call brings. -/
def LimiterCall.frameLen : LimiterCall → ℕ
  | .checkAndRecord f => f.frameLen.toNat
  | _ => 0

namespace Meter

open Dimension RateLimiterState

def init (config : RateLimiter) : Meter := ⟨config.build, 0, fun _ => ⟨0, 0⟩, fun _ => ⟨0, 0⟩⟩

def connAfter (m : Meter) : LimiterCall → String → Tally
  | .checkAndRecord f =>
    if m.limiter.counts f then
      m.limiter.conn.tallyAfter m.limiter.config.connection f.now f.connectionId f.frameLen m.conn
    else m.conn
  | _ => m.conn

def ipAfter (clock : Clock) (m : Meter) : LimiterCall → IpAddr → Tally
  | .checkAndRecord f =>
    if m.limiter.reachesIp clock f then
      m.limiter.ip.tallyAfter m.limiter.config.ip f.now f.ip f.frameLen m.ip
    else m.ip
  | _ => m.ip

def step (clock : Clock) (call : LimiterCall) (m : Meter) : Option Meter :=
  if call.now < m.time then none
  else some ⟨(m.limiter.performOn clock call).2, call.now, m.connAfter call, m.ipAfter clock call⟩

/-- The bytes counted in each window stay below 2^64. -/
def BytesFit (clock : Clock) (m : Meter) (call : LimiterCall) : Prop :=
  (∀ connectionId, (m.connAfter call connectionId).bytes < 2 ^ 64) ∧
    ∀ ip, (m.ipAfter clock call ip).bytes < 2 ^ 64

def InRange (clock : Clock) (m : Meter) (call : LimiterCall) : Prop :=
  m.limiter.InRange clock call

/-- What the configuration and the frames have to meet: twice the longest period is a `Duration`,
a frame over a limit comes early enough for its ban to end within the clock, and no window takes
2^64 frames. -/
def Bounded (clock : Clock) (m : Meter) : LimiterCall → Prop
  | .checkAndRecord f => m.limiter.counts f = true →
    (m.limiter.conn.exceedsIf m.limiter.config.connection f.now f.connectionId f.frameLen = true ∨
        m.limiter.ip.exceedsIf m.limiter.config.ip f.now f.ip f.frameLen = true →
      Bannable clock m.limiter.config.banDuration f.now) ∧
    (m.limiter.config.connection.isSome →
      (m.connAfter (.checkAndRecord f) f.connectionId).messages < 2 ^ 64) ∧
    (m.limiter.config.ip.isSome → (m.ipAfter clock (.checkAndRecord f) f.ip).messages < 2 ^ 64)
  | .isIpBanned _ _ => True
  | .cleanup _ => m.limiter.maxPeriod * 2 ≤ durationMax

instance (clock : Clock) (m : Meter) (call : LimiterCall) : Decidable (m.Bounded clock call) := by
  cases call <;> unfold Bounded <;> infer_instance

/-- The limiter's counters are exact. -/
def Exact (m : Meter) : Prop := m.limiter.conn.Counted m.conn ∧ m.limiter.ip.Counted m.ip

variable {clock : Clock} {m m' : Meter} {call : LimiterCall}

theorem exact_init (config : RateLimiter) : (init config).Exact := by
  constructor
  · intro _ _ h
    cases h
  · intro _ _ h
    cases h

theorem step_eq_some (h : step clock call m = some m') :
    m' = ⟨(m.limiter.performOn clock call).2, call.now, m.connAfter call, m.ipAfter clock call⟩ := by
  unfold step at h
  split at h
  · cases h
  · cases h
    rfl

/-- Calls in range keep the counters exact. -/
theorem Exact.step (hr : m.InRange clock call) (h : m.Exact) (hs : step clock call m = some m') :
    m'.Exact := by
  obtain rfl := step_eq_some hs
  cases call with
  | isIpBanned now ip => exact ⟨h.1, h.2.congr (checkBan_counters ..)⟩
  | cleanup now =>
    have hle := (cleanup_isSome m.limiter now).mp hr
    simp only [performOn, RateLimiterState.cleanup, hle, if_true]
    exact ⟨h.1.cleanup now _, h.2.cleanup now _⟩
  | checkAndRecord f =>
    cases hc : m.limiter.counts f with
    | false =>
      obtain ⟨-, hconn, hip⟩ := checkBans_frame m.limiter f.now f.connectionId f.ip
      simp only [performOn, checkAndRecord_banned hc, connAfter, ipAfter, reachesIp, hc,
        Bool.false_and, Bool.false_eq_true, if_false]
      exact ⟨h.1.congr hconn, h.2.congr hip⟩
    | true =>
      obtain ⟨hreturns, hadds⟩ := hr
      obtain ⟨haddsConn, haddsIp⟩ := hadds hc
      have hfirst := connCheck_returns hc hreturns
      obtain ⟨hconn, hip⟩ := checkAndRecord_counters hc hfirst
      simp only [performOn, connAfter, ipAfter, reachesIp, hc, hfirst, Bool.and_self, if_true]
      exact ⟨h.1.recordIf haddsConn hconn, h.2.recordIf haddsIp hip⟩

theorem inRange_iff_bounded (h : m.Exact) (hbytes : m.BytesFit clock call) :
    m.InRange clock call ↔ m.Bounded clock call := by
  cases call with
  | isIpBanned now ip => exact Iff.rfl
  | cleanup now => exact cleanup_isSome m.limiter now
  | checkAndRecord f =>
    cases hc : m.limiter.counts f with
    | false => simp [InRange, RateLimiterState.InRange, Bounded, hc, checkAndRecord_banned hc]
    | true =>
      simp only [InRange, RateLimiterState.InRange, Bounded, hc, forall_const,
        ← checkAndRecord_isSome hc]
      refine and_congr_right fun hreturns => ?_
      -- the call returns, so the frame is counted for its address too
      have hreaches : m.limiter.reachesIp clock f = true := by
        rw [reachesIp, hc, connCheck_returns hc hreturns, Bool.and_self]
      have hconn := hbytes.1 f.connectionId
      have hip := hbytes.2 f.ip
      simp only [connAfter, hc, if_true] at hconn ⊢
      simp only [ipAfter, hreaches, if_true] at hip ⊢
      exact and_congr (h.1.addsInRange_iff hconn) (h.2.addsInRange_iff hip)

theorem after_bytes_le (clock : Clock) {n : ℕ}
    (hconn : ∀ connectionId, (m.conn connectionId).bytes ≤ n) (hip : ∀ ip, (m.ip ip).bytes ≤ n)
    (call : LimiterCall) :
    (∀ connectionId, (m.connAfter call connectionId).bytes ≤ n + call.frameLen) ∧
      ∀ ip, (m.ipAfter clock call ip).bytes ≤ n + call.frameLen := by
  cases call with
  | isIpBanned now ip => exact ⟨hconn, hip⟩
  | cleanup now => exact ⟨hconn, hip⟩
  | checkAndRecord f =>
    simp only [connAfter, ipAfter, LimiterCall.frameLen]
    constructor
    · intro connectionId
      split
      · exact tallyAfter_bytes_le hconn connectionId
      · exact Nat.le_add_right_of_le (hconn connectionId)
    · intro ip
      split
      · exact tallyAfter_bytes_le hip ip
      · exact Nat.le_add_right_of_le (hip ip)

/-- Fewer than 2^64 bytes in all are fewer in each window. -/
theorem bytesFit_of_total {calls : List LimiterCall} {n : ℕ}
    (hconn : ∀ connectionId, (m.conn connectionId).bytes ≤ n) (hip : ∀ ip, (m.ip ip).bytes ≤ n)
    (htotal : n + (calls.map LimiterCall.frameLen).sum < 2 ^ 64) :
    Machine.Along (Meter.step clock) (BytesFit clock) calls m := by
  induction calls generalizing m n with
  | nil => trivial
  | cons call calls ih =>
    rw [List.map_cons, List.sum_cons] at htotal
    obtain ⟨hconn', hip'⟩ := after_bytes_le clock hconn hip call
    simp only [Machine.Along]
    cases hs : Meter.step clock call m with
    | none => trivial
    | some m' =>
      obtain rfl := step_eq_some hs
      refine ⟨⟨fun connectionId => ?_, fun ip => ?_⟩, ih hconn' hip' (by omega)⟩
      · have := hconn' connectionId
        omega
      · have := hip' ip
        omega

/-- The exact condition for the limiter's arithmetic to stay in range and its calls to return, in
every run in which the bytes of a window stay below 2^64. -/
theorem arithmetic_inRange_iff (clock : Clock) (config : RateLimiter) {calls : List LimiterCall}
    (hbytes : Machine.Along (step clock) (BytesFit clock) calls (init config)) :
    Machine.Along (step clock) (InRange clock) calls (init config) ↔
      Machine.Along (step clock) (Bounded clock) calls (init config) := by
  constructor
  · intro h
    refine (hbytes.and h).imp (I := Exact) ?_ (exact_init config)
    rintro call m m' ⟨hb, hr⟩ hm hs
    exact ⟨(inRange_iff_bounded hm hb).mp hr, hm.step hr hs⟩
  · intro h
    refine (hbytes.and h).imp (I := Exact) ?_ (exact_init config)
    rintro call m m' ⟨hb, hbounded⟩ hm hs
    have hr := (inRange_iff_bounded hm hb).mpr hbounded
    exact ⟨hr, hm.step hr hs⟩

/-- A `timespec` with 64-bit seconds. -/
def linuxClock : Clock := some (2 ^ 63 * 10 ^ 9 - 1)

def oneMessage : RateLimiter := ⟨some ⟨10 ^ 9, some 1, none⟩, none, some (60 * 10 ^ 9)⟩

def oneFrame (now : ℕ) : Frame := ⟨now, "c", .v4 1, 100⟩

theorem arithmetic_inRange_iff_oneMessage :
    Machine.Along (step linuxClock) (InRange linuxClock)
      [.checkAndRecord (oneFrame 0), .checkAndRecord (oneFrame 1), .cleanup 2] (init oneMessage) := by
  refine (arithmetic_inRange_iff linuxClock oneMessage
    (bytesFit_of_total (n := 0) (fun _ => le_rfl) (fun _ => le_rfl) (by decide +kernel))).mpr ?_
  exact ⟨by decide +kernel, by decide +kernel, by decide +kernel, trivial⟩

def endlessBan : RateLimiter := ⟨some ⟨10 ^ 9, some 0, none⟩, none, some durationMax⟩

def endlessPeriod : RateLimiter := ⟨some ⟨durationMax, none, none⟩, none, none⟩

/-- A frame over a limit panics where it should be banned for good, and the first cleanup panics
where windows never end. -/
theorem endless_durations_panic :
    (Machine.Along (step linuxClock) (BytesFit linuxClock) [.checkAndRecord (oneFrame 0)]
        (init endlessBan) ∧
      (endlessBan.build.checkAndRecord linuxClock 0 "c" (.v4 1) 100).1 = none) ∧
    (Machine.Along (step linuxClock) (BytesFit linuxClock) [.cleanup 0] (init endlessPeriod) ∧
      (endlessPeriod.build.cleanup 0).isNone) := by
  refine ⟨⟨?_, by decide +kernel⟩, ?_, by decide +kernel⟩
  · exact bytesFit_of_total (n := 0) (fun _ => le_rfl) (fun _ => le_rfl) (by decide +kernel)
  · exact bytesFit_of_total (n := 0) (fun _ => le_rfl) (fun _ => le_rfl) (by decide +kernel)

end Meter

end Wscall.Server
