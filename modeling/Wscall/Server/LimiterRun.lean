import Wscall.Lib.History
import Wscall.Server.ByteBudget

/-!
# Runs of the rate limiter

A run is a sequence of calls of `check_and_record`, `is_ip_banned` and `cleanup` at
instants that do not go back, on a clock without end. The log keeps each call with its
answer and with the threshold tests that a counted frame failed.
-/

namespace Wscall.Server

inductive LimiterCall where
  | checkAndRecord (f : Frame)
  | isIpBanned (now : ℕ) (ip : IpAddr)
  | cleanup (now : ℕ)

def LimiterCall.now : LimiterCall → ℕ
  | .checkAndRecord f => f.now
  | .isIpBanned now _ => now
  | .cleanup now => now

inductive Answer where
  | verdict (v : Option Verdict)
  | ipBanned (banned : Bool)
  | cleaned
  deriving DecidableEq

/-! ### One dimension -/

namespace Dimension

variable {κ : Type} [DecidableEq κ]

/-- The counter a recorded frame leaves. -/
def nextCounter (d : Dimension κ) (config : RateLimitConfig) (now : ℕ) (key : κ)
    (frameLen : UInt64) : WindowCounter :=
  match d.counters key with
  | some counter => (counter.maybeReset now config.period).add frameLen
  | none => ⟨now, 1, frameLen⟩

/-- The threshold test of the path the frame takes. -/
def exceeds (d : Dimension κ) (config : RateLimitConfig) (now : ℕ) (key : κ)
    (frameLen : UInt64) : Bool :=
  match d.counters key with
  | some _ => (d.nextCounter config now key frameLen).exceeds config
  | none => config.maxMessages = some 0 || config.maxBytes = some 0

def exceedsIf (d : Dimension κ) (config : Option RateLimitConfig) (now : ℕ) (key : κ)
    (frameLen : UInt64) : Bool :=
  config.any fun cfg => d.exceeds cfg now key frameLen

/-- The bans after a threshold test. -/
def banIf (bans : κ → Option ℕ) (banDuration : Option ℕ) (now : ℕ) (key : κ) (exceeded : Bool) :
    κ → Option ℕ :=
  match exceeded, banDuration with
  | true, some duration => Function.update bans key (some (now + duration))
  | _, _ => bans

theorem limit_unbounded (d : Dimension κ) (banDuration : Option ℕ) (now : ℕ) (key : κ)
    (exceeded : Bool) :
    d.limit none banDuration now key exceeded =
      (some exceeded, { d with bans := banIf d.bans banDuration now key exceeded }) := by
  cases exceeded with
  | false => rfl
  | true => cases banDuration <;> rfl

theorem record_eq (d : Dimension κ) (clock : Clock) (config : RateLimitConfig)
    (banDuration : Option ℕ) (now : ℕ) (key : κ) (frameLen : UInt64) :
    d.record clock config banDuration now key frameLen =
      (d.setCounter key (d.nextCounter config now key frameLen)).limit clock banDuration now key
        (d.exceeds config now key frameLen) := by
  cases hk : d.counters key with
  | none => simp only [record, exceeds, nextCounter, hk]
  | some counter => simp only [record, exceeds, nextCounter, hk]

theorem record_unbounded (d : Dimension κ) (config : RateLimitConfig) (banDuration : Option ℕ)
    (now : ℕ) (key : κ) (frameLen : UInt64) :
    d.record none config banDuration now key frameLen =
      (some (d.exceeds config now key frameLen),
        ⟨Function.update d.counters key (some (d.nextCounter config now key frameLen)),
          banIf d.bans banDuration now key (d.exceeds config now key frameLen)⟩) := by
  rw [record_eq, limit_unbounded]
  rfl

theorem recordIf_flag (d : Dimension κ) (config : Option RateLimitConfig) (banDuration : Option ℕ)
    (now : ℕ) (key : κ) (frameLen : UInt64) :
    (d.recordIf none config banDuration now key frameLen).1 =
      some (d.exceedsIf config now key frameLen) := by
  cases config with
  | none => rfl
  | some config => simp only [recordIf, record_unbounded, exceedsIf, Option.any_some]

theorem recordIf_bans (d : Dimension κ) (config : Option RateLimitConfig) (banDuration : Option ℕ)
    (now : ℕ) (key : κ) (frameLen : UInt64) :
    (d.recordIf none config banDuration now key frameLen).2.bans =
      banIf d.bans banDuration now key (d.exceedsIf config now key frameLen) := by
  cases config with
  | none => rfl
  | some config => simp only [recordIf, record_unbounded, exceedsIf, Option.any_some]

omit [DecidableEq κ] in
theorem exceedsIf_congr {d d' : Dimension κ} (h : d'.counters = d.counters)
    (config : Option RateLimitConfig) (now : ℕ) (key : κ) (frameLen : UInt64) :
    d'.exceedsIf config now key frameLen = d.exceedsIf config now key frameLen := by
  simp only [exceedsIf, exceeds, nextCounter, h]

end Dimension

/-! ### The limiter -/

structure Entry where
  call : LimiterCall
  answer : Answer
  connExceeded : Bool
  ipExceeded : Bool

namespace RateLimiterState

/-- A call on a clock that may end. -/
def performOn (clock : Clock) (rl : RateLimiterState) : LimiterCall → Answer × RateLimiterState
  | .checkAndRecord f =>
    let (verdict, rl) := rl.checkAndRecord clock f.now f.connectionId f.ip f.frameLen
    (.verdict verdict, rl)
  | .isIpBanned now ip =>
    let (banned, rl) := rl.isIpBanned now ip
    (.ipBanned banned, rl)
  -- a cleanup that panics does so before it touches a table
  | .cleanup now => (.cleaned, (rl.cleanup now).getD rl)

def perform (rl : RateLimiterState) (call : LimiterCall) : Answer × RateLimiterState :=
  rl.performOn none call

/-- A frame that no ban stops is counted. -/
def counts (rl : RateLimiterState) (f : Frame) : Bool :=
  !(rl.checkBans f.now f.connectionId f.ip).1

def connExceeded (rl : RateLimiterState) : LimiterCall → Bool
  | .checkAndRecord f =>
    rl.counts f && rl.conn.exceedsIf rl.config.connection f.now f.connectionId f.frameLen
  | _ => false

def ipExceeded (rl : RateLimiterState) : LimiterCall → Bool
  | .checkAndRecord f => rl.counts f && rl.ip.exceedsIf rl.config.ip f.now f.ip f.frameLen
  | _ => false

/-- What is logged of a call. -/
def entry (rl : RateLimiterState) (call : LimiterCall) : Entry :=
  ⟨call, (rl.perform call).1, rl.connExceeded call, rl.ipExceeded call⟩

theorem checkBans_eq (rl : RateLimiterState) (now : ℕ) (connectionId : String) (ip : IpAddr) :
    rl.checkBans now connectionId ip =
      ((rl.conn.checkBan now connectionId).1 || (rl.ip.checkBan now ip).1,
        ⟨rl.config, (rl.conn.checkBan now connectionId).2,
          if (rl.conn.checkBan now connectionId).1 then rl.ip else (rl.ip.checkBan now ip).2⟩) := by
  rcases hb : rl.conn.checkBan now connectionId with ⟨banned, d⟩
  cases banned with
  | true => simp [checkBans, hb]
  | false => simp [checkBans, isIpBanned, hb]

theorem checkAndRecord_banned {rl : RateLimiterState} {f : Frame} (h : rl.counts f = false)
    (clock : Clock) :
    rl.checkAndRecord clock f.now f.connectionId f.ip f.frameLen =
      (some .banned, (rl.checkBans f.now f.connectionId f.ip).2) := by
  simp only [counts, Bool.not_eq_false'] at h
  simp only [checkAndRecord, h, if_true]

theorem perform_banned {rl : RateLimiterState} {f : Frame} (h : rl.counts f = false) :
    rl.perform (.checkAndRecord f) =
      (.verdict (some .banned), (rl.checkBans f.now f.connectionId f.ip).2) := by
  simp only [perform, performOn, checkAndRecord_banned h]

/-- A counted frame is recorded in both dimensions, and limited if either test fails. -/
theorem perform_counted {rl : RateLimiterState} {f : Frame} (h : rl.counts f = true) :
    rl.perform (.checkAndRecord f) =
      (.verdict (some (if rl.connExceeded (.checkAndRecord f) || rl.ipExceeded (.checkAndRecord f)
          then .limited else .allowed)),
        ⟨rl.config,
          ((rl.conn.checkBan f.now f.connectionId).2.recordIf none rl.config.connection
            rl.config.banDuration f.now f.connectionId f.frameLen).2,
          ((rl.ip.checkBan f.now f.ip).2.recordIf none rl.config.ip rl.config.banDuration f.now f.ip
            f.frameLen).2⟩) := by
  have hfree := h
  simp only [counts, checkBans_eq, Bool.not_eq_true', Bool.or_eq_false_iff] at hfree
  simp only [perform, performOn, checkAndRecord, checkBans_eq, hfree.1, hfree.2, Bool.or_false,
    Bool.false_eq_true, if_false, recordConnection, recordIp, Dimension.recordIf_flag,
    Dimension.exceedsIf_congr (Dimension.checkBan_counters ..), connExceeded, ipExceeded, h,
    Bool.true_and]

theorem perform_eq_banned {rl : RateLimiterState} {f : Frame} :
    (rl.perform (.checkAndRecord f)).1 = .verdict (some .banned) ↔ rl.counts f = false := by
  cases h : rl.counts f with
  | true =>
    rw [perform_counted h]
    split <;> simp
  | false => simp [perform_banned h]

theorem perform_config (rl : RateLimiterState) (call : LimiterCall) :
    (rl.perform call).2.config = rl.config := by
  cases call with
  | checkAndRecord f =>
    cases h : rl.counts f with
    | true => rw [perform_counted h]
    | false => rw [perform_banned h, checkBans_eq]
  | isIpBanned now ip => rfl
  | cleanup now =>
    simp only [perform, performOn, cleanup]
    split <;> rfl

end RateLimiterState

structure LimiterRun where
  limiter : RateLimiterState
  time : ℕ
  log : List Entry

namespace LimiterRun

def init (config : RateLimiter) : LimiterRun := ⟨config.build, 0, []⟩

def step (call : LimiterCall) (r : LimiterRun) : Option LimiterRun :=
  if call.now < r.time then none
  else some ⟨(r.limiter.perform call).2, call.now, r.log ++ [r.limiter.entry call]⟩

theorem step_eq_some {call : LimiterCall} {r r' : LimiterRun} (h : step call r = some r') :
    r.time ≤ call.now ∧
      r' = ⟨(r.limiter.perform call).2, call.now, r.log ++ [r.limiter.entry call]⟩ := by
  unfold step at h
  split at h
  · cases h
  · cases h
    exact ⟨by omega, rfl⟩

theorem run_log {calls : List LimiterCall} {r r' : LimiterRun}
    (h : Machine.run step calls r = some r') :
    r'.log.map (·.call) = r.log.map (·.call) ++ calls ∧ r'.limiter.config = r.limiter.config := by
  induction calls generalizing r with
  | nil =>
    cases h
    simp
  | cons call calls ih =>
    obtain ⟨r₁, h1, h2⟩ := Machine.run_cons_eq_some h
    obtain ⟨-, rfl⟩ := step_eq_some h1
    obtain ⟨hlog, hcfg⟩ := ih h2
    refine ⟨?_, hcfg.trans (RateLimiterState.perform_config ..)⟩
    simpa [RateLimiterState.entry] using hlog

end LimiterRun

end Wscall.Server
