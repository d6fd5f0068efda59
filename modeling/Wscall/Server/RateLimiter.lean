import Mathlib.Tactic.Ring
import Wscall.Lib.Machine

/-!
# The rate limiter (`wscall-server/src/rate_limiter.rs`)

Fixed-window counters and bans, kept per connection and per IP address. The two
dimensions run the same code on their own tables, so they are one definition over the
key type. Instants and durations count nanoseconds; `frame_len` is a 64-bit `usize`.
-/

namespace Wscall.Server

inductive IpAddr where
  | v4 (bits : UInt32)
  | v6 (bits : BitVec 128)
  deriving DecidableEq

/-- The last instant the platform's clock type holds; `none` for a clock without end. -/
abbrev Clock := Option ℕ

/-- `now + duration`; `none` where the addition panics. -/
def Clock.after (clock : Clock) (now duration : ℕ) : Option ℕ :=
  if clock.all (fun last => now + duration ≤ last) then some (now + duration) else none

structure RateLimitConfig where
  period : ℕ
  maxMessages : Option UInt64
  maxBytes : Option UInt64

structure RateLimiter where
  connection : Option RateLimitConfig
  ip : Option RateLimitConfig
  banDuration : Option ℕ

inductive Verdict where
  | allowed
  | limited
  | banned
  deriving DecidableEq

structure WindowCounter where
  windowStart : ℕ
  messageCount : UInt64
  byteCount : UInt64

namespace WindowCounter

/-- `now.duration_since(self.window_start) >= period`. -/
def elapsed (counter : WindowCounter) (now period : ℕ) : Bool :=
  period ≤ now - counter.windowStart

def maybeReset (counter : WindowCounter) (now period : ℕ) : WindowCounter :=
  if counter.elapsed now period then ⟨now, 0, 0⟩ else counter

/-- The two `+=`, which wrap in a release build. -/
def add (counter : WindowCounter) (frameLen : UInt64) : WindowCounter :=
  { counter with
    messageCount := counter.messageCount + 1
    byteCount := counter.byteCount + frameLen }

def exceeds (counter : WindowCounter) (config : RateLimitConfig) : Bool :=
  config.maxMessages.any (counter.messageCount > ·) || config.maxBytes.any (counter.byteCount > ·)

/-- A counter that is reset counts the frame as a first one. -/
theorem maybeReset_add {counter : WindowCounter} {now period : ℕ} (h : counter.elapsed now period = true)
    (frameLen : UInt64) : (counter.maybeReset now period).add frameLen = ⟨now, 1, frameLen⟩ := by
  simp [maybeReset, h, add]

theorem add_messageCount {counter : WindowCounter} (h : counter.messageCount.toNat + 1 < 2 ^ 64)
    (frameLen : UInt64) :
    (counter.add frameLen).messageCount.toNat = counter.messageCount.toNat + 1 := by
  simp only [add, UInt64.toNat_add]
  exact Nat.mod_eq_of_lt h

theorem add_byteCount {counter : WindowCounter} {frameLen : UInt64}
    (h : counter.byteCount.toNat + frameLen.toNat < 2 ^ 64) :
    (counter.add frameLen).byteCount.toNat = counter.byteCount.toNat + frameLen.toNat := by
  simp only [add, UInt64.toNat_add]
  exact Nat.mod_eq_of_lt h

theorem byteCount_le_of_exceeds {counter : WindowCounter} {config : RateLimitConfig}
    (h : counter.exceeds config = false) {b : UInt64} (hb : config.maxBytes = some b) :
    counter.byteCount.toNat ≤ b.toNat := by
  simp only [exceeds, hb, Option.any_some, Bool.or_eq_false_iff, decide_eq_false_iff_not] at h
  exact UInt64.le_iff_toNat_le.mp (UInt64.not_lt.mp h.2)

end WindowCounter

/-- `conn_counters` and `conn_bans`, or `ip_counters` and `ip_bans`. -/
structure Dimension (κ : Type) where
  counters : κ → Option WindowCounter
  bans : κ → Option ℕ

namespace Dimension

variable {κ : Type} [DecidableEq κ]

def empty : Dimension κ := ⟨fun _ => none, fun _ => none⟩

/-- A ban that has run out is removed when it is looked at. -/
def checkBan (d : Dimension κ) (now : ℕ) (key : κ) : Bool × Dimension κ :=
  match d.bans key with
  | some expiry =>
    if now < expiry then (true, d)
    else (false, { d with bans := Function.update d.bans key none })
  | none => (false, d)

/-- What follows a threshold test: the ban, if one is configured. The flag says that the
frame is limited; it is `none` where `now + ban_dur` panics. -/
def limit (d : Dimension κ) (clock : Clock) (banDuration : Option ℕ) (now : ℕ) (key : κ) :
    Bool → Option Bool × Dimension κ
  | false => (some false, d)
  | true =>
    match banDuration with
    | none => (some true, d)
    | some duration =>
      match clock.after now duration with
      | none => (none, d)
      | some expiry => (some true, { d with bans := Function.update d.bans key (some expiry) })

def setCounter (d : Dimension κ) (key : κ) (counter : WindowCounter) : Dimension κ :=
  { d with counters := Function.update d.counters key (some counter) }

/-- Step 2 or step 3 of `check_and_record`. The two paths test different thresholds. -/
def record (d : Dimension κ) (clock : Clock) (config : RateLimitConfig) (banDuration : Option ℕ)
    (now : ℕ) (key : κ) (frameLen : UInt64) : Option Bool × Dimension κ :=
  match d.counters key with
  | some counter =>
    let counter := (counter.maybeReset now config.period).add frameLen
    (d.setCounter key counter).limit clock banDuration now key (counter.exceeds config)
  | none =>
    (d.setCounter key ⟨now, 1, frameLen⟩).limit clock banDuration now key
      (config.maxMessages = some 0 || config.maxBytes = some 0)

/-- `if let Some(cfg) = ..`: a dimension that is not configured limits nothing. -/
def recordIf (d : Dimension κ) (clock : Clock) (config : Option RateLimitConfig)
    (banDuration : Option ℕ) (now : ℕ) (key : κ) (frameLen : UInt64) :
    Option Bool × Dimension κ :=
  match config with
  | some config => d.record clock config banDuration now key frameLen
  | none => (some false, d)

/-- `retain` on both tables. -/
def cleanup (d : Dimension κ) (now staleThreshold : ℕ) : Dimension κ where
  counters key := (d.counters key).filter fun c => now - c.windowStart < staleThreshold
  bans key := (d.bans key).filter fun expiry => now < expiry

@[simp] theorem checkBan_counters (d : Dimension κ) (now : ℕ) (key : κ) :
    (d.checkBan now key).2.counters = d.counters := by
  unfold checkBan
  split
  · split <;> rfl
  · rfl

@[simp] theorem limit_counters (d : Dimension κ) (clock : Clock) (banDuration : Option ℕ) (now : ℕ)
    (key : κ) (exceeded : Bool) :
    (d.limit clock banDuration now key exceeded).2.counters = d.counters := by
  cases exceeded with
  | false => rfl
  | true =>
    simp only [limit]
    split
    · rfl
    · split <;> rfl

theorem limit_eq_false {d : Dimension κ} {clock : Clock} {banDuration : Option ℕ} {now : ℕ}
    {key : κ} {exceeded : Bool} (h : (d.limit clock banDuration now key exceeded).1 = some false) :
    exceeded = false := by
  cases exceeded with
  | false => rfl
  | true =>
    simp only [limit] at h
    split at h
    · cases h
    · split at h <;> cases h

end Dimension

structure RateLimiterState where
  config : RateLimiter
  conn : Dimension String
  ip : Dimension IpAddr

def RateLimiter.build (config : RateLimiter) : RateLimiterState := ⟨config, .empty, .empty⟩

namespace RateLimiterState

def isIpBanned (rl : RateLimiterState) (now : ℕ) (ip : IpAddr) : Bool × RateLimiterState :=
  let (banned, d) := rl.ip.checkBan now ip
  (banned, { rl with ip := d })

/-- Step 1 of `check_and_record`: the connection's ban, then the address's. -/
def checkBans (rl : RateLimiterState) (now : ℕ) (connectionId : String) (ip : IpAddr) :
    Bool × RateLimiterState :=
  let (banned, d) := rl.conn.checkBan now connectionId
  let rl := { rl with conn := d }
  if banned then (true, rl) else rl.isIpBanned now ip

def recordConnection (rl : RateLimiterState) (clock : Clock) (now : ℕ) (connectionId : String)
    (frameLen : UInt64) : Option Bool × RateLimiterState :=
  let (limited, d) :=
    rl.conn.recordIf clock rl.config.connection rl.config.banDuration now connectionId frameLen
  (limited, { rl with conn := d })

def recordIp (rl : RateLimiterState) (clock : Clock) (now : ℕ) (ip : IpAddr)
    (frameLen : UInt64) : Option Bool × RateLimiterState :=
  let (limited, d) := rl.ip.recordIf clock rl.config.ip rl.config.banDuration now ip frameLen
  (limited, { rl with ip := d })

/-- `check_and_record`; no verdict where it panics, with the tables as they were left. -/
def checkAndRecord (rl : RateLimiterState) (clock : Clock) (now : ℕ) (connectionId : String)
    (ip : IpAddr) (frameLen : UInt64) : Option Verdict × RateLimiterState :=
  let (banned, rl) := rl.checkBans now connectionId ip
  if banned then (some .banned, rl)
  else
    let (connLimited, rl) := rl.recordConnection clock now connectionId frameLen
    match connLimited with
    | none => (none, rl)
    | some connLimited =>
      let (ipLimited, rl) := rl.recordIp clock now ip frameLen
      match ipLimited with
      | none => (none, rl)
      | some ipLimited => (some (if connLimited || ipLimited then .limited else .allowed), rl)

def durationMax : ℕ := 2 ^ 64 * 10 ^ 9 - 1

/-- The longest configured period, or a minute. -/
def maxPeriod (rl : RateLimiterState) : ℕ :=
  ((rl.config.connection.map (·.period)).merge max (rl.config.ip.map (·.period))).getD
    (60 * 10 ^ 9)

/-- `cleanup`; `none` where `max_period * 2` panics. -/
def cleanup (rl : RateLimiterState) (now : ℕ) : Option RateLimiterState :=
  let staleThreshold := rl.maxPeriod * 2
  if staleThreshold ≤ durationMax then
    some { rl with conn := rl.conn.cleanup now staleThreshold, ip := rl.ip.cleanup now staleThreshold }
  else none

end RateLimiterState

end Wscall.Server
