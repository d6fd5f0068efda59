import Mathlib.Logic.Relation
import Wscall.Server.ByteBudget

/-!
# The rate limiter under concurrency (`rate_limiter.rs:196-343`)

Any number of calls run at once. A call stops before each DashMap operation and the
operation is one step; a counter's update is part of the `get_mut` that found it. Guards
do not block here, so every interleaving of the code is one of these.
-/

namespace Wscall.Server

/-- The operation a call is about to make, with what it has read so far. -/
inductive Pc where
  | connBansGet (f : Frame)
  | connBansRemove (f : Frame)
  | ipBansGet (f : Frame)
  | ipBansRemove (f : Frame) (tested : ℕ)
  | connCountersGetMut (f : Frame)
  | connCountersInsert (f : Frame)
  | connBansInsert (f : Frame) (expiry : ℕ)
  | ipCountersGetMut (f : Frame) (limited : Bool)
  | ipCountersInsert (f : Frame) (limited : Bool)
  | ipBansInsert (f : Frame) (expiry : ℕ)
  /-- No verdict where `check_and_record` panicked. -/
  | returned (f : Frame) (verdict : Option Verdict)
  | askGet (ip : IpAddr)
  | askRemove (ip : IpAddr) (tested : ℕ)
  | answered (banned : Bool)
  | retainConnCounters (now staleThreshold : ℕ)
  | retainIpCounters (now staleThreshold : ℕ)
  | retainConnBans (now : ℕ)
  | retainIpBans (now : ℕ)
  | cleaned

namespace Dimension

variable {κ : Type} [DecidableEq κ]

def removeBan (d : Dimension κ) (key : κ) : Dimension κ :=
  { d with bans := Function.update d.bans key none }

def insertBan (d : Dimension κ) (key : κ) (expiry : ℕ) : Dimension κ :=
  { d with bans := Function.update d.bans key (some expiry) }

def retainCounters (d : Dimension κ) (now staleThreshold : ℕ) : Dimension κ :=
  { d with counters := fun key => (d.counters key).filter fun c => now - c.windowStart < staleThreshold }

def retainBans (d : Dimension κ) (now : ℕ) : Dimension κ :=
  { d with bans := fun key => (d.bans key).filter fun expiry => now < expiry }

end Dimension

/-! ### One call -/

section Call

variable (clock : Clock) (config : RateLimiter) (f : Frame)

def verdictOf (limited : Bool) : Verdict := if limited then .limited else .allowed

def enterIp (limited : Bool) : Pc :=
  match config.ip with
  | some _ => .ipCountersGetMut f limited
  | none => .returned f (some (verdictOf limited))

def enterConn : Pc :=
  match config.connection with
  | some _ => .connCountersGetMut f
  | none => enterIp config f false

/-- After a threshold test: where a ban is due, to its insertion with the expiry. -/
def afterTest (exceeded : Bool) (insert : ℕ → Pc) (next : Bool → Pc) : Pc :=
  if exceeded then
    match config.banDuration with
    | none => next true
    | some duration =>
      match clock.after f.now duration with
      | none => .returned f none
      | some expiry => insert expiry
  else next false

def afterConnTest (exceeded : Bool) : Pc :=
  afterTest clock config f exceeded (.connBansInsert f) (enterIp config f)

def afterIpTest (limited exceeded : Bool) : Pc :=
  afterTest clock config f exceeded (.ipBansInsert f)
    fun exceeded => .returned f (some (verdictOf (limited || exceeded)))

/-! What holds wherever a call can go from there. -/

section Rules

variable {clock config f} {P : Pc → Prop}

theorem enterIp_rule {limited : Bool} (hget : P (.ipCountersGetMut f limited))
    (hreturn : config.ip = none → P (.returned f (some (verdictOf limited)))) :
    P (enterIp config f limited) := by
  cases hcfg : config.ip with
  | none => simpa only [enterIp, hcfg] using hreturn hcfg
  | some cfg => simpa only [enterIp, hcfg] using hget

theorem enterConn_rule (hget : P (.connCountersGetMut f)) (hip : P (enterIp config f false)) :
    P (enterConn config f) := by
  unfold enterConn
  split
  · exact hget
  · exact hip

theorem afterTest_rule {exceeded : Bool} {insert : ℕ → Pc} {next : Bool → Pc}
    (hinsert : ∀ expiry, P (insert expiry)) (hpanic : P (.returned f none))
    (hnext : ∀ limited, P (next limited)) : P (afterTest clock config f exceeded insert next) := by
  unfold afterTest
  split
  · split
    · exact hnext true
    · split
      · exact hpanic
      · exact hinsert _
  · exact hnext false

end Rules

end Call

/-- The next operation of a call, at instant `time`; `none` when it has returned. -/
def stepCall (clock : Clock) (time : ℕ) (rl : RateLimiterState) : Pc → Option (Pc × RateLimiterState)
  | .connBansGet f =>
    match rl.conn.bans f.connectionId with
    | some expiry =>
      if f.now < expiry then some (.returned f (some .banned), rl) else some (.connBansRemove f, rl)
    | none => some (.ipBansGet f, rl)
  | .connBansRemove f => some (.ipBansGet f, { rl with conn := rl.conn.removeBan f.connectionId })
  | .ipBansGet f =>
    match rl.ip.bans f.ip with
    | some expiry =>
      if f.now < expiry then some (.returned f (some .banned), rl)
      else some (.ipBansRemove f expiry, rl)
    | none => some (enterConn rl.config f, rl)
  | .ipBansRemove f _ => some (enterConn rl.config f, { rl with ip := rl.ip.removeBan f.ip })
  | .connCountersGetMut f => do
    let config ← rl.config.connection
    match rl.conn.counters f.connectionId with
    | some counter =>
      let counter := (counter.maybeReset f.now config.period).add f.frameLen
      some (afterConnTest clock rl.config f (counter.exceeds config),
        { rl with conn := rl.conn.setCounter f.connectionId counter })
    | none => some (.connCountersInsert f, rl)
  | .connCountersInsert f => do
    let config ← rl.config.connection
    some (afterConnTest clock rl.config f (config.maxMessages = some 0 || config.maxBytes = some 0),
      { rl with conn := rl.conn.setCounter f.connectionId ⟨f.now, 1, f.frameLen⟩ })
  | .connBansInsert f expiry =>
    some (enterIp rl.config f true, { rl with conn := rl.conn.insertBan f.connectionId expiry })
  | .ipCountersGetMut f limited => do
    let config ← rl.config.ip
    match rl.ip.counters f.ip with
    | some counter =>
      let counter := (counter.maybeReset f.now config.period).add f.frameLen
      some (afterIpTest clock rl.config f limited (counter.exceeds config),
        { rl with ip := rl.ip.setCounter f.ip counter })
    | none => some (.ipCountersInsert f limited, rl)
  | .ipCountersInsert f limited => do
    let config ← rl.config.ip
    some (afterIpTest clock rl.config f limited (config.maxMessages = some 0 || config.maxBytes = some 0),
      { rl with ip := rl.ip.setCounter f.ip ⟨f.now, 1, f.frameLen⟩ })
  | .ipBansInsert f expiry =>
    some (.returned f (some .limited), { rl with ip := rl.ip.insertBan f.ip expiry })
  -- `is_ip_banned` reads the clock when it holds the entry
  | .askGet ip =>
    match rl.ip.bans ip with
    | some expiry =>
      if time < expiry then some (.answered true, rl) else some (.askRemove ip expiry, rl)
    | none => some (.answered false, rl)
  | .askRemove ip _ => some (.answered false, { rl with ip := rl.ip.removeBan ip })
  | .retainConnCounters now stale =>
    some (.retainIpCounters now stale, { rl with conn := rl.conn.retainCounters now stale })
  | .retainIpCounters now stale =>
    some (.retainConnBans now, { rl with ip := rl.ip.retainCounters now stale })
  | .retainConnBans now => some (.retainIpBans now, { rl with conn := rl.conn.retainBans now })
  | .retainIpBans now => some (.cleaned, { rl with ip := rl.ip.retainBans now })
  | .returned .. | .answered _ | .cleaned => none

/-- The operations of a call: where each leads, and what it leaves of the tables. -/
inductive CallStep (clock : Clock) (time : ℕ) (rl : RateLimiterState) :
    Pc → Pc → RateLimiterState → Prop
  | connBanned {f} : CallStep clock time rl (.connBansGet f) (.returned f (some .banned)) rl
  | connExpired {f} : CallStep clock time rl (.connBansGet f) (.connBansRemove f) rl
  | connFree {f} : CallStep clock time rl (.connBansGet f) (.ipBansGet f) rl
  | connRemove {f} : CallStep clock time rl (.connBansRemove f) (.ipBansGet f)
      { rl with conn := rl.conn.removeBan f.connectionId }
  | ipBanned {f} : CallStep clock time rl (.ipBansGet f) (.returned f (some .banned)) rl
  | ipExpired {f expiry} (h : expiry ≤ f.now) :
      CallStep clock time rl (.ipBansGet f) (.ipBansRemove f expiry) rl
  | ipFree {f} : CallStep clock time rl (.ipBansGet f) (enterConn rl.config f) rl
  | ipRemove {f tested} : CallStep clock time rl (.ipBansRemove f tested) (enterConn rl.config f)
      { rl with ip := rl.ip.removeBan f.ip }
  | connAdd {f counter exceeded} : CallStep clock time rl (.connCountersGetMut f)
      (afterConnTest clock rl.config f exceeded)
      { rl with conn := rl.conn.setCounter f.connectionId counter }
  | connMissing {f} : CallStep clock time rl (.connCountersGetMut f) (.connCountersInsert f) rl
  | connInsert {f counter exceeded} : CallStep clock time rl (.connCountersInsert f)
      (afterConnTest clock rl.config f exceeded)
      { rl with conn := rl.conn.setCounter f.connectionId counter }
  | connBan {f expiry} : CallStep clock time rl (.connBansInsert f expiry) (enterIp rl.config f true)
      { rl with conn := rl.conn.insertBan f.connectionId expiry }
  | ipAdd {f limited counter exceeded} {cfg : RateLimitConfig} (hcfg : rl.config.ip = some cfg)
      (found : rl.ip.counters f.ip = some counter) :
      CallStep clock time rl (.ipCountersGetMut f limited) (afterIpTest clock rl.config f limited exceeded)
        { rl with ip := rl.ip.setCounter f.ip ((counter.maybeReset f.now cfg.period).add f.frameLen) }
  | ipMissing {f limited} : CallStep clock time rl (.ipCountersGetMut f limited)
      (.ipCountersInsert f limited) rl
  | ipInsert {f limited exceeded} : CallStep clock time rl (.ipCountersInsert f limited)
      (afterIpTest clock rl.config f limited exceeded)
      { rl with ip := rl.ip.setCounter f.ip ⟨f.now, 1, f.frameLen⟩ }
  | ipBan {f expiry} : CallStep clock time rl (.ipBansInsert f expiry) (.returned f (some .limited))
      { rl with ip := rl.ip.insertBan f.ip expiry }
  | askFound {ip banned} : CallStep clock time rl (.askGet ip) (.answered banned) rl
  | askExpired {ip expiry} (h : expiry ≤ time) :
      CallStep clock time rl (.askGet ip) (.askRemove ip expiry) rl
  | askRemove {ip tested} : CallStep clock time rl (.askRemove ip tested) (.answered false)
      { rl with ip := rl.ip.removeBan ip }
  | retainConnCounters {now stale} : CallStep clock time rl (.retainConnCounters now stale)
      (.retainIpCounters now stale) { rl with conn := rl.conn.retainCounters now stale }
  | retainIpCounters {now stale} : CallStep clock time rl (.retainIpCounters now stale)
      (.retainConnBans now) { rl with ip := rl.ip.retainCounters now stale }
  | retainConnBans {now} : CallStep clock time rl (.retainConnBans now) (.retainIpBans now)
      { rl with conn := rl.conn.retainBans now }
  | retainIpBans {now} : CallStep clock time rl (.retainIpBans now) .cleaned
      { rl with ip := rl.ip.retainBans now }

theorem callStep_of_stepCall {clock : Clock} {time : ℕ} {rl rl' : RateLimiterState} {pc pc' : Pc}
    (h : stepCall clock time rl pc = some (pc', rl')) : CallStep clock time rl pc pc' rl' := by
  cases pc with
  | connBansGet f =>
    simp only [stepCall] at h
    split at h
    · split at h <;> cases h
      · exact .connBanned
      · exact .connExpired
    · cases h
      exact .connFree
  | connBansRemove f =>
    cases h
    exact .connRemove
  | ipBansGet f =>
    simp only [stepCall] at h
    split at h
    · split at h <;> cases h
      · exact .ipBanned
      · exact .ipExpired (Nat.not_lt.mp ‹_›)
    · cases h
      exact .ipFree
  | ipBansRemove f tested =>
    cases h
    exact .ipRemove
  | connCountersGetMut f =>
    obtain ⟨cfg, -, h⟩ := Option.bind_eq_some_iff.mp h
    split at h <;> cases h
    · exact .connAdd
    · exact .connMissing
  | connCountersInsert f =>
    obtain ⟨cfg, -, h⟩ := Option.bind_eq_some_iff.mp h
    cases h
    exact .connInsert
  | connBansInsert f expiry =>
    cases h
    exact .connBan
  | ipCountersGetMut f limited =>
    obtain ⟨cfg, hcfg, h⟩ := Option.bind_eq_some_iff.mp h
    split at h <;> cases h
    · exact .ipAdd hcfg ‹_›
    · exact .ipMissing
  | ipCountersInsert f limited =>
    obtain ⟨cfg, -, h⟩ := Option.bind_eq_some_iff.mp h
    cases h
    exact .ipInsert
  | ipBansInsert f expiry =>
    cases h
    exact .ipBan
  | askGet ip =>
    simp only [stepCall] at h
    split at h
    · split at h <;> cases h
      · exact .askFound
      · exact .askExpired (Nat.not_lt.mp ‹_›)
    · cases h
      exact .askFound
  | askRemove ip tested =>
    cases h
    exact .askRemove
  | retainConnCounters now stale =>
    cases h
    exact .retainConnCounters
  | retainIpCounters now stale =>
    cases h
    exact .retainIpCounters
  | retainConnBans now =>
    cases h
    exact .retainConnBans
  | retainIpBans now =>
    cases h
    exact .retainIpBans
  | returned | answered | cleaned => cases h

/-! ### A call without interference is the sequential function -/

section Alone

variable {clock : Clock} {time : ℕ}

/-- The operations of one call with nothing in between. -/
def Alone (clock : Clock) (time : ℕ) : Pc × RateLimiterState → Pc × RateLimiterState → Prop :=
  Relation.ReflTransGen fun p q => stepCall clock time p.2 p.1 = some q

theorem Alone.one {p q : Pc × RateLimiterState} (h : stepCall clock time p.2 p.1 = some q) :
    Alone clock time p q :=
  Relation.ReflTransGen.single h

theorem Alone.trans {p q r : Pc × RateLimiterState} (h : Alone clock time p q)
    (hr : Alone clock time q r) : Alone clock time p r :=
  Relation.ReflTransGen.trans h hr

theorem Alone.same {p q : Pc × RateLimiterState} (h : p = q) : Alone clock time p q :=
  h ▸ Relation.ReflTransGen.refl

theorem alone_connBans (rl : RateLimiterState) (f : Frame) :
    Alone clock time (.connBansGet f, rl)
      (if (rl.conn.checkBan f.now f.connectionId).1 then .returned f (some .banned) else .ipBansGet f,
        { rl with conn := (rl.conn.checkBan f.now f.connectionId).2 }) := by
  unfold Dimension.checkBan
  cases hk : rl.conn.bans f.connectionId with
  | none => exact .one (by simp [stepCall, hk])
  | some expiry =>
    by_cases hlt : f.now < expiry
    · exact .one (by simp [stepCall, hk, hlt])
    · have hget : stepCall clock time rl (.connBansGet f) = some (.connBansRemove f, rl) := by
        simp [stepCall, hk, hlt]
      exact (Alone.one hget).trans (.one (by simp [stepCall, hlt, Dimension.removeBan]))

theorem alone_ipBans (rl : RateLimiterState) (f : Frame) :
    Alone clock time (.ipBansGet f, rl)
      (if (rl.ip.checkBan f.now f.ip).1 then .returned f (some .banned) else enterConn rl.config f,
        { rl with ip := (rl.ip.checkBan f.now f.ip).2 }) := by
  unfold Dimension.checkBan
  cases hk : rl.ip.bans f.ip with
  | none => exact .one (by simp [stepCall, hk])
  | some expiry =>
    by_cases hlt : f.now < expiry
    · exact .one (by simp [stepCall, hk, hlt])
    · have hget : stepCall clock time rl (.ipBansGet f) = some (.ipBansRemove f expiry, rl) := by
        simp [stepCall, hk, hlt]
      exact (Alone.one hget).trans (.one (by simp [stepCall, hlt, Dimension.removeBan]))

/-- Where the connection's test leaves the call. -/
def connOutcome (config : RateLimiter) (f : Frame) : Option Bool → Pc
  | some limited => enterIp config f limited
  | none => .returned f none

def ipOutcome (f : Frame) (connLimited : Bool) : Option Bool → Pc
  | some limited => .returned f (some (verdictOf (connLimited || limited)))
  | none => .returned f none

theorem alone_connTest (rl : RateLimiterState) (f : Frame) (exceeded : Bool) :
    Alone clock time (afterConnTest clock rl.config f exceeded, rl)
      (connOutcome rl.config f
          (rl.conn.limit clock rl.config.banDuration f.now f.connectionId exceeded).1,
        { rl with conn :=
          (rl.conn.limit clock rl.config.banDuration f.now f.connectionId exceeded).2 }) := by
  cases exceeded with
  | false => exact .refl
  | true =>
    cases hb : rl.config.banDuration with
    | none => exact .same (by simp [afterConnTest, afterTest, Dimension.limit, connOutcome, hb])
    | some duration =>
      cases hc : clock.after f.now duration with
      | none => exact .same (by simp [afterConnTest, afterTest, Dimension.limit, connOutcome, hb, hc])
      | some expiry =>
        simp only [afterConnTest, afterTest, Dimension.limit, hb, hc, if_true]
        exact .one rfl

theorem alone_ipTest (rl : RateLimiterState) (f : Frame) (limited exceeded : Bool) :
    Alone clock time (afterIpTest clock rl.config f limited exceeded, rl)
      (ipOutcome f limited (rl.ip.limit clock rl.config.banDuration f.now f.ip exceeded).1,
        { rl with ip := (rl.ip.limit clock rl.config.banDuration f.now f.ip exceeded).2 }) := by
  cases exceeded with
  | false => exact .refl
  | true =>
    cases hb : rl.config.banDuration with
    | none => exact .same (by simp [afterIpTest, afterTest, Dimension.limit, ipOutcome, hb])
    | some duration =>
      cases hc : clock.after f.now duration with
      | none => exact .same (by simp [afterIpTest, afterTest, Dimension.limit, ipOutcome, hb, hc])
      | some expiry =>
        simp only [afterIpTest, afterTest, Dimension.limit, hb, hc, if_true, ipOutcome, Bool.or_true]
        exact .one rfl

theorem alone_conn (rl : RateLimiterState) (f : Frame) :
    Alone clock time (enterConn rl.config f, rl)
      (connOutcome rl.config f (rl.recordConnection clock f.now f.connectionId f.frameLen).1,
        (rl.recordConnection clock f.now f.connectionId f.frameLen).2) := by
  unfold enterConn RateLimiterState.recordConnection Dimension.recordIf
  cases hcfg : rl.config.connection with
  | none => exact .refl
  | some cfg =>
    unfold Dimension.record
    cases hk : rl.conn.counters f.connectionId with
    | some counter =>
      have hget : stepCall clock time rl (.connCountersGetMut f) =
          some (afterConnTest clock rl.config f
              (((counter.maybeReset f.now cfg.period).add f.frameLen).exceeds cfg),
            { rl with
              conn := rl.conn.setCounter f.connectionId
                ((counter.maybeReset f.now cfg.period).add f.frameLen) }) := by
        simp [stepCall, hcfg, hk]
      exact (Alone.one hget).trans
        (alone_connTest { rl with conn := rl.conn.setCounter f.connectionId _ } f _)
    | none =>
      have hget : stepCall clock time rl (.connCountersGetMut f) = some (.connCountersInsert f, rl) := by
        simp [stepCall, hcfg, hk]
      have hinsert : stepCall clock time rl (.connCountersInsert f) =
          some (afterConnTest clock rl.config f (cfg.maxMessages = some 0 || cfg.maxBytes = some 0),
            { rl with conn := rl.conn.setCounter f.connectionId ⟨f.now, 1, f.frameLen⟩ }) := by
        simp [stepCall, hcfg]
      exact ((Alone.one hget).trans (.one hinsert)).trans
        (alone_connTest { rl with conn := rl.conn.setCounter f.connectionId _ } f _)

theorem alone_ip (rl : RateLimiterState) (f : Frame) (limited : Bool) :
    Alone clock time (enterIp rl.config f limited, rl)
      (ipOutcome f limited (rl.recordIp clock f.now f.ip f.frameLen).1,
        (rl.recordIp clock f.now f.ip f.frameLen).2) := by
  unfold enterIp RateLimiterState.recordIp Dimension.recordIf
  cases hcfg : rl.config.ip with
  | none => exact .same (by simp [ipOutcome])
  | some cfg =>
    unfold Dimension.record
    cases hk : rl.ip.counters f.ip with
    | some counter =>
      have hget : stepCall clock time rl (.ipCountersGetMut f limited) =
          some (afterIpTest clock rl.config f limited
              (((counter.maybeReset f.now cfg.period).add f.frameLen).exceeds cfg),
            { rl with
              ip := rl.ip.setCounter f.ip
                ((counter.maybeReset f.now cfg.period).add f.frameLen) }) := by
        simp [stepCall, hcfg, hk]
      exact (Alone.one hget).trans
        (alone_ipTest { rl with ip := rl.ip.setCounter f.ip _ } f limited _)
    | none =>
      have hget : stepCall clock time rl (.ipCountersGetMut f limited) =
          some (.ipCountersInsert f limited, rl) := by
        simp [stepCall, hcfg, hk]
      have hinsert : stepCall clock time rl (.ipCountersInsert f limited) =
          some (afterIpTest clock rl.config f limited
              (cfg.maxMessages = some 0 || cfg.maxBytes = some 0),
            { rl with ip := rl.ip.setCounter f.ip ⟨f.now, 1, f.frameLen⟩ }) := by
        simp [stepCall, hcfg]
      exact ((Alone.one hget).trans (.one hinsert)).trans
        (alone_ipTest { rl with ip := rl.ip.setCounter f.ip _ } f limited _)

/-- `check_and_record` undisturbed does to the tables what the sequential model does. -/
theorem alone_checkAndRecord (rl : RateLimiterState) (f : Frame) :
    Alone clock time (.connBansGet f, rl)
      (.returned f (rl.checkAndRecord clock f.now f.connectionId f.ip f.frameLen).1,
        (rl.checkAndRecord clock f.now f.connectionId f.ip f.frameLen).2) := by
  have hconnBans : Alone clock time _ _ := alone_connBans rl f
  unfold RateLimiterState.checkAndRecord RateLimiterState.checkBans RateLimiterState.isIpBanned
  rcases hb : rl.conn.checkBan f.now f.connectionId with ⟨banned, d⟩
  rw [hb] at hconnBans
  cases banned with
  | true => simpa using hconnBans
  | false =>
    have hipBans : Alone clock time _ _ := alone_ipBans { rl with conn := d } f
    have hbans := hconnBans.trans hipBans
    rcases hi : rl.ip.checkBan f.now f.ip with ⟨banned, d'⟩
    simp only [hi] at hbans
    cases banned with
    | true => simpa [hi] using hbans
    | false =>
      have hconn := hbans.trans (alone_conn ⟨rl.config, d, d'⟩ f)
      simp only [Bool.false_eq_true, if_false, hi]
      rcases hr : RateLimiterState.recordConnection ⟨rl.config, d, d'⟩ clock f.now f.connectionId
        f.frameLen with ⟨limited, rl₂⟩
      rw [hr] at hconn
      cases limited with
      | none => exact hconn
      | some limited =>
        have hcfg : rl₂.config = rl.config := by
          simp only [RateLimiterState.recordConnection, Prod.mk.injEq] at hr
          rw [← hr.2]
        have hip : Alone clock time _ _ := alone_ip rl₂ f limited
        rw [hcfg] at hip
        have hall := hconn.trans hip
        dsimp only
        rcases hr' : rl₂.recordIp clock f.now f.ip f.frameLen with ⟨limited', rl₃⟩
        rw [hr'] at hall
        cases limited' <;> exact hall

theorem alone_isIpBanned (rl : RateLimiterState) (ip : IpAddr) :
    Alone clock time (.askGet ip, rl)
      (.answered (rl.isIpBanned time ip).1, (rl.isIpBanned time ip).2) := by
  unfold RateLimiterState.isIpBanned Dimension.checkBan
  cases hk : rl.ip.bans ip with
  | none => exact .one (by simp [stepCall, hk])
  | some expiry =>
    by_cases hlt : time < expiry
    · exact .one (by simp [stepCall, hk, hlt])
    · have hget : stepCall clock time rl (.askGet ip) = some (.askRemove ip expiry, rl) := by
        simp [stepCall, hk, hlt]
      exact (Alone.one hget).trans (.one (by simp [stepCall, hlt, Dimension.removeBan]))

end Alone

/-! ### All calls -/

/-- Where `cleanup` starts; with a threshold that overflows it ends at once. -/
def enterCleanup (rl : RateLimiterState) (now : ℕ) : Pc :=
  if rl.maxPeriod * 2 ≤ RateLimiterState.durationMax then .retainConnCounters now (rl.maxPeriod * 2)
  else .cleaned

theorem alone_cleanup {clock : Clock} {time : ℕ} (rl : RateLimiterState) (now : ℕ) :
    Alone clock time (enterCleanup rl now, rl) (.cleaned, (rl.cleanup now).getD rl) := by
  unfold enterCleanup RateLimiterState.cleanup
  by_cases h : rl.maxPeriod * 2 ≤ RateLimiterState.durationMax
  · simp only [h, if_true, Option.getD_some]
    exact (Alone.one rfl).trans ((Alone.one rfl).trans ((Alone.one rfl).trans (Alone.one rfl)))
  · exact .same (by simp [h])

structure Limiter where
  limiter : RateLimiterState
  time : ℕ
  calls : List Pc

inductive LimiterOp where
  | tick (now : ℕ)
  | checkAndRecord (connectionId : String) (ip : IpAddr) (frameLen : UInt64)
  | isIpBanned (ip : IpAddr)
  | cleanup
  /-- The next operation of call `i`. -/
  | move (i : ℕ)

namespace Limiter

def init (config : RateLimiter) : Limiter := ⟨config.build, 0, []⟩

def enter (s : Limiter) (pc : Pc) : Limiter := { s with calls := s.calls ++ [pc] }

/-- `check_and_record` and `cleanup` read the clock when they are called. -/
def step (clock : Clock) : LimiterOp → Limiter → Option Limiter
  | .tick now, s => if s.time ≤ now then some { s with time := now } else none
  | .checkAndRecord connectionId ip frameLen, s =>
    some (s.enter (.connBansGet ⟨s.time, connectionId, ip, frameLen⟩))
  | .isIpBanned ip, s => some (s.enter (.askGet ip))
  | .cleanup, s => some (s.enter (enterCleanup s.limiter s.time))
  | .move i, s => do
    let pc ← s.calls[i]?
    let (pc, limiter) ← stepCall clock s.time s.limiter pc
    some { s with limiter := limiter, calls := s.calls.set i pc }

theorem move_eq_some {clock : Clock} {i : ℕ} {s s' : Limiter} (h : step clock (.move i) s = some s') :
    ∃ pc pc' rl, s.calls[i]? = some pc ∧ stepCall clock s.time s.limiter pc = some (pc', rl) ∧
      s' = ⟨rl, s.time, s.calls.set i pc'⟩ := by
  obtain ⟨pc, hpc, h⟩ := Option.bind_eq_some_iff.mp h
  obtain ⟨⟨pc', rl⟩, hstep, h⟩ := Option.bind_eq_some_iff.mp h
  cases h
  exact ⟨pc, pc', rl, hpc, hstep, rfl⟩

end Limiter

end Wscall.Server
