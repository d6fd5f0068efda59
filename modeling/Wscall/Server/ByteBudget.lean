import Wscall.Server.RateLimiter

/-!
# The byte budget of a window

A ledger follows a sequence of `check_and_record` calls and adds up, for each key of each
dimension, the lengths of the frames that were allowed since its window opened. The
counter of a key bounds that sum as long as it does not wrap, and the threshold test
bounds the counter; but the first frame of a key is not held against `max_bytes`.
-/

namespace Wscall.Server

/-- A call of `check_and_record`. -/
structure Frame where
  now : ℕ
  connectionId : String
  ip : IpAddr
  frameLen : UInt64

namespace Dimension

variable {κ : Type} [DecidableEq κ]

/-- A frame of `key` at `now` opens a window: it is the first one, or it resets the counter. -/
def opensWindow (d : Dimension κ) (config : RateLimitConfig) (now : ℕ) (key : κ) : Bool :=
  match d.counters key with
  | some counter => counter.elapsed now config.period
  | none => true

/-- What has been allowed in the current window of each key, after a frame of `key` was
recorded; `d` is the dimension before it. -/
def charge (d : Dimension κ) (config : Option RateLimitConfig) (now : ℕ) (key : κ)
    (frameLen : UInt64) (allowed : Bool) (spent : κ → ℕ) : κ → ℕ :=
  match config with
  | none => spent
  | some config =>
    Function.update spent key
      ((if d.opensWindow config now key then 0 else spent key) +
        if allowed then frameLen.toNat else 0)

end Dimension

structure Ledger where
  limiter : RateLimiterState
  time : ℕ
  connSpent : String → ℕ
  ipSpent : IpAddr → ℕ

namespace Ledger

def init (config : RateLimiter) : Ledger := ⟨config.build, 0, fun _ => 0, fun _ => 0⟩

def chargeConn (l : Ledger) (f : Frame) (allowed : Bool) : String → ℕ :=
  l.limiter.conn.charge l.limiter.config.connection f.now f.connectionId f.frameLen allowed
    l.connSpent

def chargeIp (l : Ledger) (f : Frame) (allowed : Bool) : IpAddr → ℕ :=
  l.limiter.ip.charge l.limiter.config.ip f.now f.ip f.frameLen allowed l.ipSpent

/-- One call, at a time no earlier than the last one's. -/
def step (clock : Clock) (f : Frame) (l : Ledger) : Option Ledger :=
  if f.now < l.time then none
  else
    match l.limiter.checkAndRecord clock f.now f.connectionId f.ip f.frameLen with
    | (some .banned, limiter) => some { l with limiter := limiter, time := f.now }
    | (some verdict, limiter) =>
      some ⟨limiter, f.now, l.chargeConn f (verdict = .allowed), l.chargeIp f (verdict = .allowed)⟩
    | (none, limiter) =>
      -- the address's counter is only reached when the connection's check returned
      let unbanned := (l.limiter.checkBans f.now f.connectionId f.ip).2
      let reached := (unbanned.recordConnection clock f.now f.connectionId f.frameLen).1.isSome
      some ⟨limiter, f.now, l.chargeConn f false, if reached then l.chargeIp f false else l.ipSpent⟩

end Ledger

/-- No key has been allowed more than its dimension's `max_bytes` in its current window. -/
def Ledger.WithinBudget (l : Ledger) : Prop :=
  (∀ config b, l.limiter.config.connection = some config → config.maxBytes = some b →
    ∀ key, l.connSpent key ≤ b.toNat) ∧
  ∀ config b, l.limiter.config.ip = some config → config.maxBytes = some b →
    ∀ key, l.ipSpent key ≤ b.toNat

/-- What a dimension with a byte budget needs of a frame that reaches it: a first frame is
within the budget unless a zero threshold stops it anyway, and a later one does not wrap
the counter. -/
def Dimension.Fits {κ : Type} (d : Dimension κ) (config : Option RateLimitConfig) (now : ℕ) (key : κ)
    (frameLen : UInt64) : Prop :=
  ∀ cfg b, config = some cfg → cfg.maxBytes = some b →
    match d.counters key with
    | none => frameLen ≤ b ∨ b = 0 ∨ cfg.maxMessages = some 0
    | some counter =>
      (counter.maybeReset now cfg.period).byteCount.toNat + frameLen.toNat < 2 ^ 64

/-- A frame that no ban stops fits both dimensions. -/
def Ledger.Fits (l : Ledger) (f : Frame) : Prop :=
  (l.limiter.checkBans f.now f.connectionId f.ip).1 = false →
    l.limiter.conn.Fits l.limiter.config.connection f.now f.connectionId f.frameLen ∧
    l.limiter.ip.Fits l.limiter.config.ip f.now f.ip f.frameLen

/-! ### One dimension -/

namespace Dimension

variable {κ : Type} [DecidableEq κ]

def counted (d : Dimension κ) (key : κ) : ℕ := (d.counters key).elim 0 (·.byteCount.toNat)

/-- The books of a dimension with `max_bytes = Some(b)`. -/
structure Books (d : Dimension κ) (b : UInt64) (spent : κ → ℕ) : Prop where
  counted : ∀ key, spent key ≤ d.counted key
  within : ∀ key, spent key ≤ b.toNat

omit [DecidableEq κ] in
theorem Books.congr {d d' : Dimension κ} {b : UInt64} {spent : κ → ℕ} (h : d.Books b spent)
    (hc : d'.counters = d.counters) : d'.Books b spent :=
  ⟨fun key => by simpa only [Dimension.counted, hc] using h.counted key, h.within⟩

theorem Books.update {d d' : Dimension κ} {b : UInt64} {spent : κ → ℕ} {key : κ}
    {counter : WindowCounter} {n : ℕ} (h : d.Books b spent)
    (hc : d'.counters = Function.update d.counters key (some counter))
    (hn : n ≤ counter.byteCount.toNat) (hb : n ≤ b.toNat) :
    d'.Books b (Function.update spent key n) := by
  constructor
  · intro key'
    by_cases hk : key' = key
    · subst hk
      simpa [Dimension.counted, hc] using hn
    · simpa [Dimension.counted, hc, hk] using h.counted key'
  · intro key'
    by_cases hk : key' = key
    · subst hk
      simpa using hb
    · simpa [hk] using h.within key'

theorem record_counters_some {d : Dimension κ} {clock : Clock} {config : RateLimitConfig}
    {banDuration : Option ℕ} {now : ℕ} {key : κ} {frameLen : UInt64} {counter : WindowCounter}
    (h : d.counters key = some counter) :
    (d.record clock config banDuration now key frameLen).2.counters =
      Function.update d.counters key (some ((counter.maybeReset now config.period).add frameLen)) := by
  simp only [record, h, limit_counters, setCounter]

theorem record_counters_none {d : Dimension κ} {clock : Clock} {config : RateLimitConfig}
    {banDuration : Option ℕ} {now : ℕ} {key : κ} {frameLen : UInt64} (h : d.counters key = none) :
    (d.record clock config banDuration now key frameLen).2.counters =
      Function.update d.counters key (some ⟨now, 1, frameLen⟩) := by
  simp only [record, h, limit_counters, setCounter]

omit [DecidableEq κ] in
theorem Books.reset {d : Dimension κ} {b : UInt64} {spent : κ → ℕ} (h : d.Books b spent)
    (config : RateLimitConfig) (now : ℕ) {key : κ} {counter : WindowCounter}
    (hk : d.counters key = some counter) :
    (if d.opensWindow config now key then 0 else spent key) ≤
      (counter.maybeReset now config.period).byteCount.toNat := by
  have hold := h.counted key
  simp only [Dimension.counted, hk, Option.elim_some] at hold
  simp only [opensWindow, hk, WindowCounter.maybeReset]
  by_cases he : counter.elapsed now config.period
  · simp only [he, if_true, Nat.zero_le]
  · simpa only [he, if_false, Bool.false_eq_true] using hold

/-- A recorded frame keeps the books, if it fits and is charged only when it passed. -/
theorem record_books {d : Dimension κ} {clock : Clock} {config : RateLimitConfig}
    {banDuration : Option ℕ} {now : ℕ} {key : κ} {frameLen b : UInt64} {spent : κ → ℕ}
    {allowed : Bool} (hb : config.maxBytes = some b) (h : d.Books b spent)
    (hfit : d.Fits (some config) now key frameLen)
    (hallowed : allowed = true → (d.record clock config banDuration now key frameLen).1 = some false) :
    (d.record clock config banDuration now key frameLen).2.Books b
      (d.charge (some config) now key frameLen allowed spent) := by
  have hfit := hfit config b rfl hb
  cases hk : d.counters key with
  | none =>
    -- the first frame: only `hfit` holds it to the budget
    rw [hk] at hfit
    have hopen : d.opensWindow config now key = true := by simp only [opensWindow, hk]
    simp only [record, hk] at hallowed
    refine h.update (record_counters_none hk) ?_ ?_ <;> simp only [hopen, if_true, Nat.zero_add]
    · split <;> omega
    · by_cases ha : allowed = true
      · have hzero := limit_eq_false (hallowed ha)
        simp only [hb, Bool.or_eq_false_iff, decide_eq_false_iff_not, Option.some.injEq] at hzero
        rw [if_pos ha]
        rcases hfit with hle | h0 | h0
        · exact UInt64.le_iff_toNat_le.mp hle
        · exact absurd h0 hzero.2
        · exact absurd h0 hzero.1
      · rw [if_neg ha]
        exact Nat.zero_le _
  | some counter =>
    rw [hk] at hfit
    have hspent := h.reset config now hk
    have hsum := WindowCounter.add_byteCount hfit
    simp only [record, hk] at hallowed
    refine h.update (record_counters_some hk) ?_ ?_
    · rw [hsum]
      exact Nat.add_le_add hspent (by split <;> omega)
    · by_cases ha : allowed = true
      · have hle := WindowCounter.byteCount_le_of_exceeds (limit_eq_false (hallowed ha)) hb
        rw [if_pos ha]
        omega
      · have hold := h.within key
        rw [if_neg ha]
        split <;> omega

/-- The books of a dimension as configured; without a byte budget there are none. -/
def Kept (d : Dimension κ) (config : Option RateLimitConfig) (spent : κ → ℕ) : Prop :=
  ∀ cfg b, config = some cfg → cfg.maxBytes = some b → d.Books b spent

omit [DecidableEq κ] in
theorem Kept.congr {d d' : Dimension κ} {config : Option RateLimitConfig} {spent : κ → ℕ}
    (h : d.Kept config spent) (hc : d'.counters = d.counters) : d'.Kept config spent :=
  fun cfg b hcfg hb => (h cfg b hcfg hb).congr hc

theorem charge_congr {d d' : Dimension κ} (hc : d'.counters = d.counters)
    (config : Option RateLimitConfig) (now : ℕ) (key : κ) (frameLen : UInt64) (allowed : Bool)
    (spent : κ → ℕ) :
    d'.charge config now key frameLen allowed spent = d.charge config now key frameLen allowed spent := by
  cases config with
  | none => rfl
  | some config =>
    have hopen : d'.opensWindow config now key = d.opensWindow config now key := by
      simp only [opensWindow, hc]
    simp only [charge, hopen]

omit [DecidableEq κ] in
theorem Fits.congr {d d' : Dimension κ} {config : Option RateLimitConfig} {now : ℕ} {key : κ}
    {frameLen : UInt64} (h : d.Fits config now key frameLen) (hc : d'.counters = d.counters) :
    d'.Fits config now key frameLen := by
  simpa only [Fits, hc] using h

theorem recordIf_kept {d : Dimension κ} {clock : Clock} {config : Option RateLimitConfig}
    {banDuration : Option ℕ} {now : ℕ} {key : κ} {frameLen : UInt64} {spent : κ → ℕ}
    {allowed : Bool} (h : d.Kept config spent) (hfit : d.Fits config now key frameLen)
    (hallowed : allowed = true →
      (d.recordIf clock config banDuration now key frameLen).1 = some false) :
    (d.recordIf clock config banDuration now key frameLen).2.Kept config
      (d.charge config now key frameLen allowed spent) := by
  cases config with
  | none =>
    intro cfg b hcfg
    cases hcfg
  | some config =>
    intro cfg b hcfg hb
    cases hcfg
    exact record_books hb (h config b rfl hb) hfit hallowed

end Dimension

/-! ### The whole limiter -/

namespace RateLimiterState

variable {rl : RateLimiterState} {clock : Clock} {now : ℕ} {connectionId : String} {ip : IpAddr}
  {frameLen : UInt64}

theorem checkBans_frame (rl : RateLimiterState) (now : ℕ) (connectionId : String) (ip : IpAddr) :
    (rl.checkBans now connectionId ip).2.config = rl.config ∧
      (rl.checkBans now connectionId ip).2.conn.counters = rl.conn.counters ∧
      (rl.checkBans now connectionId ip).2.ip.counters = rl.ip.counters := by
  have hconn := Dimension.checkBan_counters rl.conn now connectionId
  rcases hb : rl.conn.checkBan now connectionId with ⟨banned, d⟩
  rw [hb] at hconn
  cases banned with
  | true =>
    simp only [checkBans, hb, if_true]
    exact ⟨trivial, hconn, trivial⟩
  | false =>
    simp only [checkBans, isIpBanned, hb, Bool.false_eq_true, if_false]
    exact ⟨trivial, hconn, Dimension.checkBan_counters rl.ip now ip⟩

/-- Everything `check_and_record` can do: stop at a ban, panic in either dimension, or
give its verdict. -/
theorem checkAndRecord_cases (rl : RateLimiterState) (clock : Clock) (now : ℕ)
    (connectionId : String) (ip : IpAddr) (frameLen : UInt64) {rl₁ rl₂ rl₃ : RateLimiterState}
    {banned : Bool} {connLimited ipLimited : Option Bool}
    (h₁ : rl.checkBans now connectionId ip = (banned, rl₁))
    (h₂ : rl₁.recordConnection clock now connectionId frameLen = (connLimited, rl₂))
    (h₃ : rl₂.recordIp clock now ip frameLen = (ipLimited, rl₃)) :
    rl.checkAndRecord clock now connectionId ip frameLen =
      match banned, connLimited, ipLimited with
      | true, _, _ => (some .banned, rl₁)
      | false, none, _ => (none, rl₂)
      | false, some _, none => (none, rl₃)
      | false, some c, some i => (some (if c || i then .limited else .allowed), rl₃) := by
  simp only [checkAndRecord, h₁, h₂]
  cases banned with
  | true => rfl
  | false =>
    cases connLimited with
    | none => rfl
    | some c =>
      simp only [h₃]
      cases ipLimited <;> rfl

end RateLimiterState

namespace Ledger

structure Inv (l : Ledger) : Prop where
  conn : l.limiter.conn.Kept l.limiter.config.connection l.connSpent
  ip : l.limiter.ip.Kept l.limiter.config.ip l.ipSpent

theorem init_inv (config : RateLimiter) : (init config).Inv := by
  constructor <;> exact fun _ _ _ _ => ⟨fun _ => Nat.zero_le _, fun _ => Nat.zero_le _⟩

theorem Inv.withinBudget {l : Ledger} (h : l.Inv) : l.WithinBudget :=
  ⟨fun cfg b hcfg hb => (h.conn cfg b hcfg hb).within, fun cfg b hcfg hb => (h.ip cfg b hcfg hb).within⟩

theorem recordConnection_kept {clock : Clock} {f : Frame} {l : Ledger} {rl rl' : RateLimiterState}
    {limited : Option Bool} (h : l.Inv)
    (hfit : l.limiter.conn.Fits l.limiter.config.connection f.now f.connectionId f.frameLen)
    (hcfg : rl.config = l.limiter.config) (hc : rl.conn.counters = l.limiter.conn.counters)
    (hr : rl.recordConnection clock f.now f.connectionId f.frameLen = (limited, rl'))
    {allowed : Bool} (ha : allowed = true → limited = some false) :
    rl'.conn.Kept l.limiter.config.connection (l.chargeConn f allowed) := by
  simp only [RateLimiterState.recordConnection, hcfg, Prod.mk.injEq] at hr
  obtain ⟨hlim, rfl⟩ := hr
  rw [chargeConn, ← Dimension.charge_congr hc]
  exact Dimension.recordIf_kept (h.conn.congr hc) (hfit.congr hc) (fun hx => hlim.trans (ha hx))

theorem recordIp_kept {clock : Clock} {f : Frame} {l : Ledger} {rl rl' : RateLimiterState}
    {limited : Option Bool} (h : l.Inv)
    (hfit : l.limiter.ip.Fits l.limiter.config.ip f.now f.ip f.frameLen)
    (hcfg : rl.config = l.limiter.config) (hc : rl.ip.counters = l.limiter.ip.counters)
    (hr : rl.recordIp clock f.now f.ip f.frameLen = (limited, rl'))
    {allowed : Bool} (ha : allowed = true → limited = some false) :
    rl'.ip.Kept l.limiter.config.ip (l.chargeIp f allowed) := by
  simp only [RateLimiterState.recordIp, hcfg, Prod.mk.injEq] at hr
  obtain ⟨hlim, rfl⟩ := hr
  rw [chargeIp, ← Dimension.charge_congr hc]
  exact Dimension.recordIf_kept (h.ip.congr hc) (hfit.congr hc) (fun hx => hlim.trans (ha hx))

theorem step_inv {clock : Clock} {f : Frame} {l l' : Ledger} (hfit : l.Fits f) (h : l.Inv)
    (hs : step clock f l = some l') : l'.Inv := by
  rcases h₁ : l.limiter.checkBans f.now f.connectionId f.ip with ⟨banned, rl₁⟩
  rcases h₂ : rl₁.recordConnection clock f.now f.connectionId f.frameLen with ⟨c, rl₂⟩
  rcases h₃ : rl₂.recordIp clock f.now f.ip f.frameLen with ⟨i, rl₃⟩
  obtain ⟨hcfg₁, hcc, hci⟩ := RateLimiterState.checkBans_frame l.limiter f.now f.connectionId f.ip
  rw [h₁] at hcfg₁ hcc hci
  dsimp only at hcfg₁ hcc hci
  have hcfg₂ : rl₂.config = l.limiter.config ∧ rl₂.ip = rl₁.ip := by
    simp only [RateLimiterState.recordConnection, Prod.mk.injEq] at h₂
    obtain ⟨-, rfl⟩ := h₂
    exact ⟨hcfg₁, rfl⟩
  have hcfg₃ : rl₃.config = l.limiter.config ∧ rl₃.conn = rl₂.conn := by
    simp only [RateLimiterState.recordIp, Prod.mk.injEq] at h₃
    obtain ⟨-, rfl⟩ := h₃
    exact ⟨hcfg₂.1, rfl⟩
  rw [step, RateLimiterState.checkAndRecord_cases l.limiter clock f.now f.connectionId f.ip
    f.frameLen h₁ h₂ h₃] at hs
  split at hs
  · cases hs
  cases banned with
  | true =>
    cases hs
    refine ⟨?_, ?_⟩ <;> simp only [hcfg₁]
    · exact h.conn.congr hcc
    · exact h.ip.congr hci
  | false =>
    obtain ⟨hfc, hfi⟩ := hfit (by rw [h₁])
    have hconn := fun a (ha : a = true → c = some false) =>
      recordConnection_kept h hfc hcfg₁ hcc h₂ ha
    have hip := fun a (ha : a = true → i = some false) =>
      recordIp_kept h hfi hcfg₂.1 (by rw [hcfg₂.2, hci]) h₃ ha
    cases c with
    | none =>
      -- the connection's ban expiry overflowed: the address is not reached
      simp only [h₁, h₂, Option.isSome_none, Bool.false_eq_true, if_false, Option.some.injEq] at hs
      subst hs
      refine ⟨?_, ?_⟩ <;> simp only [hcfg₂.1, hcfg₂.2]
      · exact hconn false nofun
      · exact h.ip.congr hci
    | some c =>
      cases i with
      | none =>
        simp only [h₁, h₂, Option.isSome_some, if_true, Option.some.injEq] at hs
        subst hs
        refine ⟨?_, ?_⟩ <;> simp only [hcfg₃.1, hcfg₃.2]
        · exact hconn false nofun
        · exact hip false nofun
      | some i =>
        cases c <;> cases i <;> cases hs <;> refine ⟨?_, ?_⟩ <;> simp only [hcfg₃.1, hcfg₃.2]
        all_goals first | exact hconn _ (by decide) | exact hip _ (by decide)

/-- In every sequence of calls whose frames fit, no window allows more than `max_bytes`. -/
theorem withinBudget_of_fits (clock : Clock) (config : RateLimiter) {frames : List Frame} {l : Ledger}
    (hfits : Machine.Along (step clock) Fits frames (init config))
    (h : Machine.run (step clock) frames (init config) = some l) : l.WithinBudget :=
  (Machine.run_invariant_along (fun _ _ _ => step_inv) hfits h (init_inv config)).withinBudget

/-- Ten bytes a second for each connection. -/
def tenBytes : RateLimiter := ⟨some ⟨10 ^ 9, none, some 10⟩, none, none⟩

theorem withinBudget_of_fits_twoFrames :
    (Machine.run (step none) [⟨0, "c", .v4 1, 4⟩, ⟨1, "c", .v4 1, 6⟩] (init tenBytes)).isSome ∧
      ∀ l, Machine.run (step none) [⟨0, "c", .v4 1, 4⟩, ⟨1, "c", .v4 1, 6⟩] (init tenBytes) = some l →
        l.WithinBudget := by
  refine ⟨rfl, fun l h => withinBudget_of_fits none tenBytes ?_ h⟩
  refine ⟨fun _ => ⟨?_, ?_⟩, fun _ => ⟨?_, ?_⟩, trivial⟩
  · intro cfg b hcfg hb
    cases hcfg
    cases hb
    exact .inl (by decide)
  · intro cfg b hcfg
    cases hcfg
  · intro cfg b hcfg hb
    cases hcfg
    cases hb
    show (4 : ℕ) + 6 < 2 ^ 64
    decide
  · intro cfg b hcfg
    cases hcfg

theorem oversizedFirstFrame_allowed :
    ∃ l, Machine.run (step none) [⟨0, "c", .v4 1, 11⟩] (init tenBytes) = some l ∧
      l.connSpent "c" = 11 ∧ ¬ l.WithinBudget := by
  refine ⟨_, rfl, rfl, ?_⟩
  intro h
  have hle := h.1 _ _ rfl rfl "c"
  exact absurd hle (by decide)

end Ledger

end Wscall.Server
