import Wscall.Server.WindowCounts

/-!
# Bans follow from the history

Three functions remove entries from a ban table and one overwrites them. None of that
can be seen from an instant on: an entry is only removed once it has run out, and only
overwritten by one that lasts longer.
-/

namespace Wscall.Server

/-- A key is banned at `t` when it exceeded its limit less than the ban's duration ago. -/
def BannedBy {κ : Type} (banDuration : Option ℕ) (exceeded : κ → ℕ → Prop) (key : κ) (t : ℕ) : Prop :=
  ∃ d, banDuration = some d ∧ ∃ t₀, exceeded key t₀ ∧ t₀ ≤ t ∧ t < t₀ + d

/-- With the frame, the window it falls into holds more messages or bytes than the limit. -/
def OverLimit (config : Option RateLimitConfig) (counted : List (ℕ × ℕ)) (f : Frame) : Prop :=
  ∃ cfg, config = some cfg ∧
    ((∃ m, cfg.maxMessages = some m ∧
        m.toNat < (Load.after cfg.period counted (f.now, f.frameLen.toNat)).window.count) ∨
      ∃ b, cfg.maxBytes = some b ∧
        b.toNat < (Load.after cfg.period counted (f.now, f.frameLen.toNat)).weight)

/-- A counted frame of the key at `t` that exceeded the limit, given the frames before it. -/
def Exceeds {κ : Type} [DecidableEq κ] (keyOf : Frame → κ) (config : Option RateLimitConfig) (key : κ)
    (t : ℕ) (before : List Entry) (e : Entry) : Prop :=
  ∃ f, e.call = .checkAndRecord f ∧ e.answer ≠ .verdict (some .banned) ∧ keyOf f = key ∧ f.now = t ∧
    OverLimit config (before.filterMap (Entry.counted keyOf key)) f

/-- The key exceeded its limit at `t`. -/
def Exceeded {κ : Type} [DecidableEq κ] (keyOf : Frame → κ) (config : Option RateLimitConfig)
    (log : List Entry) (key : κ) (t : ℕ) : Prop :=
  History.Any (Exceeds keyOf config key t) log

/-- The key and the instant of a frame that failed a threshold test. -/
def Entry.fault {κ : Type} (keyOf : Frame → κ) (flag : Entry → Bool) (e : Entry) : Option (κ × ℕ) :=
  match e.call with
  | .checkAndRecord f => if flag e then some (keyOf f, f.now) else none
  | _ => none

def Entry.connFault : Entry → Option (String × ℕ) := Entry.fault Frame.connectionId Entry.connExceeded

def Entry.ipFault : Entry → Option (IpAddr × ℕ) := Entry.fault Frame.ip Entry.ipExceeded

/-! ### One dimension -/

namespace Dimension

variable {κ : Type} [DecidableEq κ] {d : Dimension κ} {now t : ℕ} {key : κ}

/-- An entry of the ban table that lasts beyond `t`. -/
def InForce (d : Dimension κ) (key : κ) (t : ℕ) : Prop := ∃ expiry, d.bans key = some expiry ∧ t < expiry

theorem checkBan_eq_true : (d.checkBan now key).1 = true ↔ d.InForce key now := by
  unfold checkBan InForce
  cases hk : d.bans key with
  | none => simp
  | some expiry =>
    by_cases hlt : now < expiry
    · simp [hlt]
    · simp [hlt]

theorem checkBan_inForce (ht : now ≤ t) (k : κ) :
    (d.checkBan now key).2.InForce k t ↔ d.InForce k t := by
  unfold checkBan
  cases hk : d.bans key with
  | none => rfl
  | some expiry =>
    by_cases hlt : now < expiry
    · simp only [hlt, if_true]
    · simp only [hlt, if_false, InForce]
      by_cases hkk : k = key
      · subst hkk
        simp only [Function.update_self, hk, Option.some.injEq, reduceCtorEq, false_and,
          exists_false, exists_eq_left', false_iff]
        omega
      · simp only [Function.update_of_ne hkk]

omit [DecidableEq κ] in
theorem cleanup_inForce (ht : now ≤ t) (staleThreshold : ℕ) (k : κ) :
    (d.cleanup now staleThreshold).InForce k t ↔ d.InForce k t := by
  simp only [InForce, cleanup, Option.filter_eq_some_iff, decide_eq_true_eq]
  constructor
  · rintro ⟨expiry, ⟨hk, -⟩, hlt⟩
    exact ⟨expiry, hk, hlt⟩
  · rintro ⟨expiry, hk, hlt⟩
    exact ⟨expiry, ⟨hk, by omega⟩, hlt⟩

/-- From `time` on, the table bans the keys that the history bans. -/
structure BansMatch (d : Dimension κ) (banDuration : Option ℕ) (faults : List (κ × ℕ)) (time : ℕ) :
    Prop where
  past : ∀ p ∈ faults, p.2 ≤ time
  iff : ∀ key t, time ≤ t →
    (d.InForce key t ↔ BannedBy banDuration (fun key t₀ => (key, t₀) ∈ faults) key t)

variable {banDuration : Option ℕ} {faults : List (κ × ℕ)} {time : ℕ}

omit [DecidableEq κ] in
theorem bansMatch_empty (banDuration : Option ℕ) : (empty : Dimension κ).BansMatch banDuration [] 0 :=
  ⟨by simp, fun key t _ => by simp [InForce, BannedBy, empty]⟩

omit [DecidableEq κ] in
/-- What cannot be told apart from `now` on matches the same history. -/
theorem BansMatch.of_inForce {d' : Dimension κ} (h : d.BansMatch banDuration faults time)
    (hle : time ≤ now) (hd : ∀ key t, now ≤ t → (d'.InForce key t ↔ d.InForce key t)) :
    d'.BansMatch banDuration faults now :=
  ⟨fun p hp => (h.past p hp).trans hle, fun key t ht => (hd key t ht).trans (h.iff key t (hle.trans ht))⟩

theorem BansMatch.banIf (h : d.BansMatch banDuration faults now) (key : κ) (exceeded : Bool)
    (counters : κ → Option WindowCounter) :
    (Dimension.mk counters (Dimension.banIf d.bans banDuration now key exceeded)).BansMatch banDuration
      (faults ++ if exceeded then [(key, now)] else []) now := by
  -- a failed test bans its key anew; the new entry outlasts the old one
  cases exceeded with
  | false => simpa using ⟨h.past, h.iff⟩
  | true =>
    refine ⟨fun p hp => ?_, fun k t ht => ?_⟩
    · rcases List.mem_append.mp hp with hp | hp
      · exact h.past p hp
      · rw [List.mem_singleton.mp hp]
    · have hold := h.iff k t ht
      cases banDuration with
      | none => simpa [InForce, BannedBy, Dimension.banIf] using hold
      | some duration =>
        simp only [if_true, InForce, Dimension.banIf, BannedBy, Option.some.injEq,
          exists_eq_left', List.mem_append, List.mem_singleton, Prod.mk.injEq] at hold ⊢
        by_cases hk : k = key
        · subst hk
          simp only [Function.update_self, Option.some.injEq, exists_eq_left', true_and]
          constructor
          · intro hlt
            exact ⟨now, .inr rfl, ht, hlt⟩
          · intro hban
            obtain ⟨t₀, hmem, -, hlt⟩ := hban
            rcases hmem with hmem | rfl
            · have := h.past _ hmem
              dsimp only at this
              omega
            · exact hlt
        · simpa only [Function.update_of_ne hk, hk, false_and, or_false] using hold

theorem BansMatch.checkBan (h : d.BansMatch banDuration faults time) (hle : time ≤ now) (key : κ) :
    (d.checkBan now key).2.BansMatch banDuration faults now :=
  h.of_inForce hle fun k _ ht => checkBan_inForce ht k

theorem BansMatch.recordIf (h : d.BansMatch banDuration faults now) (config : Option RateLimitConfig)
    (key : κ) (frameLen : UInt64) :
    (d.recordIf none config banDuration now key frameLen).2.BansMatch banDuration
      (faults ++ if d.exceedsIf config now key frameLen then [(key, now)] else []) now := by
  have hbans := h.banIf key (d.exceedsIf config now key frameLen)
    (d.recordIf none config banDuration now key frameLen).2.counters
  rw [← recordIf_bans d config] at hbans
  exact hbans

end Dimension

/-! ### The limiter -/

namespace RateLimiterState

variable {rl : RateLimiterState} {f : Frame}

theorem counts_eq_false :
    rl.counts f = false ↔ rl.conn.InForce f.connectionId f.now ∨ rl.ip.InForce f.ip f.now := by
  simp only [counts, checkBans_eq, Bool.not_eq_false', Bool.or_eq_true, Dimension.checkBan_eq_true]

/-- The counters are the same and, from `now` on, so are the bans. -/
def SameFrom (now : ℕ) (rl rl' : RateLimiterState) : Prop :=
  rl'.conn.counters = rl.conn.counters ∧ rl'.ip.counters = rl.ip.counters ∧
    ∀ t, now ≤ t → (∀ key, rl'.conn.InForce key t ↔ rl.conn.InForce key t) ∧
      ∀ key, rl'.ip.InForce key t ↔ rl.ip.InForce key t

theorem checkBans_sameFrom (rl : RateLimiterState) (now : ℕ) (connectionId : String) (ip : IpAddr) :
    SameFrom now rl (rl.checkBans now connectionId ip).2 := by
  obtain ⟨-, hconn, hip⟩ := checkBans_frame rl now connectionId ip
  refine ⟨hconn, hip, fun t ht => ?_⟩
  rw [checkBans_eq]
  refine ⟨fun key => Dimension.checkBan_inForce ht key, fun key => ?_⟩
  dsimp only
  split
  · rfl
  · exact Dimension.checkBan_inForce ht key

theorem banned_sameFrom (h : (rl.perform (.checkAndRecord f)).1 = .verdict (some .banned)) :
    SameFrom f.now rl (rl.perform (.checkAndRecord f)).2 := by
  rw [perform_banned (perform_eq_banned.mp h)]
  exact checkBans_sameFrom ..

theorem perform_bansMatch {connFaults : List (String × ℕ)} {ipFaults : List (IpAddr × ℕ)} {time : ℕ}
    {call : LimiterCall} (hconn : rl.conn.BansMatch rl.config.banDuration connFaults time)
    (hip : rl.ip.BansMatch rl.config.banDuration ipFaults time) (hle : time ≤ call.now) :
    (rl.perform call).2.conn.BansMatch rl.config.banDuration
        (connFaults ++ (rl.entry call).connFault.toList) call.now ∧
      (rl.perform call).2.ip.BansMatch rl.config.banDuration
        (ipFaults ++ (rl.entry call).ipFault.toList) call.now := by
  cases call with
  | checkAndRecord f =>
    cases hc : rl.counts f with
    | false =>
      obtain ⟨-, -, hsame⟩ := checkBans_sameFrom rl f.now f.connectionId f.ip
      simp only [perform_banned hc, entry, Entry.connFault, Entry.ipFault, Entry.fault, connExceeded, ipExceeded, hc,
        Bool.false_and, Bool.false_eq_true, if_false, Option.toList_none, List.append_nil]
      exact ⟨hconn.of_inForce hle fun key t ht => (hsame t ht).1 key,
        hip.of_inForce hle fun key t ht => (hsame t ht).2 key⟩
    | true =>
      have hconn := (hconn.checkBan hle f.connectionId).recordIf rl.config.connection f.connectionId
        f.frameLen
      have hip := (hip.checkBan hle f.ip).recordIf rl.config.ip f.ip f.frameLen
      rw [Dimension.exceedsIf_congr (Dimension.checkBan_counters ..)] at hconn hip
      simp only [perform_counted hc, entry, Entry.connFault, Entry.ipFault, Entry.fault, connExceeded, ipExceeded,
        hc, Bool.true_and, apply_ite Option.toList, Option.toList_some, Option.toList_none]
      exact ⟨hconn, hip⟩
  | isIpBanned now ip =>
    simp only [entry, Entry.connFault, Entry.ipFault, Entry.fault, Option.toList_none, List.append_nil]
    exact ⟨hconn.of_inForce hle fun _ _ _ => Iff.rfl, hip.checkBan hle ip⟩
  | cleanup now =>
    simp only [entry, Entry.connFault, Entry.ipFault, Entry.fault, Option.toList_none, List.append_nil, perform,
      performOn, cleanup]
    split
    · exact ⟨hconn.of_inForce hle fun key t ht => Dimension.cleanup_inForce ht _ key,
        hip.of_inForce hle fun key t ht => Dimension.cleanup_inForce ht _ key⟩
    · exact ⟨hconn.of_inForce hle fun _ _ _ => Iff.rfl, hip.of_inForce hle fun _ _ _ => Iff.rfl⟩

end RateLimiterState

namespace LimiterRun

/-- What the answer of a call says about bans, given who exceeded a limit before it. -/
def BanAnswer (banDuration : Option ℕ) (conn : String → ℕ → Prop) (ip : IpAddr → ℕ → Prop) (e : Entry) :
    Prop :=
  match e.call with
  | .checkAndRecord f =>
    e.answer = .verdict (some .banned) ↔
      BannedBy banDuration conn f.connectionId f.now ∨ BannedBy banDuration ip f.ip f.now
  | .isIpBanned now addr => e.answer = .ipBanned true ↔ BannedBy banDuration ip addr now
  | .cleanup _ => True

/-- The ban tables follow the threshold tests that failed. -/
structure BansKept (r : LimiterRun) : Prop where
  conn : r.limiter.conn.BansMatch r.limiter.config.banDuration (r.log.filterMap Entry.connFault) r.time
  ip : r.limiter.ip.BansMatch r.limiter.config.banDuration (r.log.filterMap Entry.ipFault) r.time

theorem init_bansKept (config : RateLimiter) : (init config).BansKept :=
  ⟨Dimension.bansMatch_empty _, Dimension.bansMatch_empty _⟩

theorem BansKept.explained {r : LimiterRun} (h : r.BansKept) {call : LimiterCall}
    (hle : r.time ≤ call.now) :
    BanAnswer r.limiter.config.banDuration (fun key t => (key, t) ∈ r.log.filterMap Entry.connFault)
      (fun key t => (key, t) ∈ r.log.filterMap Entry.ipFault) (r.limiter.entry call) := by
  cases call with
  | checkAndRecord f =>
    dsimp only [BanAnswer, RateLimiterState.entry]
    rw [RateLimiterState.perform_eq_banned, RateLimiterState.counts_eq_false, h.conn.iff _ f.now hle,
      h.ip.iff _ f.now hle]
  | isIpBanned now ip =>
    simp only [BanAnswer, RateLimiterState.entry, RateLimiterState.perform, RateLimiterState.performOn,
      RateLimiterState.isIpBanned, Answer.ipBanned.injEq, Dimension.checkBan_eq_true]
    exact h.ip.iff _ _ hle
  | cleanup now => trivial

theorem step_bansKept {call : LimiterCall} {r r' : LimiterRun} (h : r.BansKept)
    (hs : step call r = some r') : r'.BansKept := by
  obtain ⟨hle, rfl⟩ := step_eq_some hs
  obtain ⟨hconn, hip⟩ := RateLimiterState.perform_bansMatch h.conn h.ip hle
  refine ⟨?_, ?_⟩ <;> dsimp only <;> rw [RateLimiterState.perform_config]
  · rwa [History.filterMap_snoc]
  · rwa [History.filterMap_snoc]

/-- Without a ban duration nobody is banned. -/
theorem run_unbanned {config : RateLimiter} (hban : config.banDuration = none)
    {calls : List LimiterCall} {r : LimiterRun} (h : Machine.run step calls (init config) = some r) :
    ∀ e ∈ r.log, e.answer ≠ .verdict (some .banned) := by
  let Unbanned (r : LimiterRun) : Prop :=
    r.limiter.config.banDuration = none ∧ r.BansKept ∧ ∀ e ∈ r.log, e.answer ≠ .verdict (some .banned)
  have hinit : Unbanned (init config) := ⟨hban, init_bansKept config, by simp [init]⟩
  refine (Machine.run_invariant (I := Unbanned) (fun call r r' hr hs => ?_) h hinit).2.2
  obtain ⟨hnone, hkept, hlog⟩ := hr
  have hkept' := step_bansKept hkept hs
  obtain ⟨hle, rfl⟩ := step_eq_some hs
  refine ⟨(congrArg RateLimiter.banDuration (RateLimiterState.perform_config ..)).trans hnone, hkept',
    fun e he => ?_⟩
  rcases List.mem_append.mp he with he | he
  · exact hlog e he
  · obtain rfl := List.mem_singleton.mp he
    have hanswer := hkept.explained hle
    intro hbanned
    cases call with
    | checkAndRecord f =>
      simp only [RateLimiterState.entry] at hbanned
      simp [BanAnswer, RateLimiterState.entry, hbanned, hnone, BannedBy] at hanswer
    | isIpBanned now ip => cases hbanned
    | cleanup now => cases hbanned

end LimiterRun

/-! ### The threshold tests -/

/-- What the path of a first frame tests, `max_messages == Some(0) || max_bytes == Some(0)`, is
that the frame exceeds the limit. -/
def RateLimitConfig.FirstTested (cfg : RateLimitConfig) (frameLen : UInt64) : Prop :=
  cfg.maxMessages = some 0 ∨ ∀ b, cfg.maxBytes = some b → (b = 0 ↔ b < frameLen)

namespace Dimension

variable {κ : Type} [DecidableEq κ] {d : Dimension κ} {counted : κ → List (ℕ × ℕ)}

/-- A frame that the code measures as it is: a first frame is tested, and the window's
messages and bytes have not wrapped. -/
structure Measured (d : Dimension κ) (cfg : RateLimitConfig) (counted : List (ℕ × ℕ)) (key : κ)
    (f : Frame) : Prop where
  first : d.counters key = none → cfg.FirstTested f.frameLen
  messages : (Load.after cfg.period counted (f.now, f.frameLen.toNat)).window.count < 2 ^ 64
  bytes : (Load.after cfg.period counted (f.now, f.frameLen.toNat)).weight < 2 ^ 64

omit [DecidableEq κ] in
theorem Tracks.first {cfg : RateLimitConfig} {now : ℕ} {key : κ}
    (h : Tracks cfg.period now (d.counters key) (Load.current cfg.period (counted key)))
    (hk : d.counters key = none) (len : ℕ) :
    Load.after cfg.period (counted key) (now, len) = ⟨⟨now, 1⟩, len⟩ := by
  rw [hk] at h
  exact Load.next_eq_open (x := (now, len)) h

theorem exceeds_eq_true {counter : WindowCounter} {cfg : RateLimitConfig} :
    counter.exceeds cfg = true ↔
      (∃ m, cfg.maxMessages = some m ∧ m.toNat < counter.messageCount.toNat) ∨
        ∃ b, cfg.maxBytes = some b ∧ b.toNat < counter.byteCount.toNat := by
  simp only [WindowCounter.exceeds, Bool.or_eq_true, Option.any_eq_true_iff_get, gt_iff_lt,
    decide_eq_true_eq, UInt64.lt_iff_toNat_lt]
  cases cfg.maxMessages <;> cases cfg.maxBytes <;> simp

theorem firstTested_iff {cfg : RateLimitConfig} {frameLen : UInt64} (h : cfg.FirstTested frameLen) :
    cfg.maxMessages = some 0 ∨ cfg.maxBytes = some 0 ↔
      (∃ m, cfg.maxMessages = some m ∧ m.toNat < 1) ∨
        ∃ b, cfg.maxBytes = some b ∧ b.toNat < frameLen.toNat := by
  have hmessages : cfg.maxMessages = some 0 ↔ ∃ m, cfg.maxMessages = some m ∧ m.toNat < 1 := by
    cases cfg.maxMessages with
    | none => simp
    | some m =>
      simp only [Option.some.injEq, exists_eq_left', Nat.lt_one_iff]
      exact UInt64.toNat_inj.symm
  rw [← hmessages]
  rcases h with h | h
  · simp [h]
  · refine or_congr_right ?_
    cases hb : cfg.maxBytes with
    | none => simp
    | some b => simp [h b hb, UInt64.lt_iff_toNat_lt]

omit [DecidableEq κ] in
theorem Measured.exceeds_iff {cfg : RateLimitConfig} {key : κ} {f : Frame}
    (hm : d.Measured cfg (counted key) key f)
    (h : Tracks cfg.period f.now (d.counters key) (Load.current cfg.period (counted key))) :
    d.exceeds cfg f.now key f.frameLen = true ↔ OverLimit (some cfg) (counted key) f := by
  simp only [OverLimit, Option.some.injEq, exists_eq_left']
  cases hk : d.counters key with
  | none =>
    rw [h.first hk]
    simp only [Dimension.exceeds, hk, Bool.or_eq_true, decide_eq_true_eq]
    exact firstTested_iff (hm.first hk)
  | some counter =>
    have hnext := h.next f.frameLen
    simp only [Dimension.exceeds, hk, exceeds_eq_true, hnext.messages, hnext.bytes,
      Nat.mod_eq_of_lt hm.messages, Nat.mod_eq_of_lt hm.bytes]

omit [DecidableEq κ] in
theorem CountsMatch.exceedsIf_iff {config : Option RateLimitConfig} {key : κ} {f : Frame}
    (h : d.CountsMatch config counted f.now)
    (hm : ∀ cfg, config = some cfg → d.Measured cfg (counted key) key f) :
    d.exceedsIf config f.now key f.frameLen = true ↔ OverLimit config (counted key) f := by
  cases config with
  | none => simp [Dimension.exceedsIf, OverLimit]
  | some cfg => exact (hm cfg rfl).exceeds_iff (h cfg rfl key)

end Dimension

theorem fault_iff_exceeds {κ : Type} [DecidableEq κ] {keyOf : Frame → κ} {flag : Entry → Bool}
    {config : Option RateLimitConfig} {before : List Entry} {e : Entry}
    (h : ∀ f, e.call = .checkAndRecord f → (flag e = true ↔ e.answer ≠ .verdict (some .banned) ∧
      OverLimit config (before.filterMap (Entry.counted keyOf (keyOf f))) f)) (key : κ) (t : ℕ) :
    e.fault keyOf flag = some (key, t) ↔ Exceeds keyOf config key t before e := by
  unfold Exceeds Entry.fault
  cases hcall : e.call with
  | checkAndRecord f =>
    simp only [LimiterCall.checkAndRecord.injEq, exists_eq_left', Option.ite_none_right_eq_some, h f hcall,
      Option.some.injEq, Prod.mk.injEq]
    constructor
    · rintro ⟨⟨hfree, hover⟩, rfl, rfl⟩
      exact ⟨hfree, rfl, rfl, hover⟩
    · rintro ⟨hfree, rfl, rfl, hover⟩
      exact ⟨⟨hfree, hover⟩, rfl, rfl⟩
  | isIpBanned now ip => simp
  | cleanup now => simp

namespace LimiterRun

/-- If no ban stops the frame, it is measured as it is in each configured dimension. -/
def Measured (r : LimiterRun) : LimiterCall → Prop
  | .checkAndRecord f => r.limiter.counts f = true →
    (∀ cfg, r.limiter.config.connection = some cfg → r.limiter.conn.Measured cfg
      (r.log.filterMap (Entry.counted Frame.connectionId f.connectionId)) f.connectionId f) ∧
    ∀ cfg, r.limiter.config.ip = some cfg →
      r.limiter.ip.Measured cfg (r.log.filterMap (Entry.counted Frame.ip f.ip)) f.ip f
  | _ => True

/-- What the answer of a call says about bans, from the log before it. -/
def BanExplained (config : RateLimiter) (before : List Entry) (e : Entry) : Prop :=
  BanAnswer config.banDuration (Exceeded Frame.connectionId config.connection before)
    (Exceeded Frame.ip config.ip before) e

theorem Measured.faults {r : LimiterRun} {call : LimiterCall} (hm : r.Measured call) (h : r.CountsKept)
    (hle : r.time ≤ call.now) :
    (∀ key t, (r.limiter.entry call).connFault = some (key, t) ↔
      Exceeds Frame.connectionId r.limiter.config.connection key t r.log (r.limiter.entry call)) ∧
    ∀ key t, (r.limiter.entry call).ipFault = some (key, t) ↔
      Exceeds Frame.ip r.limiter.config.ip key t r.log (r.limiter.entry call) := by
  refine ⟨fun key t => fault_iff_exceeds (fun f hf => ?_) key t,
    fun key t => fault_iff_exceeds (fun f hf => ?_) key t⟩
  all_goals
    simp only [RateLimiterState.entry] at hf
    subst hf
    change r.time ≤ f.now at hle
    simp only [RateLimiterState.entry, RateLimiterState.connExceeded, RateLimiterState.ipExceeded, ne_eq,
      RateLimiterState.perform_eq_banned, Bool.not_eq_false, Bool.and_eq_true]
    refine and_congr_right fun hc => ?_
  · exact (h.conn.congr rfl hle).exceedsIf_iff (hm hc).1
  · exact (h.ip.congr rfl hle).exceedsIf_iff (hm hc).2

/-- The failed tests in the log are the frames that exceeded a limit. -/
structure FaultsKept (r : LimiterRun) : Prop where
  bans : r.BansKept
  counts : r.CountsKept
  conn : ∀ key t, (key, t) ∈ r.log.filterMap Entry.connFault ↔
    Exceeded Frame.connectionId r.limiter.config.connection r.log key t
  ip : ∀ key t, (key, t) ∈ r.log.filterMap Entry.ipFault ↔
    Exceeded Frame.ip r.limiter.config.ip r.log key t
  each : History.Each (BanExplained r.limiter.config) r.log

theorem init_faultsKept (config : RateLimiter) : (init config).FaultsKept where
  bans := init_bansKept config
  counts := init_countsKept config
  conn key t := by simp [init, Exceeded, History.not_any_nil]
  ip key t := by simp [init, Exceeded, History.not_any_nil]
  each := History.each_nil _

theorem FaultsKept.explained {r : LimiterRun} (h : r.FaultsKept) {call : LimiterCall}
    (hle : r.time ≤ call.now) : BanExplained r.limiter.config r.log (r.limiter.entry call) := by
  have hbans := h.bans.explained hle
  simp only [h.conn, h.ip] at hbans
  exact hbans

theorem step_faultsKept {call : LimiterCall} {r r' : LimiterRun} (hm : r.Measured call)
    (h : r.FaultsKept) (hs : step call r = some r') : r'.FaultsKept := by
  have hbans := step_bansKept h.bans hs
  have hcounts := step_countsKept h.counts hs
  obtain ⟨hle, rfl⟩ := step_eq_some hs
  obtain ⟨hconn, hip⟩ := hm.faults h.counts hle
  refine ⟨hbans, hcounts, fun key t => ?_, fun key t => ?_, ?_⟩ <;> dsimp only <;>
    rw [RateLimiterState.perform_config]
  · rw [Exceeded, History.any_snoc, ← hconn, History.filterMap_snoc, List.mem_append, h.conn key t,
      Option.mem_toList]
    rfl
  · rw [Exceeded, History.any_snoc, ← hip, History.filterMap_snoc, List.mem_append, h.ip key t,
      Option.mem_toList]
    rfl
  · exact h.each.snoc (h.explained hle)

/-- In every run whose frames are measured as they are, a frame is `Banned` and an address is
banned exactly when the history says so; in every run, a banned frame leaves the counters and
the bans as they are. -/
theorem bans_exact {config : RateLimiter} {calls : List LimiterCall} {r : LimiterRun}
    (h : Machine.run step calls (init config) = some r) :
    (Machine.Along step Measured calls (init config) → History.Each (BanExplained config) r.log) ∧
      ∀ f, (r.limiter.perform (.checkAndRecord f)).1 = .verdict (some .banned) →
        RateLimiterState.SameFrom f.now r.limiter (r.limiter.perform (.checkAndRecord f)).2 := by
  refine ⟨fun hall => ?_, fun f hf => RateLimiterState.banned_sameFrom hf⟩
  have hcfg : r.limiter.config = config := (run_log h).2
  have hkept := Machine.run_invariant_along (fun _ _ _ hm hr hs => step_faultsKept hm hr hs) hall h
    (init_faultsKept config)
  exact hcfg ▸ hkept.each

/-- One message in ten instants for each address, and a ban of a hundred. -/
def oneMessage : RateLimiter := ⟨none, some ⟨10, some 1, none⟩, some 100⟩

/-- The second frame is limited at 1; its ban lasts through 100. -/
def bannedUntil : List LimiterCall :=
  [.checkAndRecord ⟨0, "a", .v4 1, 5⟩, .checkAndRecord ⟨1, "b", .v4 1, 5⟩,
    .checkAndRecord ⟨100, "a", .v4 1, 5⟩, .isIpBanned 100 (.v4 1), .cleanup 101,
    .isIpBanned 101 (.v4 1)]

theorem bans_exact_bannedUntil :
    (Machine.run step bannedUntil (init oneMessage)).any (fun r => r.log.map (·.answer) =
      [.verdict (some .allowed), .verdict (some .limited), .verdict (some .banned), .ipBanned true,
        .cleaned, .ipBanned false]) ∧
    Machine.Along step Measured bannedUntil (init oneMessage) ∧
    ∀ r, Machine.run step bannedUntil (init oneMessage) = some r →
      History.Each (BanExplained oneMessage) r.log := by
  have hall : Machine.Along step Measured bannedUntil (init oneMessage) := by
    refine ⟨fun _ => ⟨fun cfg hcfg => ?_, fun cfg hcfg => ?_⟩,
      fun _ => ⟨fun cfg hcfg => ?_, fun cfg hcfg => ?_⟩, fun hc => ?_, trivial, trivial, trivial, trivial⟩
    · cases hcfg
    · cases hcfg
      exact ⟨fun _ => .inr fun b hb => (by cases hb), by decide, by decide⟩
    · cases hcfg
    · cases hcfg
      exact ⟨fun hk => absurd hk (by decide), by decide +kernel, by decide +kernel⟩
    · -- the third frame is banned
      exact absurd hc (by decide +kernel)
  exact ⟨by decide +kernel, hall, fun _ h => (bans_exact h).1 hall⟩

/-- Ten bytes in ten instants for each connection, and a ban of a hundred. -/
def banAtTenBytes : RateLimiter := ⟨some ⟨10, none, some 10⟩, none, some 100⟩

/-- The first frame is one byte over the limit, the second follows at once. -/
def oversizedFirst : List LimiterCall :=
  [.checkAndRecord ⟨0, "c", .v4 1, 11⟩, .checkAndRecord ⟨1, "c", .v4 1, 1⟩]

/-- The first frame exceeds the limit and is allowed; the next one is not banned. -/
theorem oversizedFirst_unbanned :
    ∃ r, Machine.run step oversizedFirst (init banAtTenBytes) = some r ∧
      r.log.map (·.answer) = [.verdict (some .allowed), .verdict (some .limited)] ∧
      Exceeded Frame.connectionId banAtTenBytes.connection r.log "c" 0 ∧
      ¬ History.Each (BanExplained banAtTenBytes) r.log := by
  have hfirst : Exceeded Frame.connectionId banAtTenBytes.connection
      [(init banAtTenBytes).limiter.entry (.checkAndRecord ⟨0, "c", .v4 1, 11⟩)] "c" 0 :=
    ⟨[], _, [], rfl, ⟨0, "c", .v4 1, 11⟩, rfl, by decide +kernel, rfl, rfl, _, rfl,
      .inr ⟨10, rfl, by decide⟩⟩
  refine ⟨_, rfl, by decide +kernel, History.any_snoc.mpr (.inl hfirst), fun h => ?_⟩
  have hsecond := (h [_] _ [] rfl).mpr (.inl ⟨100, rfl, 0, hfirst, Nat.zero_le _, by decide⟩)
  exact absurd hsecond (by decide +kernel)

end LimiterRun

end Wscall.Server
