import Mathlib.Data.List.Basic
import Wscall.Server.Bans

/-!
# The message budget of a window

Without `max_bytes`, a counted frame is tested by its number in the window its key is in, as
the `u64` counter holds it.
-/

namespace Wscall.Server

/-! ### One dimension -/

namespace Dimension

variable {κ : Type} [DecidableEq κ] {d : Dimension κ} {config : RateLimitConfig} {now : ℕ} {key : κ}

omit [DecidableEq κ] in
theorem exceeds_eq (hb : config.maxBytes = none) (frameLen : UInt64) :
    d.exceeds config now key frameLen =
      config.maxMessages.any ((d.nextCounter config now key frameLen).messageCount > ·) := by
  cases hk : d.counters key with
  | some counter => simp only [exceeds, hk, WindowCounter.exceeds, hb, Option.any_none, Bool.or_false]
  | none =>
    simp only [exceeds, nextCounter, hk, hb, reduceCtorEq, decide_false, Bool.or_false]
    cases config.maxMessages with
    | none => rfl
    | some m =>
      simp only [Option.some.injEq, Option.any_some, gt_iff_lt, decide_eq_decide,
        UInt64.lt_iff_toNat_lt, ← UInt64.toNat_inj, UInt64.toNat_zero, UInt64.toNat_one]
      omega

end Dimension

/-- The frame's number in its window, counted as the code counts, is within the limit. -/
def WithinLimit (config : Option RateLimitConfig) (times : List ℕ) (now : ℕ) : Prop :=
  ∀ cfg m, config = some cfg → cfg.maxMessages = some m →
    Window.ordinal cfg.period times now % 2 ^ 64 ≤ m.toNat

theorem withinLimit_some {cfg : RateLimitConfig} {times : List ℕ} {now : ℕ} :
    WithinLimit (some cfg) times now ↔
      ∀ m, cfg.maxMessages = some m → Window.ordinal cfg.period times now % 2 ^ 64 ≤ m.toNat := by
  constructor
  · intro h m hm
    exact h cfg m rfl hm
  · intro h cfg' m hcfg hm
    cases hcfg
    exact h m hm

def NoByteLimit (config : Option RateLimitConfig) : Prop := ∀ cfg, config = some cfg → cfg.maxBytes = none

namespace Dimension

variable {κ : Type} [DecidableEq κ] {d : Dimension κ} {config : Option RateLimitConfig}
  {counted : κ → List (ℕ × ℕ)} {now : ℕ}

omit [DecidableEq κ] in
theorem CountsMatch.exceedsIf (h : d.CountsMatch config counted now) (hb : NoByteLimit config) (key : κ)
    (frameLen : UInt64) :
    d.exceedsIf config now key frameLen = false ↔
      WithinLimit config ((counted key).map Prod.fst) now := by
  cases config with
  | none => simp [Dimension.exceedsIf, WithinLimit]
  | some cfg =>
    have hcount := ((h cfg rfl key).next frameLen).messages
    rw [Load.after_count] at hcount
    rw [withinLimit_some, ← hcount]
    simp only [Dimension.exceedsIf, Option.any_some, exceeds_eq (hb cfg rfl)]
    cases cfg.maxMessages with
    | none => simp
    | some m => simp [UInt64.le_iff_toNat_le]

end Dimension

/-! ### The limiter -/

/-- The instants at which frames of a connection were counted. -/
def Entry.connCounted (key : String) (e : Entry) : Option ℕ :=
  match e.call with
  | .checkAndRecord f =>
    if f.connectionId = key ∧ e.answer ≠ .verdict (some .banned) then some f.now else none
  | _ => none

def Entry.ipCounted (key : IpAddr) (e : Entry) : Option ℕ :=
  match e.call with
  | .checkAndRecord f =>
    if f.ip = key ∧ e.answer ≠ .verdict (some .banned) then some f.now else none
  | _ => none

theorem map_counted_connectionId (key : String) (log : List Entry) :
    (log.filterMap (Entry.counted Frame.connectionId key)).map Prod.fst =
      log.filterMap (Entry.connCounted key) := by
  rw [List.map_filterMap]
  refine List.filterMap_congr fun e _ => ?_
  unfold Entry.counted Entry.connCounted
  cases e.call <;> simp [apply_ite (Option.map Prod.fst)]

theorem map_counted_ip (key : IpAddr) (log : List Entry) :
    (log.filterMap (Entry.counted Frame.ip key)).map Prod.fst = log.filterMap (Entry.ipCounted key) := by
  rw [List.map_filterMap]
  refine List.filterMap_congr fun e _ => ?_
  unfold Entry.counted Entry.ipCounted
  cases e.call <;> simp [apply_ite (Option.map Prod.fst)]

namespace LimiterRun

/-- In both dimensions the frame is within the limit of its key's current window. -/
def Within (config : RateLimiter) (before : List Entry) (f : Frame) : Prop :=
  WithinLimit config.connection (before.filterMap (Entry.connCounted f.connectionId)) f.now ∧
    WithinLimit config.ip (before.filterMap (Entry.ipCounted f.ip)) f.now

/-- A counted frame is allowed within the limits and limited beyond them. -/
def BudgetExplained (config : RateLimiter) (before : List Entry) (e : Entry) : Prop :=
  ∀ f, e.call = .checkAndRecord f → e.answer ≠ .verdict (some .banned) →
    (e.answer = .verdict (some .allowed) ↔ Within config before f) ∧
      (e.answer = .verdict (some .limited) ↔ ¬ Within config before f)

structure BudgetKept (r : LimiterRun) : Prop where
  counts : r.CountsKept
  each : History.Each (BudgetExplained r.limiter.config) r.log

theorem init_budgetKept (config : RateLimiter) : (init config).BudgetKept :=
  ⟨init_countsKept config, History.each_nil _⟩

theorem CountsKept.explained {r : LimiterRun} (h : r.CountsKept)
    (hc : NoByteLimit r.limiter.config.connection) (hi : NoByteLimit r.limiter.config.ip)
    {call : LimiterCall} (hle : r.time ≤ call.now) :
    BudgetExplained r.limiter.config r.log (r.limiter.entry call) := by
  intro f hf hfree
  cases hf
  change r.time ≤ f.now at hle
  have hcounts : r.limiter.counts f = true := by
    have := RateLimiterState.perform_eq_banned.not.mp hfree
    simpa using this
  have hconn := (h.conn.congr rfl hle).exceedsIf hc f.connectionId f.frameLen
  have hip := (h.ip.congr rfl hle).exceedsIf hi f.ip f.frameLen
  rw [map_counted_connectionId] at hconn
  rw [map_counted_ip] at hip
  dsimp only [RateLimiterState.entry, Within]
  rw [RateLimiterState.perform_counted hcounts]
  simp only [RateLimiterState.connExceeded, RateLimiterState.ipExceeded, hcounts, Bool.true_and]
  rw [← hconn, ← hip]
  cases r.limiter.conn.exceedsIf r.limiter.config.connection f.now f.connectionId f.frameLen <;>
    cases r.limiter.ip.exceedsIf r.limiter.config.ip f.now f.ip f.frameLen <;> simp

theorem step_budgetKept {call : LimiterCall} {r r' : LimiterRun}
    (h : NoByteLimit r.limiter.config.connection ∧ NoByteLimit r.limiter.config.ip ∧ r.BudgetKept)
    (hs : step call r = some r') :
    NoByteLimit r'.limiter.config.connection ∧ NoByteLimit r'.limiter.config.ip ∧ r'.BudgetKept := by
  obtain ⟨hc, hi, h⟩ := h
  have hcounts := step_countsKept h.counts hs
  obtain ⟨hle, rfl⟩ := step_eq_some hs
  have heach := h.each.snoc (h.counts.explained hc hi hle)
  dsimp only
  rw [RateLimiterState.perform_config]
  refine ⟨hc, hi, hcounts, ?_⟩
  dsimp only
  rw [RateLimiterState.perform_config]
  exact heach

theorem run_budgetKept {config : RateLimiter} (hc : NoByteLimit config.connection)
    (hi : NoByteLimit config.ip) {calls : List LimiterCall} {r : LimiterRun}
    (h : Machine.run step calls (init config) = some r) : r.BudgetKept :=
  (Machine.run_invariant (fun _ _ _ hr hs => step_budgetKept hr hs) h
    ⟨hc, hi, init_budgetKept config⟩).2.2

/-- In every run without byte limits, a frame that is not banned is allowed exactly when it is
within the message limit of its key's window in both dimensions. -/
theorem message_budget_exact {config : RateLimiter} (hc : NoByteLimit config.connection)
    (hi : NoByteLimit config.ip) {calls : List LimiterCall} {r : LimiterRun}
    (h : Machine.run step calls (init config) = some r) :
    History.Each (BudgetExplained config) r.log := by
  have hcfg : r.limiter.config = config := (run_log h).2
  exact hcfg ▸ (run_budgetKept hc hi h).each

/-- Two messages in ten instants for each connection, three for each address. -/
def fewMessages : RateLimiter := ⟨some ⟨10, some 2, none⟩, some ⟨10, some 3, none⟩, none⟩

def fewFrames : List LimiterCall :=
  [.checkAndRecord ⟨0, "a", .v4 1, 5⟩, .checkAndRecord ⟨4, "a", .v4 1, 5⟩,
    .checkAndRecord ⟨9, "a", .v4 1, 5⟩, .checkAndRecord ⟨9, "b", .v4 1, 5⟩,
    .checkAndRecord ⟨10, "b", .v4 1, 5⟩, .cleanup 40, .checkAndRecord ⟨40, "a", .v4 1, 5⟩]

theorem message_budget_exact_fewFrames :
    (Machine.run step fewFrames (init fewMessages)).any (fun r => r.log.map (·.answer) =
      [.verdict (some .allowed), .verdict (some .allowed), .verdict (some .limited),
        .verdict (some .limited), .verdict (some .allowed), .cleaned, .verdict (some .allowed)]) ∧
    ∀ r, Machine.run step fewFrames (init fewMessages) = some r →
      History.Each (BudgetExplained fewMessages) r.log := by
  refine ⟨by decide +kernel, fun r h => message_budget_exact ?_ ?_ h⟩ <;>
    exact fun cfg hcfg => (by cases hcfg; rfl)

/-! ### A window of `2 ^ 64` frames -/

theorem run_at_once {calls : List LimiterCall} {r : LimiterRun} (h : ∀ call ∈ calls, call.now = r.time) :
    ∃ r', Machine.run step calls r = some r' := by
  induction calls generalizing r with
  | nil => exact ⟨r, rfl⟩
  | cons call calls ih =>
    have hnow := h call (List.mem_cons_self ..)
    obtain ⟨r', hr'⟩ := ih (r := ⟨(r.limiter.perform call).2, call.now, r.log ++ [r.limiter.entry call]⟩)
      fun c hc => (h c (List.mem_cons_of_mem _ hc)).trans hnow.symm
    refine ⟨r', ?_⟩
    simpa [Machine.run, step, hnow] using hr'

/-- No message at all is allowed to a connection. -/
def noMessages : RateLimiter := ⟨some ⟨1, some 0, none⟩, none, none⟩

def emptyFrame : Frame := ⟨0, "c", .v4 1, 0⟩

theorem flood_counted {n : ℕ} {r : LimiterRun}
    (h : Machine.run step (List.replicate n (.checkAndRecord emptyFrame)) (init noMessages) = some r)
    {e : Entry} (he : e ∈ r.log) :
    e.call = .checkAndRecord emptyFrame ∧ e.answer ≠ .verdict (some .banned) := by
  obtain ⟨hlog, -⟩ := run_log h
  have hcall : e.call = .checkAndRecord emptyFrame := by
    have hmem : e.call ∈ r.log.map (·.call) := List.mem_map_of_mem he
    rw [hlog] at hmem
    exact List.eq_of_mem_replicate (n := n) hmem
  exact ⟨hcall, run_unbanned rfl h e he⟩

theorem flood_ordinal {n : ℕ} (hn : 0 < n) :
    ∃ r before e, Machine.run step (List.replicate n (.checkAndRecord emptyFrame)) (init noMessages) =
        some r ∧ r.log = before ++ [e] ∧
      Window.ordinal 1 (before.filterMap (Entry.connCounted "c")) 0 = n ∧
      (e.answer = .verdict (some .allowed) ↔ n % 2 ^ 64 = 0) := by
  obtain ⟨r, h⟩ : ∃ r, Machine.run step (List.replicate n (.checkAndRecord emptyFrame))
      (init noMessages) = some r :=
    run_at_once fun call hcall => by rw [List.eq_of_mem_replicate hcall]; rfl
  have hlen : r.log.length = n := by
    have := congrArg List.length (run_log h).1
    simpa [init] using this
  rcases List.eq_nil_or_concat r.log with hnil | ⟨before, e, hsplit⟩
  · rw [hnil, List.length_nil] at hlen
    omega
  rw [List.concat_eq_append] at hsplit
  have hbefore : before.length = n - 1 := by
    rw [hsplit, List.length_append, List.length_singleton] at hlen
    omega
  have hcounted : before.filterMap (Entry.connCounted "c") = List.replicate (n - 1) 0 := by
    rw [List.filterMap_congr (g := some ∘ fun _ => 0), List.filterMap_eq_map, List.map_const', hbefore]
    intro e' he'
    obtain ⟨hcall, hfree⟩ := flood_counted h (e := e') (by simp [hsplit, he'])
    simp [Entry.connCounted, hcall, hfree, emptyFrame]
  have hordinal : Window.ordinal 1 (List.replicate (n - 1) 0) 0 = n := by
    cases hm : n - 1 with
    | zero =>
      have hone : n = 1 := by omega
      rw [hone]
      rfl
    | succ m =>
      have hm' : n = m + 2 := by omega
      rw [Window.ordinal, Window.current_replicate Nat.one_pos, hm']
      rfl
  obtain ⟨hcall, hfree⟩ := flood_counted h (e := e) (by simp [hsplit])
  have hexplained := (run_budgetKept (fun cfg hcfg => (by cases hcfg; rfl)) (fun cfg hcfg => (by cases hcfg))
    h).each before e [] hsplit emptyFrame hcall hfree
  rw [(run_log h).2] at hexplained
  refine ⟨r, before, e, h, hsplit, by rw [hcounted, hordinal], hexplained.1.trans ?_⟩
  have hip : WithinLimit none (before.filterMap (Entry.ipCounted (.v4 1))) 0 :=
    fun cfg m hcfg => by cases hcfg
  simp only [Within, init, RateLimiter.build, noMessages, emptyFrame, hcounted, withinLimit_some,
    hordinal, Option.some.injEq, forall_eq', hip, and_true]
  exact Nat.le_zero

/-- The frame with number `2 ^ 64` in its window is allowed although no message is. -/
theorem flood_allowed :
    ∃ r before e,
      Machine.run step (List.replicate (2 ^ 64) (.checkAndRecord emptyFrame)) (init noMessages) = some r ∧
      r.log = before ++ [e] ∧ Window.ordinal 1 (before.filterMap (Entry.connCounted "c")) 0 = 2 ^ 64 ∧
      e.answer = .verdict (some .allowed) := by
  obtain ⟨r, before, e, hrun, hlog, hordinal, hanswer⟩ := flood_ordinal (n := 2 ^ 64) (by decide)
  exact ⟨r, before, e, hrun, hlog, hordinal, hanswer.mpr (by decide)⟩

end LimiterRun

end Wscall.Server
