import Wscall.Server.LimiterSteps

/-!
# Counting the frames of one address concurrently

A call that finds no counter inserts one with its own frame, in a second operation. The
counter has every call as long as such an insertion creates it; one that overwrites it
loses the calls counted so far, and nothing brings them back.
-/

namespace Wscall.Server

namespace Pc

def frame : Pc → Option Frame
  | .connBansGet f | .connBansRemove f | .ipBansGet f | .ipBansRemove f _ | .connCountersGetMut f
  | .connCountersInsert f | .connBansInsert f _ | .ipCountersGetMut f _ | .ipCountersInsert f _
  | .ipBansInsert f _ | .returned f _ => some f
  | _ => none

/-- The call is past the counter of its address. -/
def counted : Pc → Bool
  | .ipBansInsert .. | .returned _ (some .allowed) | .returned _ (some .limited) => true
  | _ => false

/-- The frame whose counter the call is about to create. -/
def creates : Pc → Option Frame
  | .ipCountersInsert f _ => some f
  | _ => none

/-- A `check_and_record` for address `a` at an instant in `W` that may still be allowed. -/
def Fine (a : IpAddr) (W : ℕ → Prop) (pc : Pc) : Prop :=
  (∃ f, pc.frame = some f ∧ f.ip = a ∧ W f.now) ∧ ∀ f v, pc = .returned f v → v = some .allowed

variable {clock : Clock} {time : ℕ} {rl rl' : RateLimiterState} {pc pc' : Pc} {f : Frame}

theorem enterIp_frame (config : RateLimiter) (f : Frame) (limited : Bool) :
    (enterIp config f limited).frame = some f :=
  enterIp_rule (P := fun pc => pc.frame = some f) rfl fun _ => rfl

theorem enterConn_frame (config : RateLimiter) (f : Frame) : (enterConn config f).frame = some f :=
  enterConn_rule (P := fun pc => pc.frame = some f) rfl (enterIp_frame config f false)

theorem afterConnTest_frame (clock : Clock) (config : RateLimiter) (f : Frame) (exceeded : Bool) :
    (afterConnTest clock config f exceeded).frame = some f :=
  afterTest_rule (P := fun pc => pc.frame = some f) (fun _ => rfl) rfl (enterIp_frame config f)

theorem afterIpTest_frame (clock : Clock) (config : RateLimiter) (f : Frame) (limited exceeded : Bool) :
    (afterIpTest clock config f limited exceeded).frame = some f :=
  afterTest_rule (P := fun pc => pc.frame = some f) (fun _ => rfl) rfl fun _ => rfl

theorem stepCall_frame (h : stepCall clock time rl pc = some (pc', rl')) :
    pc'.frame = pc.frame ∧ rl'.config = rl.config := by
  cases callStep_of_stepCall h with
  | ipFree | ipRemove => exact ⟨enterConn_frame .., rfl⟩
  | connAdd | connInsert => exact ⟨afterConnTest_frame .., rfl⟩
  | connBan => exact ⟨enterIp_frame .., rfl⟩
  | ipAdd | ipInsert => exact ⟨afterIpTest_frame .., rfl⟩
  | _ => exact ⟨rfl, rfl⟩

/-- Where the IP dimension is configured, a call enters it uncounted. -/
theorem enterIp_counted {config : RateLimiter} {cfg : RateLimitConfig} (hcfg : config.ip = some cfg)
    (f : Frame) (limited : Bool) : (enterIp config f limited).counted = false :=
  enterIp_rule (P := fun pc => pc.counted = false) rfl fun hnone => by simp [hcfg] at hnone

theorem enterConn_counted {config : RateLimiter} {cfg : RateLimitConfig} (hcfg : config.ip = some cfg)
    (f : Frame) : (enterConn config f).counted = false :=
  enterConn_rule (P := fun pc => pc.counted = false) rfl (enterIp_counted hcfg f false)

theorem afterConnTest_counted {config : RateLimiter} {cfg : RateLimitConfig} (hcfg : config.ip = some cfg)
    (clock : Clock) (f : Frame) (exceeded : Bool) :
    (afterConnTest clock config f exceeded).counted = false :=
  afterTest_rule (P := fun pc => pc.counted = false) (fun _ => rfl) rfl (enterIp_counted hcfg f)

theorem Fine.afterIpTest {a : IpAddr} {W : ℕ → Prop} {config : RateLimiter} {limited exceeded : Bool}
    (h : (afterIpTest clock config f limited exceeded).Fine a W) :
    (Wscall.Server.afterIpTest clock config f limited exceeded).counted = true := by
  revert h
  refine afterTest_rule (P := fun pc => pc.Fine a W → pc.counted = true) (fun _ _ => rfl) ?_ ?_
  · exact fun h => absurd (h.2 _ _ rfl) (by simp)
  · intro exceeded _
    cases limited <;> cases exceeded <;> rfl

/-- What one operation of a call that stays fine does to the counter of its address. -/
inductive Counts (cfg : RateLimitConfig) (rl rl' : RateLimiterState) (pc pc' : Pc) : Prop where
  | none (creates : pc.creates = Option.none) (counters : rl'.ip.counters = rl.ip.counters)
      (counted : pc'.counted = pc.counted)
  | added (f : Frame) (creates : pc.creates = Option.none) (frame : pc.frame = some f)
      (before : pc.counted = false) (after : pc'.counted = true) (counter : WindowCounter)
      (found : rl.ip.counters f.ip = some counter)
      (counters : rl'.ip.counters = Function.update rl.ip.counters f.ip
        (some ((counter.maybeReset f.now cfg.period).add f.frameLen)))
  | inserted (f : Frame) (creates : pc.creates = some f) (frame : pc.frame = some f)
      (before : pc.counted = false) (after : pc'.counted = true)
      (counters : rl'.ip.counters = Function.update rl.ip.counters f.ip
        (some ⟨f.now, 1, f.frameLen⟩))

theorem stepCall_counts {a : IpAddr} {W : ℕ → Prop} {cfg : RateLimitConfig}
    (hcfg : rl.config.ip = some cfg) (h : stepCall clock time rl pc = some (pc', rl'))
    (hfine : pc'.Fine a W) : Counts cfg rl rl' pc pc' := by
  cases callStep_of_stepCall h with
  | connBanned | ipBanned => exact absurd (hfine.2 _ _ rfl) (by simp)
  | ipFree | ipRemove => exact .none rfl rfl (enterConn_counted hcfg _)
  | connAdd | connInsert => exact .none rfl rfl (afterConnTest_counted hcfg clock _ _)
  | connBan => exact .none rfl rfl (enterIp_counted hcfg _ true)
  | ipAdd hcfg' found =>
    rw [hcfg] at hcfg'
    cases hcfg'
    exact .added _ rfl rfl rfl hfine.afterIpTest _ found rfl
  | ipInsert => exact .inserted _ rfl rfl rfl hfine.afterIpTest rfl
  | retainIpCounters =>
    obtain ⟨⟨f, hf, -⟩, -⟩ := hfine
    cases hf
  | _ => exact .none rfl rfl rfl

theorem Fine.of_step {a : IpAddr} {W : ℕ → Prop} (h : stepCall clock time rl pc = some (pc', rl'))
    (hfine : pc'.Fine a W) : pc.Fine a W := by
  refine ⟨(stepCall_frame h).1 ▸ hfine.1, fun f v hpc => ?_⟩
  subst hpc
  cases h

/-- What a call adds to the count, and to the bytes, of its address. -/
def weight (pc : Pc) : ℕ := if pc.counted then 1 else 0

def bytes (pc : Pc) : ℕ := if pc.counted then (pc.frame.elim 0 (·.frameLen.toNat)) else 0

end Pc

theorem sum_map_set {α : Type} (w : α → ℕ) {l : List α} {i : ℕ} {x : α} (h : l[i]? = some x) (y : α) :
    ((l.set i y).map w).sum + w x = (l.map w).sum + w y := by
  induction l generalizing i with
  | nil => simp at h
  | cons z l ih =>
    cases i with
    | zero =>
      simp only [List.getElem?_cons_zero, Option.some.injEq] at h
      subst h
      simp only [List.set_cons_zero, List.map_cons, List.sum_cons]
      omega
    | succ i =>
      have := ih (by simpa using h)
      simp only [List.set_cons_succ, List.map_cons, List.sum_cons]
      omega

namespace Limiter

variable {clock : Clock} {a : IpAddr} {W : ℕ → Prop} {cfg : RateLimitConfig} {s s' : Limiter}

/-- The counter of `a` stands at `n` messages and `b` bytes, counted from an instant in `W`. -/
def Tally (rl : RateLimiterState) (a : IpAddr) (W : ℕ → Prop) (n b : ℕ) : Prop :=
  match rl.ip.counters a with
  | none => n = 0 ∧ b = 0
  | some counter =>
    W counter.windowStart ∧ 0 < n ∧ counter.messageCount.toNat = n % 2 ^ 64 ∧
      counter.byteCount.toNat = b % 2 ^ 64

def countedCalls (s : Limiter) : ℕ := (s.calls.map Pc.weight).sum

def countedBytes (s : Limiter) : ℕ := (s.calls.map Pc.bytes).sum

def AllFine (a : IpAddr) (W : ℕ → Prop) (s : Limiter) : Prop := ∀ pc ∈ s.calls, pc.Fine a W

/-- An `ip_counters.insert` creates the counter: no other call has since its `get_mut`. -/
def CreatesCounter (s : Limiter) : LimiterOp → Prop
  | .move i => ∀ pc f, s.calls[i]? = some pc → pc.creates = some f →
      s.limiter.ip.counters f.ip = none
  | _ => True

structure Exact (a : IpAddr) (W : ℕ → Prop) (cfg : RateLimitConfig) (s : Limiter) : Prop where
  config : s.limiter.config.ip = some cfg
  tally : s.AllFine a W → Tally s.limiter a W s.countedCalls s.countedBytes

/-- Some call that was counted is missing from the counter. -/
structure Lossy (a : IpAddr) (W : ℕ → Prop) (cfg : RateLimitConfig) (s : Limiter) : Prop where
  config : s.limiter.config.ip = some cfg
  tally : s.AllFine a W → ∃ n b, Tally s.limiter a W n b ∧ n < s.countedCalls

theorem Tally.add (hW : ∀ x y, W x → W y → x - y < cfg.period) {rl rl' : RateLimiterState} {n b : ℕ}
    (h : Tally rl a W n b) {f : Frame} (hf : W f.now) {counter : WindowCounter}
    (hk : rl.ip.counters a = some counter)
    (hk' : rl'.ip.counters a = some ((counter.maybeReset f.now cfg.period).add f.frameLen)) :
    Tally rl' a W (n + 1) (b + f.frameLen.toNat) := by
  simp only [Tally, hk] at h
  obtain ⟨hstart, -, hcount, hbytes⟩ := h
  have hopen : counter.elapsed f.now cfg.period = false := by
    have := hW f.now counter.windowStart hf hstart
    simp only [WindowCounter.elapsed, decide_eq_false_iff_not]
    omega
  simp only [Tally, hk', WindowCounter.maybeReset, hopen, Bool.false_eq_true, if_false,
    WindowCounter.add, UInt64.toNat_add, hcount, hbytes]
  exact ⟨hstart, Nat.succ_pos n, Nat.mod_add_mod n (2 ^ 64) 1, Nat.mod_add_mod ..⟩

theorem tally_insert {rl' : RateLimiterState} {f : Frame} (hf : W f.now)
    (hk' : rl'.ip.counters a = some ⟨f.now, 1, f.frameLen⟩) : Tally rl' a W 1 f.frameLen.toNat := by
  simp only [Tally, hk']
  exact ⟨hf, Nat.one_pos, rfl, (Nat.mod_eq_of_lt f.frameLen.toNat_lt).symm⟩

/-- What a step does to the totals, if every call stays fine. -/
inductive Counts (a : IpAddr) (W : ℕ → Prop) (cfg : RateLimitConfig) (s s' : Limiter) (op : LimiterOp) :
    Prop where
  | none (creates : CreatesCounter s op)
      (counters : s'.limiter.ip.counters a = s.limiter.ip.counters a)
      (calls : s'.countedCalls = s.countedCalls) (bytes : s'.countedBytes = s.countedBytes)
  | added (creates : CreatesCounter s op) (f : Frame) (inW : W f.now) (counter : WindowCounter)
      (found : s.limiter.ip.counters a = some counter)
      (counters : s'.limiter.ip.counters a =
        some ((counter.maybeReset f.now cfg.period).add f.frameLen))
      (calls : s'.countedCalls = s.countedCalls + 1)
      (bytes : s'.countedBytes = s.countedBytes + f.frameLen.toNat)
  | inserted (f : Frame) (inW : W f.now)
      (creates : CreatesCounter s op ↔ s.limiter.ip.counters a = Option.none)
      (counters : s'.limiter.ip.counters a = some ⟨f.now, 1, f.frameLen⟩)
      (calls : s'.countedCalls = s.countedCalls + 1)
      (bytes : s'.countedBytes = s.countedBytes + f.frameLen.toNat)

theorem enter_totals (s : Limiter) {pc : Pc} (h : pc.counted = false) :
    (s.enter pc).countedCalls = s.countedCalls ∧ (s.enter pc).countedBytes = s.countedBytes := by
  simp [enter, countedCalls, countedBytes, Pc.weight, Pc.bytes, h]

theorem AllFine.of_enter {pc : Pc} (h : (s.enter pc).AllFine a W) : s.AllFine a W :=
  fun pc' hpc' => h pc' (List.mem_append_left _ hpc')

theorem counts_enter {op : LimiterOp} {pc : Pc} (hpc : pc.counted = false)
    (hop : CreatesCounter s op) : Counts a W cfg s (s.enter pc) op :=
  .none hop rfl (enter_totals s hpc).1 (enter_totals s hpc).2

theorem createsCounter_move {i : ℕ} {pc : Pc} (hpc : s.calls[i]? = some pc) :
    CreatesCounter s (.move i) ↔ ∀ f, pc.creates = some f → s.limiter.ip.counters f.ip = none := by
  constructor
  · intro h f hf
    exact h pc f hpc hf
  · intro h pc' f hpc' hf
    rw [hpc] at hpc'
    cases hpc'
    exact h f hf

theorem move_totals {i : ℕ} {pc pc' : Pc} {f : Frame} (hpc : s.calls[i]? = some pc)
    (hframe : pc'.frame = some f) (hbefore : pc.counted = false) (hafter : pc'.counted = true)
    (rl : RateLimiterState) :
    (Limiter.mk rl s.time (s.calls.set i pc')).countedCalls = s.countedCalls + 1 ∧
      (Limiter.mk rl s.time (s.calls.set i pc')).countedBytes = s.countedBytes + f.frameLen.toNat := by
  have hweight := sum_map_set Pc.weight hpc pc'
  have hbytes := sum_map_set Pc.bytes hpc pc'
  simp only [Pc.weight, Pc.bytes, hbefore, hafter, hframe, if_true, Bool.false_eq_true, if_false,
    Option.elim_some, Nat.add_zero] at hweight hbytes
  exact ⟨hweight, hbytes⟩

theorem counts_move {i : ℕ} {pc pc' : Pc} {rl : RateLimiterState}
    (hcfg : s.limiter.config.ip = some cfg) (hpc : s.calls[i]? = some pc)
    (hstep : stepCall clock s.time s.limiter pc = some (pc', rl)) (hfine : pc'.Fine a W) :
    Counts a W cfg s ⟨rl, s.time, s.calls.set i pc'⟩ (.move i) := by
  have hframe := (Pc.stepCall_frame hstep).1
  obtain ⟨f, hf, haddr, hin⟩ := hfine.1
  cases Pc.stepCall_counts hcfg hstep hfine with
  | none creates counters counted =>
    have hweight := sum_map_set Pc.weight hpc pc'
    have hbytes := sum_map_set Pc.bytes hpc pc'
    simp only [Pc.weight, Pc.bytes, counted, hframe] at hweight hbytes
    refine .none ?_ (by rw [counters]) (Nat.add_right_cancel hweight) (Nat.add_right_cancel hbytes)
    rw [createsCounter_move hpc, creates]
    exact fun f hf => by cases hf
  | added f' creates frame before after counter found counters =>
    rw [← hframe, hf] at frame
    cases frame
    subst haddr
    obtain ⟨hcalls, hbytes⟩ := move_totals hpc hf before after rl
    refine .added ?_ f hin counter found (by rw [counters, Function.update_self]) hcalls hbytes
    rw [createsCounter_move hpc, creates]
    exact fun f hf => by cases hf
  | inserted f' creates frame before after counters =>
    rw [← hframe, hf] at frame
    cases frame
    subst haddr
    obtain ⟨hcalls, hbytes⟩ := move_totals hpc hf before after rl
    refine .inserted f hin ?_ (by rw [counters, Function.update_self]) hcalls hbytes
    simp only [createsCounter_move hpc, creates, Option.some.injEq, forall_eq']

theorem step_counts {op : LimiterOp} (hcfg : s.limiter.config.ip = some cfg)
    (hs : step clock op s = some s') :
    s'.limiter.config.ip = some cfg ∧ (s'.AllFine a W → s.AllFine a W ∧ Counts a W cfg s s' op) := by
  cases op with
  | tick now =>
    simp only [step] at hs
    split at hs <;> cases hs
    exact ⟨hcfg, fun h => ⟨h, .none trivial rfl rfl rfl⟩⟩
  | checkAndRecord connectionId ip frameLen =>
    cases hs
    exact ⟨hcfg, fun h => ⟨h.of_enter, counts_enter rfl trivial⟩⟩
  | isIpBanned ip =>
    cases hs
    exact ⟨hcfg, fun h => ⟨h.of_enter, counts_enter rfl trivial⟩⟩
  | cleanup =>
    cases hs
    refine ⟨hcfg, fun h => ⟨h.of_enter, counts_enter ?_ trivial⟩⟩
    unfold enterCleanup
    split <;> rfl
  | move i =>
    obtain ⟨pc, pc', rl, hpc, hstep, rfl⟩ := move_eq_some hs
    refine ⟨(congrArg RateLimiter.ip (Pc.stepCall_frame hstep).2).trans hcfg, fun h => ?_⟩
    have hi : i < s.calls.length := (List.getElem?_eq_some_iff.mp hpc).1
    have hfine : pc'.Fine a W := h pc' (List.mem_set hi pc')
    refine ⟨fun pc₁ hpc₁ => ?_, counts_move hcfg hpc hstep hfine⟩
    by_cases hsame : pc₁ = pc
    · rw [hsame]
      exact hfine.of_step hstep
    · obtain ⟨j, hj⟩ := List.mem_iff_getElem?.mp hpc₁
      have hij : i ≠ j := by
        intro hij
        subst hij
        rw [hpc] at hj
        cases hj
        exact hsame rfl
      refine h pc₁ (List.mem_iff_getElem?.mpr ⟨j, ?_⟩)
      rw [List.getElem?_set_ne hij]
      exact hj

section Run

variable (hW : ∀ x y, W x → W y → x - y < cfg.period)

theorem Tally.congr {rl rl' : RateLimiterState} {n b : ℕ} (h : Tally rl a W n b)
    (hc : rl'.ip.counters a = rl.ip.counters a) : Tally rl' a W n b := by
  simpa only [Tally, hc] using h

theorem Tally.pos {rl : RateLimiterState} {n b : ℕ} (h : Tally rl a W n b)
    (hk : rl.ip.counters a ≠ none) : 0 < n := by
  cases hc : rl.ip.counters a with
  | none => exact absurd hc hk
  | some counter =>
    simp only [Tally, hc] at h
    exact h.2.1

include hW in
theorem Exact.good {op : LimiterOp} (h : Exact a W cfg s) (hs : step clock op s = some s')
    (hop : CreatesCounter s op) : Exact a W cfg s' := by
  obtain ⟨hcfg, hcounts⟩ := step_counts (a := a) (W := W) h.config hs
  refine ⟨hcfg, fun hfine => ?_⟩
  obtain ⟨hfine₀, hcounts⟩ := hcounts hfine
  have htally := h.tally hfine₀
  cases hcounts with
  | none creates counters calls bytes =>
    rw [calls, bytes]
    exact htally.congr counters
  | added creates f inW counter found counters calls bytes =>
    rw [calls, bytes]
    exact htally.add hW inW found counters
  | inserted f inW creates counters calls bytes =>
    have hzero : s.countedCalls = 0 ∧ s.countedBytes = 0 := by
      simpa only [Tally, creates.mp hop] using htally
    rw [calls, bytes, hzero.1, hzero.2, Nat.zero_add, Nat.zero_add]
    exact tally_insert inW counters

/-- An insertion over an existing counter forgets the calls it had counted. -/
theorem Exact.spoiled {op : LimiterOp} (h : Exact a W cfg s) (hs : step clock op s = some s')
    (hop : ¬ CreatesCounter s op) : Lossy a W cfg s' := by
  obtain ⟨hcfg, hcounts⟩ := step_counts (a := a) (W := W) h.config hs
  refine ⟨hcfg, fun hfine => ?_⟩
  obtain ⟨hfine₀, hcounts⟩ := hcounts hfine
  cases hcounts with
  | none creates => exact absurd creates hop
  | added creates => exact absurd creates hop
  | inserted f inW creates counters calls bytes =>
    have hpos := (h.tally hfine₀).pos (fun hnone => hop (creates.mpr hnone))
    exact ⟨1, f.frameLen.toNat, tally_insert inW counters, by omega⟩

include hW in
theorem Lossy.step {op : LimiterOp} (h : Lossy a W cfg s) (hs : Limiter.step clock op s = some s') :
    Lossy a W cfg s' := by
  obtain ⟨hcfg, hcounts⟩ := step_counts (a := a) (W := W) h.config hs
  refine ⟨hcfg, fun hfine => ?_⟩
  obtain ⟨hfine₀, hcounts⟩ := hcounts hfine
  obtain ⟨n, b, htally, hlt⟩ := h.tally hfine₀
  cases hcounts with
  | none creates counters calls bytes => exact ⟨n, b, htally.congr counters, by omega⟩
  | added creates f inW counter found counters calls bytes =>
    exact ⟨n + 1, b + f.frameLen.toNat, htally.add hW inW found counters, by omega⟩
  | inserted f inW creates counters calls bytes =>
    exact ⟨1, f.frameLen.toNat, tally_insert inW counters, by omega⟩

end Run

theorem init_exact {config : RateLimiter} (hcfg : config.ip = some cfg) :
    Exact a W cfg (init config) :=
  ⟨hcfg, fun _ => ⟨rfl, rfl⟩⟩

/-- All calls were `check_and_record` for `a`, and all have returned `Allowed`. -/
def AllAllowed (a : IpAddr) (s : Limiter) : Prop :=
  ∀ pc ∈ s.calls, ∃ f, pc = .returned f (some .allowed) ∧ f.ip = a

/-- All calls read the clock within one period. -/
def OneWindow (period : ℕ) (s : Limiter) : Prop :=
  ∀ f ∈ s.calls.filterMap Pc.frame, ∀ f' ∈ s.calls.filterMap Pc.frame, f.now - f'.now < period

/-- The counter of the address has every call and every byte. -/
def CountsAll (a : IpAddr) (s : Limiter) : Prop :=
  (s.limiter.ip.counters a).elim 0 (·.messageCount.toNat) = s.calls.length ∧
    s.limiter.ip.counted a = ((s.calls.filterMap Pc.frame).map (·.frameLen.toNat)).sum

theorem AllAllowed.totals (h : s.AllAllowed a) :
    s.countedCalls = s.calls.length ∧
      s.countedBytes = ((s.calls.filterMap Pc.frame).map (·.frameLen.toNat)).sum := by
  simp only [countedCalls, countedBytes]
  unfold AllAllowed at h
  generalize s.calls = calls at h
  induction calls with
  | nil => exact ⟨rfl, rfl⟩
  | cons pc calls ih =>
    obtain ⟨f, hpc, -⟩ := h pc (List.mem_cons_self ..)
    obtain ⟨hcalls, hbytes⟩ := ih fun pc' hpc' => h pc' (List.mem_cons_of_mem _ hpc')
    subst hpc
    simp only [List.map_cons, List.sum_cons, List.length_cons, hcalls, hbytes, Pc.weight, Pc.bytes,
      Pc.counted, Pc.frame, if_true, Option.elim_some, List.filterMap_cons]
    exact ⟨Nat.add_comm .., trivial⟩

theorem Tally.counts_iff {n b : ℕ} (h : Tally s.limiter a W n b) :
    ((s.limiter.ip.counters a).elim 0 (·.messageCount.toNat) = n ∧ s.limiter.ip.counted a = b) ↔
      n < 2 ^ 64 ∧ b < 2 ^ 64 := by
  simp only [Dimension.counted]
  cases hk : s.limiter.ip.counters a with
  | none =>
    simp only [Tally, hk] at h
    simp only [Option.elim_none, h.1, h.2]
    decide
  | some counter =>
    simp only [Tally, hk] at h
    have hlt := counter.messageCount.toNat_lt
    have hlt' := counter.byteCount.toNat_lt
    simp only [Option.elim_some]
    omega

theorem Tally.count_le {n b : ℕ} (h : Tally s.limiter a W n b) :
    (s.limiter.ip.counters a).elim 0 (·.messageCount.toNat) ≤ n := by
  cases hk : s.limiter.ip.counters a with
  | none => exact Nat.zero_le n
  | some counter =>
    simp only [Tally, hk] at h
    have := Nat.mod_le n (2 ^ 64)
    simp only [Option.elim_some]
    omega

/-- Once all concurrent calls have returned, the counter has them all exactly when neither
number overflows and every `ip_counters.insert` of the run created its counter. -/
theorem counts_all_iff (clock : Clock) {config : RateLimiter} {cfg : RateLimitConfig}
    (hcfg : config.ip = some cfg) {a : IpAddr} {ops : List LimiterOp} {s : Limiter}
    (hrun : Machine.run (step clock) ops (init config) = some s) (hall : s.AllAllowed a)
    (hwindow : s.OneWindow cfg.period) :
    s.CountsAll a ↔
      s.calls.length < 2 ^ 64 ∧
      ((s.calls.filterMap Pc.frame).map (·.frameLen.toNat)).sum < 2 ^ 64 ∧
      Machine.Along (step clock) CreatesCounter ops (init config) := by
  have hW : ∀ x y, (∃ f ∈ s.calls.filterMap Pc.frame, f.now = x) →
      (∃ f ∈ s.calls.filterMap Pc.frame, f.now = y) → x - y < cfg.period := by
    intro x y ⟨f, hf, hx⟩ ⟨f', hf', hy⟩
    exact hx ▸ hy ▸ hwindow f hf f' hf'
  have hfine : s.AllFine a fun x => ∃ f ∈ s.calls.filterMap Pc.frame, f.now = x := by
    intro pc hpc
    obtain ⟨f, rfl, hip⟩ := hall pc hpc
    refine ⟨⟨f, rfl, hip, f, List.mem_filterMap.mpr ⟨_, hpc, rfl⟩, rfl⟩, fun f' v hv => ?_⟩
    cases hv
    rfl
  obtain ⟨hcalls, hbytes⟩ := hall.totals
  rcases Machine.run_good_or_spoiled (fun _ _ _ h hs hop => h.good hW hs hop)
    (fun _ _ _ h hs hop => h.spoiled hs hop) (fun _ _ _ h hs => h.step hW hs) hrun
    (init_exact hcfg) with ⟨hgood, hexact⟩ | ⟨hbad, hlossy⟩
  · have htally := hexact.tally hfine
    rw [hcalls, hbytes] at htally
    simp only [CountsAll, hgood, and_true]
    exact htally.counts_iff
  · obtain ⟨n, b, htally, hlt⟩ := hlossy.tally hfine
    have hle := htally.count_le
    refine ⟨fun hcount => ?_, fun h => absurd h.2.2 hbad⟩
    have hcount := hcount.1
    omega

def hundredMessages : RateLimiter := ⟨none, some ⟨10, some 100, none⟩, none⟩

/-- Two frames of one address, one after the other. -/
def inTurn : List LimiterOp :=
  [.checkAndRecord "a" (.v4 1) 5, .move 0, .move 0, .move 0, .move 0,
    .checkAndRecord "b" (.v4 1) 7, .move 1, .move 1, .move 1]

/-- Both look the counter up before either has inserted it. -/
def bothInsert : List LimiterOp :=
  [.checkAndRecord "a" (.v4 1) 5, .checkAndRecord "b" (.v4 1) 7, .move 0, .move 0, .move 0,
    .move 1, .move 1, .move 1, .move 0, .move 1]

theorem counts_all_iff_inTurn : ∃ s, Machine.run (step none) inTurn (init hundredMessages) = some s ∧
    s.AllAllowed (.v4 1) ∧ s.OneWindow 10 ∧ s.CountsAll (.v4 1) := by
  obtain ⟨s, hs⟩ : ∃ s, Machine.run (step none) inTurn (init hundredMessages) = some s := ⟨_, rfl⟩
  have hcalls : s.calls = [.returned ⟨0, "a", .v4 1, 5⟩ (some .allowed),
      .returned ⟨0, "b", .v4 1, 7⟩ (some .allowed)] := by
    cases hs
    rfl
  have hall : s.AllAllowed (.v4 1) := by simp [AllAllowed, hcalls]
  have hwindow : s.OneWindow 10 := by simp [OneWindow, hcalls, Pc.frame]
  refine ⟨s, hs, hall, hwindow, (counts_all_iff none rfl hs hall hwindow).mpr ?_⟩
  refine ⟨by simp [hcalls], by simp [hcalls, Pc.frame], trivial, ?_⟩
  refine ⟨?_, ?_, ?_, ?_, trivial, ?_, ?_, ?_, trivial⟩ <;> exact fun pc f hpc hcr => by
    cases hpc
    cases hcr
    try rfl

theorem bothInsert_loses_count :
    ∃ s, Machine.run (step none) bothInsert (init hundredMessages) = some s ∧
      s.AllAllowed (.v4 1) ∧ s.OneWindow 10 ∧ s.calls.length = 2 ∧
      (s.limiter.ip.counters (.v4 1)).elim 0 (·.messageCount.toNat) = 1 ∧ ¬ s.CountsAll (.v4 1) := by
  obtain ⟨s, hs⟩ : ∃ s, Machine.run (step none) bothInsert (init hundredMessages) = some s := ⟨_, rfl⟩
  have hcalls : s.calls = [.returned ⟨0, "a", .v4 1, 5⟩ (some .allowed),
      .returned ⟨0, "b", .v4 1, 7⟩ (some .allowed)] := by
    cases hs
    rfl
  have hcount : (s.limiter.ip.counters (.v4 1)).elim 0 (·.messageCount.toNat) = 1 := by
    cases hs
    rfl
  refine ⟨s, hs, by simp [AllAllowed, hcalls], by simp [OneWindow, hcalls, Pc.frame],
    by simp [hcalls], hcount, fun h => ?_⟩
  rw [CountsAll, hcount, hcalls] at h
  exact absurd h.1 (by decide)

end Limiter

end Wscall.Server
