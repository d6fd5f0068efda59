import Wscall.Server.LimiterSteps

/-!
# Live bans under concurrency

A call looks a ban up, drops the guard, and then removes whatever is there. It does no
harm as long as it removes the ban that it tested.
-/

namespace Wscall.Server

namespace Pc

/-- The ban that a call is about to remove, as it tested it. -/
def tested : Pc → Option (IpAddr × ℕ)
  | .ipBansRemove f tested => some (f.ip, tested)
  | .askRemove ip tested => some (ip, tested)
  | _ => none

/-- What the call has read of the clock is past, and so is a ban it found to be over. -/
def Timely (time : ℕ) : Pc → Prop
  | .connBansGet f | .connBansRemove f | .ipBansGet f | .connCountersGetMut f
  | .connCountersInsert f | .connBansInsert f _ | .ipCountersGetMut f _ | .ipCountersInsert f _
  | .ipBansInsert f _ => f.now ≤ time
  | .ipBansRemove f tested => f.now ≤ time ∧ tested ≤ time
  | .askRemove _ tested => tested ≤ time
  | .retainConnCounters now _ | .retainIpCounters now _ | .retainConnBans now | .retainIpBans now =>
    now ≤ time
  | .returned .. | .askGet _ | .answered _ | .cleaned => True

theorem Timely.mono {time time' : ℕ} {pc : Pc} (h : pc.Timely time) (hle : time ≤ time') :
    pc.Timely time' := by
  cases pc <;> simp only [Timely] at h ⊢ <;> omega

theorem enterIp_timely (config : RateLimiter) {f : Frame} {time : ℕ} (h : f.now ≤ time)
    (limited : Bool) : (enterIp config f limited).Timely time :=
  enterIp_rule (P := Timely time) h fun _ => trivial

theorem enterConn_timely (config : RateLimiter) {f : Frame} {time : ℕ} (h : f.now ≤ time) :
    (enterConn config f).Timely time :=
  enterConn_rule (P := Timely time) h (enterIp_timely config h false)

theorem afterConnTest_timely (clock : Clock) (config : RateLimiter) {f : Frame} {time : ℕ}
    (h : f.now ≤ time) (exceeded : Bool) : (afterConnTest clock config f exceeded).Timely time :=
  afterTest_rule (P := Timely time) (fun _ => h) trivial (enterIp_timely config h)

theorem afterIpTest_timely (clock : Clock) (config : RateLimiter) {f : Frame} {time : ℕ}
    (h : f.now ≤ time) (limited exceeded : Bool) :
    (afterIpTest clock config f limited exceeded).Timely time :=
  afterTest_rule (P := Timely time) (fun _ => h) trivial fun _ => trivial

theorem stepCall_timely {clock : Clock} {time : ℕ} {rl rl' : RateLimiterState} {pc pc' : Pc}
    (ht : pc.Timely time) (h : stepCall clock time rl pc = some (pc', rl')) : pc'.Timely time := by
  cases callStep_of_stepCall h with
  | ipExpired hle =>
    simp only [Timely] at ht ⊢
    omega
  | ipFree => exact enterConn_timely _ ht
  | ipRemove => exact enterConn_timely _ ht.1
  | connAdd | connInsert => exact afterConnTest_timely clock _ ht _
  | connBan => exact enterIp_timely _ ht true
  | ipAdd | ipInsert => exact afterIpTest_timely clock _ ht _ _
  | askExpired hle => exact hle
  | connBanned | ipBanned | ipBan | askFound | askRemove | retainIpBans => trivial
  | _ => exact ht

/-- A step takes an entry out of `ip_bans` by a removal or by the cleanup, nothing else does. -/
theorem stepCall_ipBans {clock : Clock} {time : ℕ} {rl rl' : RateLimiterState} {pc pc' : Pc}
    (h : stepCall clock time rl pc = some (pc', rl')) {ip : IpAddr} {expiry : ℕ}
    (hban : rl.ip.bans ip = some expiry) (hgone : rl'.ip.bans ip = none) :
    (∃ tested, pc.tested = some (ip, tested)) ∨ ∃ now, pc = .retainIpBans now ∧ expiry ≤ now := by
  have hsame : rl'.ip.bans ≠ rl.ip.bans := by
    intro he
    rw [he, hban] at hgone
    cases hgone
  have hremove : ∀ key, rl'.ip.bans = (rl.ip.removeBan key).bans → ip = key := by
    intro key he
    by_contra hne
    simp [he, Dimension.removeBan, Function.update_of_ne hne, hban] at hgone
  cases callStep_of_stepCall h with
  | ipRemove => exact .inl ⟨_, by rw [hremove _ rfl]; rfl⟩
  | askRemove => exact .inl ⟨_, by rw [hremove _ rfl]; rfl⟩
  | @ipBan f e =>
    by_cases hk : ip = f.ip
    · simp [Dimension.insertBan, hk] at hgone
    · simp [Dimension.insertBan, hk, hban] at hgone
  | @retainIpBans now =>
    refine .inr ⟨now, rfl, ?_⟩
    by_contra hlt
    simp [Dimension.retainBans, hban, Option.filter, Nat.not_le.mp hlt] at hgone
  | _ => exact absurd rfl hsame

end Pc

namespace Limiter

/-- An `ip_bans.remove` meets the ban that its call tested, or none. -/
def RemovesTested (s : Limiter) : LimiterOp → Prop
  | .move i => ∀ pc ip tested, s.calls[i]? = some pc → pc.tested = some (ip, tested) →
      s.limiter.ip.bans ip = none ∨ s.limiter.ip.bans ip = some tested
  | _ => True

/-- No entry of `ip_bans` that is still running is taken out. -/
def KeepsLiveBans (clock : Clock) (s : Limiter) (op : LimiterOp) : Prop :=
  ∀ s', step clock op s = some s' →
    ∀ ip expiry, s.limiter.ip.bans ip = some expiry → s.time < expiry → s'.limiter.ip.bans ip ≠ none

def Timely (s : Limiter) : Prop := ∀ pc ∈ s.calls, pc.Timely s.time

theorem Timely.enter {s : Limiter} (h : s.Timely) {pc : Pc} (hpc : pc.Timely s.time) :
    (s.enter pc).Timely := by
  intro pc' hmem
  rcases List.mem_append.mp hmem with hmem | hmem
  · exact h pc' hmem
  · rw [List.mem_singleton.mp hmem]
    exact hpc

theorem Timely.step {clock : Clock} {op : LimiterOp} {s s' : Limiter} (h : s.Timely)
    (hs : Limiter.step clock op s = some s') : s'.Timely := by
  cases op with
  | tick now =>
    simp only [Limiter.step] at hs
    split at hs <;> cases hs
    exact fun pc hpc => (h pc hpc).mono ‹_›
  | checkAndRecord connectionId ip frameLen =>
    cases hs
    exact h.enter (Nat.le_refl s.time)
  | isIpBanned ip =>
    cases hs
    exact h.enter trivial
  | cleanup =>
    cases hs
    refine h.enter ?_
    unfold enterCleanup
    split
    · exact Nat.le_refl s.time
    · trivial
  | move i =>
    obtain ⟨pc, pc', rl, hpc, hstep, rfl⟩ := move_eq_some hs
    intro pc'' hmem
    rcases List.mem_or_eq_of_mem_set hmem with hmem | rfl
    · exact h pc'' hmem
    · exact Pc.stepCall_timely (h pc (List.mem_of_getElem? hpc)) hstep

/-- A removal that meets the ban its call tested takes out one that is over. -/
theorem Timely.keepsLiveBans {clock : Clock} {op : LimiterOp} {s : Limiter} (h : s.Timely)
    (hop : RemovesTested s op) : KeepsLiveBans clock s op := by
  intro s' hs ip expiry hban hlive hgone
  cases op with
  | tick now =>
    simp only [Limiter.step] at hs
    split at hs <;> cases hs
    rw [hban] at hgone
    cases hgone
  | checkAndRecord | isIpBanned | cleanup =>
    cases hs
    rw [show s.limiter.ip.bans ip = none from hgone] at hban
    cases hban
  | move i =>
    obtain ⟨pc, pc', rl, hpc, hstep, rfl⟩ := move_eq_some hs
    have htimely := h pc (List.mem_of_getElem? hpc)
    rcases Pc.stepCall_ipBans hstep hban hgone with ⟨tested, ht⟩ | ⟨now, rfl, hle⟩
    · have hpast : tested ≤ s.time := by
        cases pc <;> simp only [Pc.tested, reduceCtorEq, Option.some.injEq, Prod.mk.injEq] at ht
        · exact ht.2 ▸ htimely.2
        · exact ht.2 ▸ htimely
      rcases hop pc ip tested hpc ht with hnone | hsome
      · rw [hban] at hnone
        cases hnone
      · rw [hban] at hsome
        cases hsome
        omega
    · have hnow : now ≤ s.time := htimely
      omega

/-- In every run in which each `ip_bans.remove` meets the ban its call tested, no live ban is
taken out of the table. -/
theorem live_bans_kept (clock : Clock) (config : RateLimiter) {ops : List LimiterOp}
    (h : Machine.Along (step clock) RemovesTested ops (init config)) :
    Machine.Along (step clock) (KeepsLiveBans clock) ops (init config) :=
  h.imp (I := Timely) (fun _ _ _ hop ht hs => ⟨ht.keepsLiveBans hop, ht.step hs⟩)
    (fun pc hpc => by cases hpc)

/-- No message is allowed to an address, and a frame bans it for ten instants. -/
def banTen : RateLimiter := ⟨none, some ⟨5, some 0, none⟩, some 10⟩

/-- A first frame is banned until 10. -/
def firstBan : List LimiterOp :=
  [.checkAndRecord "a" (.v4 1) 5, .move 0, .move 0, .move 0, .move 0, .move 0]

/-- At 10 `is_ip_banned` finds the ban over; before it removes it, another frame has been
limited and has banned the address again. -/
def staleRemoval : List LimiterOp :=
  firstBan ++ [.tick 10, .isIpBanned (.v4 1), .move 1,
    .checkAndRecord "b" (.v4 1) 5, .move 2, .move 2, .move 2, .move 2, .move 2]

theorem live_bans_kept_firstBan :
    (Machine.run (step none) firstBan (init banTen)).any
      (fun s => s.limiter.ip.bans (.v4 1) = some 10) ∧
    Machine.Along (step none) (KeepsLiveBans none) firstBan (init banTen) := by
  refine ⟨by decide +kernel, live_bans_kept none banTen ?_⟩
  refine ⟨trivial, ?_⟩
  refine ⟨?_, ?_, ?_, ?_, ?_, trivial⟩ <;> exact fun pc ip tested hpc ht => by
    cases hpc
    cases ht

/-- The ban until 20 is in force at 10, and the removal takes it out. -/
theorem staleRemoval_erases_live_ban :
    ∃ s s', Machine.run (step none) staleRemoval (init banTen) = some s ∧
      step none (.move 1) s = some s' ∧ s.time = 10 ∧ s.limiter.ip.bans (.v4 1) = some 20 ∧
      s'.limiter.ip.bans (.v4 1) = none ∧ ¬ KeepsLiveBans none s (.move 1) := by
  refine ⟨_, _, rfl, rfl, rfl, rfl, rfl, ?_⟩
  intro h
  exact h _ rfl (.v4 1) 20 rfl (by decide) rfl

end Limiter

end Wscall.Server
