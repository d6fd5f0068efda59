import Wscall.Server.LimiterRun

/-!
# One address does not disturb another

Each call reads and writes the entries of one connection and one address, and `cleanup`
treats every entry by itself. What a connection sees is therefore decided by the entries
of its address and of the connections that use it.
-/

namespace Wscall.Server

namespace Dimension

variable {κ : Type} [DecidableEq κ] {d d' : Dimension κ} {key k : κ} {now : ℕ}

/-- Both tables have the same entry for the key. -/
def SameAt (key : κ) (d d' : Dimension κ) : Prop :=
  d.counters key = d'.counters key ∧ d.bans key = d'.bans key

theorem SameAt.checkBan (h : SameAt key d d') (now : ℕ) :
    (d.checkBan now key).1 = (d'.checkBan now key).1 ∧
      SameAt key (d.checkBan now key).2 (d'.checkBan now key).2 := by
  obtain ⟨hcounters, hbans⟩ := h
  cases hk : d'.bans key with
  | none =>
    rw [hk] at hbans
    simpa only [Dimension.checkBan, hk, hbans, true_and] using ⟨hcounters, hbans.trans hk.symm⟩
  | some expiry =>
    rw [hk] at hbans
    by_cases hlt : now < expiry
    · simpa only [Dimension.checkBan, hk, hbans, hlt, if_true, true_and] using
        ⟨hcounters, hbans.trans hk.symm⟩
    · simpa only [Dimension.checkBan, hk, hbans, hlt, if_false, true_and, SameAt,
        Function.update_self, and_true] using hcounters

theorem checkBan_other (hne : k ≠ key) (now : ℕ) : SameAt k (d.checkBan now key).2 d := by
  refine ⟨by rw [checkBan_counters], ?_⟩
  unfold checkBan
  split
  · split
    · rfl
    · exact Function.update_of_ne hne ..
  · rfl

omit [DecidableEq κ] in
theorem SameAt.exceedsIf (h : SameAt key d d') (config : Option RateLimitConfig) (now : ℕ)
    (frameLen : UInt64) :
    d.exceedsIf config now key frameLen = d'.exceedsIf config now key frameLen := by
  simp only [Dimension.exceedsIf, exceeds, nextCounter, h.1]

theorem banIf_other {bans : κ → Option ℕ} (hne : k ≠ key) (banDuration : Option ℕ) (now : ℕ)
    (exceeded : Bool) : banIf bans banDuration now key exceeded k = bans k := by
  unfold banIf
  split
  · exact Function.update_of_ne hne ..
  · rfl

theorem banIf_self {bans bans' : κ → Option ℕ} (h : bans key = bans' key) (banDuration : Option ℕ)
    (now : ℕ) (exceeded : Bool) :
    banIf bans banDuration now key exceeded key = banIf bans' banDuration now key exceeded key := by
  unfold banIf
  split
  · simp only [Function.update_self]
  · exact h

theorem SameAt.recordIf (h : SameAt key d d') (config : Option RateLimitConfig)
    (banDuration : Option ℕ) (now : ℕ) (frameLen : UInt64) :
    SameAt key (d.recordIf none config banDuration now key frameLen).2
      (d'.recordIf none config banDuration now key frameLen).2 := by
  refine ⟨?_, ?_⟩
  · cases config with
    | none => exact h.1
    | some config =>
      simp only [Dimension.recordIf, record_unbounded, Function.update_self, nextCounter, h.1]
  · rw [recordIf_bans, recordIf_bans, h.exceedsIf]
    exact banIf_self h.2 ..

theorem recordIf_other (hne : k ≠ key) (config : Option RateLimitConfig) (banDuration : Option ℕ)
    (now : ℕ) (frameLen : UInt64) :
    SameAt k (d.recordIf none config banDuration now key frameLen).2 d := by
  refine ⟨?_, ?_⟩
  · cases config with
    | none => rfl
    | some config => simp only [recordIf, record_unbounded, Function.update_of_ne hne]
  · rw [recordIf_bans]
    exact banIf_other hne ..

omit [DecidableEq κ] in
theorem SameAt.cleanup (h : SameAt key d d') (now staleThreshold : ℕ) :
    SameAt key (d.cleanup now staleThreshold) (d'.cleanup now staleThreshold) := by
  simp only [SameAt, Dimension.cleanup, h.1, h.2, and_self]

omit [DecidableEq κ] in
theorem SameAt.trans {d'' : Dimension κ} (h : SameAt key d d') (h' : SameAt key d' d'') :
    SameAt key d d'' :=
  ⟨h.1.trans h'.1, h.2.trans h'.2⟩

end Dimension

open Dimension

/-- The calls that may matter to connection `c` with address `a`. -/
def LimiterCall.concerns (c : String) (a : IpAddr) : LimiterCall → Bool
  | .checkAndRecord f => f.connectionId = c || f.ip = a
  | .isIpBanned _ ip => ip = a
  | .cleanup _ => true

/-- The calls whose answers connection `c` and address `a` see. -/
def LimiterCall.observed (c : String) (a : IpAddr) : LimiterCall → Bool
  | .checkAndRecord f => f.connectionId = c
  | .isIpBanned _ ip => ip = a
  | .cleanup _ => false

/-- Each connection is used with one address. -/
def LimiterCall.Addressed (addr : String → IpAddr) : LimiterCall → Prop
  | .checkAndRecord f => f.ip = addr f.connectionId
  | _ => True

namespace RateLimiterState

variable {addr : String → IpAddr} {a : IpAddr} {rl rl' : RateLimiterState}

/-- The limiters agree on the address `a` and on every connection that uses it. -/
structure SameFor (addr : String → IpAddr) (a : IpAddr) (rl rl' : RateLimiterState) : Prop where
  config : rl.config = rl'.config
  conn : ∀ c, addr c = a → SameAt c rl.conn rl'.conn
  ip : SameAt a rl.ip rl'.ip

/-- One dimension of a frame that concerns `a`: its own key is treated alike, others stay. -/
theorem sameAt_of_frame {κ : Type} [DecidableEq κ] {d d' : Dimension κ} {key k : κ}
    (h : SameAt k d d') (hkey : SameAt key d d') (config : Option RateLimitConfig)
    (banDuration : Option ℕ) (now : ℕ) (frameLen : UInt64) :
    SameAt k ((d.checkBan now key).2.recordIf none config banDuration now key frameLen).2
      ((d'.checkBan now key).2.recordIf none config banDuration now key frameLen).2 := by
  by_cases hk : k = key
  · subst hk
    exact (hkey.checkBan now).2.recordIf ..
  · have hl := (recordIf_other (d := (d.checkBan now key).2) hk config banDuration now frameLen).trans
      (checkBan_other hk now)
    have hr := (recordIf_other (d := (d'.checkBan now key).2) hk config banDuration now frameLen).trans
      (checkBan_other hk now)
    exact (hl.trans h).trans ⟨hr.1.symm, hr.2.symm⟩

theorem sameAt_of_checkBan {κ : Type} [DecidableEq κ] {d d' : Dimension κ} {key k : κ}
    (h : SameAt k d d') (hkey : SameAt key d d') (now : ℕ) :
    SameAt k (d.checkBan now key).2 (d'.checkBan now key).2 := by
  by_cases hk : k = key
  · subst hk
    exact (hkey.checkBan now).2
  · have hr := checkBan_other (d := d') hk now
    exact ((checkBan_other hk now).trans h).trans ⟨hr.1.symm, hr.2.symm⟩

theorem SameFor.frame (h : SameFor addr a rl rl') {f : Frame} (hconn : addr f.connectionId = a)
    (hip : f.ip = a) :
    (rl.perform (.checkAndRecord f)).1 = (rl'.perform (.checkAndRecord f)).1 ∧
      SameFor addr a (rl.perform (.checkAndRecord f)).2 (rl'.perform (.checkAndRecord f)).2 := by
  subst hip
  have hc := h.conn f.connectionId hconn
  have hcounts : rl.counts f = rl'.counts f := by
    simp only [counts, checkBans_eq, (hc.checkBan f.now).1, (h.ip.checkBan f.now).1]
  cases hf : rl'.counts f with
  | false =>
    rw [perform_banned hf, perform_banned (hcounts.trans hf)]
    simp only [checkBans_eq, true_and]
    refine ⟨h.config, fun c hcon => sameAt_of_checkBan (h.conn c hcon) hc _, ?_⟩
    rw [(hc.checkBan f.now).1]
    split
    · exact h.ip
    · exact (h.ip.checkBan f.now).2
  | true =>
    have hf' := hcounts.trans hf
    rw [perform_counted hf, perform_counted hf']
    refine ⟨?_, h.config, fun c hcon => ?_, ?_⟩
    · simp only [connExceeded, ipExceeded, hf, hf', h.config, hc.exceedsIf, h.ip.exceedsIf]
    · rw [h.config]
      exact sameAt_of_frame (h.conn c hcon) hc ..
    · rw [h.config]
      exact sameAt_of_frame h.ip h.ip ..

theorem SameFor.perform (h : SameFor addr a rl rl') {c : String} (hc : addr c = a)
    {call : LimiterCall} (hcall : call.Addressed addr) (hk : call.concerns c a = true) :
    (rl.perform call).1 = (rl'.perform call).1 ∧
      SameFor addr a (rl.perform call).2 (rl'.perform call).2 := by
  cases call with
  | checkAndRecord f =>
    have haddr : f.ip = addr f.connectionId := hcall
    simp only [LimiterCall.concerns, Bool.or_eq_true, decide_eq_true_eq] at hk
    have hip : f.ip = a := by
      rcases hk with hk | hk
      · rw [haddr, hk, hc]
      · exact hk
    exact h.frame (haddr ▸ hip) hip
  | isIpBanned now ip =>
    simp only [LimiterCall.concerns, decide_eq_true_eq] at hk
    subst hk
    have hban := h.ip.checkBan now
    simp only [RateLimiterState.perform, performOn, isIpBanned, hban.1, true_and]
    exact ⟨h.config, h.conn, hban.2⟩
  | cleanup now =>
    have hperiod : rl.maxPeriod = rl'.maxPeriod := by simp only [maxPeriod, h.config]
    simp only [RateLimiterState.perform, performOn, RateLimiterState.cleanup, hperiod, true_and]
    split
    · exact ⟨h.config, fun c hcon => (h.conn c hcon).cleanup .., h.ip.cleanup ..⟩
    · exact h

theorem SameFor.skip (h : SameFor addr a rl rl') {c : String} {call : LimiterCall}
    (hcall : call.Addressed addr) (hk : call.concerns c a = false) :
    SameFor addr a (rl.perform call).2 rl' := by
  cases call with
  | checkAndRecord f =>
    have haddr : f.ip = addr f.connectionId := hcall
    simp only [LimiterCall.concerns, Bool.or_eq_false_iff, decide_eq_false_iff_not] at hk
    have hother : ∀ k, addr k = a → k ≠ f.connectionId := by
      intro k hka hkf
      exact hk.2 (by rw [haddr, ← hkf, hka])
    have hip : a ≠ f.ip := fun he => hk.2 he.symm
    cases hf : rl.counts f with
    | false =>
      rw [perform_banned hf]
      simp only [checkBans_eq]
      refine ⟨h.config, fun k hka => (checkBan_other (hother k hka) _).trans (h.conn k hka), ?_⟩
      dsimp only
      split
      · exact h.ip
      · exact (checkBan_other hip _).trans h.ip
    | true =>
      rw [perform_counted hf]
      exact ⟨h.config,
        fun k hka => ((recordIf_other (hother k hka) ..).trans (checkBan_other (hother k hka) _)).trans
          (h.conn k hka),
        ((recordIf_other hip ..).trans (checkBan_other hip _)).trans h.ip⟩
  | isIpBanned now ip =>
    simp only [LimiterCall.concerns, decide_eq_false_iff_not] at hk
    exact ⟨h.config, h.conn, (checkBan_other (fun he => hk he.symm) _).trans h.ip⟩
  | cleanup now => cases hk

/-- Deleting the frames of other addresses and the questions about them from a run changes
no verdict for the connection and no answer about its address. -/
theorem isolated (config : RateLimiter) {addr : String → IpAddr} {c : String} {a : IpAddr}
    (hc : addr c = a) {calls : List LimiterCall} (hcalls : ∀ call ∈ calls, call.Addressed addr) :
    (Machine.answers (fun call rl => rl.perform call) calls config.build).filter
        (fun p => p.1.observed c a) =
      (Machine.answers (fun call rl => rl.perform call) (calls.filter (·.concerns c a))
        config.build).filter (fun p => p.1.observed c a) := by
  refine Machine.answers_purge (R := SameFor addr a) (P := LimiterCall.Addressed addr) ?_ ?_ ?_
    hcalls ⟨rfl, fun _ _ => ⟨rfl, rfl⟩, rfl, rfl⟩
  · intro call hs
    cases call with
    | checkAndRecord f =>
      simp only [LimiterCall.observed, decide_eq_true_eq] at hs
      simp [LimiterCall.concerns, hs]
    | isIpBanned now ip => exact hs
    | cleanup now => cases hs
  · intro call rl rl' hcall hk h
    exact h.perform hc hcall hk
  · intro call rl rl' hcall hk h
    exact h.skip hcall hk

/-- The connection `c` has its own address, all others share one. -/
def ownAddress (c : String) : IpAddr := if c = "c" then .v4 1 else .v4 2

def twoAddresses : List LimiterCall :=
  [.checkAndRecord ⟨0, "c", .v4 1, 5⟩, .checkAndRecord ⟨1, "d", .v4 2, 5⟩, .cleanup 2,
    .isIpBanned 3 (.v4 2), .isIpBanned 3 (.v4 1)]

theorem isolated_twoAddresses :
    (∀ call ∈ twoAddresses, call.Addressed ownAddress) ∧
    (Machine.answers (fun call rl => rl.perform call) twoAddresses Ledger.tenBytes.build).filter
        (fun p => p.1.observed "c" (.v4 1)) =
      (Machine.answers (fun call rl => rl.perform call) (twoAddresses.filter (·.concerns "c" (.v4 1)))
        Ledger.tenBytes.build).filter (fun p => p.1.observed "c" (.v4 1)) := by
  have hcalls : ∀ call ∈ twoAddresses, call.Addressed ownAddress := by
    simp [twoAddresses, ownAddress, LimiterCall.Addressed]
  exact ⟨hcalls, isolated Ledger.tenBytes (c := "c") rfl hcalls⟩

end RateLimiterState

end Wscall.Server
