import Wscall.Client.Correlation

/-!
# Every waiter gets its own answer, once

A sender is in one place: in a table, in the hands of one thread, used, or dropped. Ids
are given out once, so a table never holds two waiters under one id, and what a waiter
receives was said about its id after the id existed.
-/

namespace Wscall.Client
open Protocol

/-- `r` is what a packet said that carries the id of `c` and arrived after the id was
allocated. -/
def Answered (log : List Event) (c : CallId) (r : Outcome) : Prop :=
  ∃ id body, Says body c.kind id r ∧ [Event.allocated c id, Event.received body].Sublist log

def allocations (k : Kind) (log : List Event) : ℕ :=
  log.countP fun
    | .allocated c _ => c.kind = k
    | _ => false

structure Ids (s : State) : Prop where
  next : ∀ k, s.next k = UInt64.ofNat (allocations k s.log)
  owned : ∀ c id, (s.calls c).id? = some id → .allocated c id ∈ s.log
  fresh : ∀ c id, s.calls c = .idle ∨ s.calls c = .checked → .allocated c id ∉ s.log
  bound : ∀ c id, .allocated c id ∈ s.log → id ≠ 0 ∧ id.toNat ≤ allocations c.kind s.log
  unique : ∀ c c' id, .allocated c id ∈ s.log → .allocated c' id ∈ s.log → c.kind = c'.kind →
    c = c'

structure Senders (s : State) : Prop where
  pending_entered : ∀ k id c, s.pending k id = some c → c.kind = k ∧ (s.calls c).entered = some id
  pending_empty : ∀ k id c, s.pending k id = some c → s.cells c = .empty
  pending_held : ∀ k id c t, s.pending k id = some c → (s.threads t).held ≠ some c
  held_empty : ∀ t c, (s.threads t).held = some c → s.cells c = .empty
  held_late : ∀ t c, (s.threads t).held = some c → ¬ (s.calls c).Early
  held_once : ∀ t t' c, (s.threads t).held = some c → (s.threads t').held = some c → t = t'
  early_empty : ∀ c, (s.calls c).Early → s.cells c = .empty
  empty_unresolved : ∀ c r, s.cells c = .empty → .resolved c r ∉ s.log

section Moves

variable {s : State} {c : CallId} {t : ℕ}

theorem Pc.not_early_of_entered {pc : Pc} {id : UInt64} (h : pc.entered = some id) : ¬ pc.Early := by
  cases pc <;> simp_all [Pc.entered, Pc.Early]

theorem Senders.record (hs : Senders s) {e : Event} (he : ∀ c r, e ≠ .resolved c r) :
    Senders (s.record e) := by
  refine ⟨hs.1, hs.2, hs.3, hs.4, hs.5, hs.6, hs.7, fun c r hc hmem => ?_⟩
  rcases List.mem_append.mp hmem with hmem | hmem
  · exact hs.empty_unresolved c r hc hmem
  · exact he c r (List.mem_singleton.mp hmem).symm

theorem Senders.setCall (hs : Senders s) {pc : Pc}
    (hent : pc.entered = (s.calls c).entered ∨ ∀ k id, s.pending k id ≠ some c)
    (hearly : pc.Early → (s.calls c).Early) : Senders (s.setCall c pc) := by
  refine ⟨fun k id d hd => ?_, hs.2, hs.3, hs.4, fun u d hd => ?_, hs.6, fun d hd => ?_, hs.8⟩
  all_goals
    by_cases hdc : d = c
    · subst hdc
      simp only [State.setCall, Function.update_self] at *
      grind [hs.pending_entered, hs.held_late, hs.early_empty]
    · simp only [State.setCall, Function.update_of_ne hdc] at *
      grind [hs.pending_entered, hs.held_late, hs.early_empty]

theorem Senders.setThread (hs : Senders s) {th : Thread} (hth : th.held = none) :
    Senders (s.setThread t th) := by
  have hheld : ∀ u d, ((s.setThread t th).threads u).held = some d → (s.threads u).held = some d := by
    intro u d hd
    by_cases hu : u = t
    · subst hu
      simp [State.setThread, hth] at hd
    · simpa [State.setThread, Function.update_of_ne hu] using hd
  exact ⟨hs.1, hs.2, fun k id d u hd hu => hs.3 k id d u hd (hheld u d hu),
    fun u d hu => hs.4 u d (hheld u d hu), fun u d hu => hs.5 u d (hheld u d hu),
    fun u v d hu hv => hs.6 u v d (hheld u d hu) (hheld v d hv), hs.7, hs.8⟩

theorem pending_of_removed {k k' : Kind} {id id' : UInt64} {d : CallId}
    (h : (s.setPending k id none).pending k' id' = some d) :
    s.pending k' id' = some d ∧ ¬ (k' = k ∧ id' = id) := by
  rw [pending_setPending] at h
  split at h
  · cases h
  · exact ⟨h, ‹_›⟩

theorem Senders.pending_unique (hs : Senders s) {k k' : Kind} {id id' : UInt64} {d : CallId}
    (h : s.pending k id = some d) (h' : s.pending k' id' = some d) : k' = k ∧ id' = id := by
  obtain ⟨hk, hid⟩ := hs.pending_entered k id d h
  obtain ⟨hk', hid'⟩ := hs.pending_entered k' id' d h'
  exact ⟨hk'.symm.trans hk, Option.some.inj (hid'.symm.trans hid)⟩

theorem Senders.take (hs : Senders s) {k : Kind} {id : UInt64} {th : Thread}
    (h : s.pending k id = some c) (hth : th.held = some c) :
    Senders ((s.setPending k id none).setThread t th) := by
  have hheld : ∀ u d, (Function.update s.threads t th u).held = some d →
      (u = t ∧ d = c) ∨ (u ≠ t ∧ (s.threads u).held = some d) := by
    intro u d hd
    by_cases hu : u = t
    · subst hu
      rw [Function.update_self, hth] at hd
      exact .inl ⟨rfl, (Option.some.inj hd).symm⟩
    · rw [Function.update_of_ne hu] at hd
      exact .inr ⟨hu, hd⟩
  refine ⟨fun k' id' d hd => ?_, fun k' id' d hd => ?_, fun k' id' d u hd hu => ?_,
    fun u d hu => ?_, fun u d hu => ?_, fun u v d hu hv => ?_, hs.7, hs.8⟩
  · exact hs.pending_entered k' id' d (pending_of_removed hd).1
  · exact hs.pending_empty k' id' d (pending_of_removed hd).1
  · obtain ⟨hp, hne⟩ := pending_of_removed hd
    rcases hheld u d hu with ⟨-, rfl⟩ | ⟨-, hu⟩
    · exact hne (hs.pending_unique h hp)
    · exact hs.pending_held k' id' d u hp hu
  · rcases hheld u d hu with ⟨-, rfl⟩ | ⟨-, hu⟩
    · exact hs.pending_empty k id d h
    · exact hs.held_empty u d hu
  · rcases hheld u d hu with ⟨-, rfl⟩ | ⟨-, hu⟩
    · exact Pc.not_early_of_entered (hs.pending_entered k id d h).2
    · exact hs.held_late u d hu
  · rcases hheld u d hu with ⟨rfl, rfl⟩ | ⟨-, hu'⟩
    · rcases hheld v d hv with ⟨rfl, -⟩ | ⟨-, hv'⟩
      · rfl
      · exact absurd hv' (hs.pending_held k id d v h)
    · rcases hheld v d hv with ⟨-, rfl⟩ | ⟨-, hv'⟩
      · exact absurd hu' (hs.pending_held k id d u h)
      · exact hs.held_once u v d hu' hv'

theorem Senders.removePending (hs : Senders s) (k : Kind) (id : UInt64) :
    Senders ((s.dropSender (s.pending k id)).setPending k id none) := by
  cases hp : s.pending k id with
  | none =>
    refine ⟨fun k' id' d hd => ?_, fun k' id' d hd => ?_, fun k' id' d u hd => ?_, hs.4, hs.5,
      hs.6, hs.7, hs.8⟩
    · exact hs.pending_entered k' id' d (pending_of_removed hd).1
    · exact hs.pending_empty k' id' d (pending_of_removed hd).1
    · exact hs.pending_held k' id' d u (pending_of_removed hd).1
  | some c =>
    have hcell : ∀ d, d ≠ c → ((s.dropSender (some c)).setPending k id none).cells d = s.cells d :=
      fun d hd => Function.update_of_ne hd ..
    have hlate := Pc.not_early_of_entered (hs.pending_entered k id c hp).2
    refine ⟨fun k' id' d hd => ?_, fun k' id' d hd => ?_, fun k' id' d u hd => ?_,
      fun u d hu => ?_, hs.5, hs.6, fun d hd => ?_, fun d r hd => ?_⟩
    · exact hs.pending_entered k' id' d (pending_of_removed hd).1
    · obtain ⟨hpd, hne⟩ := pending_of_removed hd
      rw [hcell d (by rintro rfl; exact hne (hs.pending_unique hp hpd))]
      exact hs.pending_empty k' id' d hpd
    · exact hs.pending_held k' id' d u (pending_of_removed hd).1
    · rw [hcell d (by rintro rfl; exact hs.pending_held k id d u hp hu)]
      exact hs.held_empty u d hu
    · rw [hcell d (by rintro rfl; exact hlate hd)]
      exact hs.early_empty d hd
    · by_cases hdc : d = c
      · subst hdc
        simp [State.dropSender, State.setCell, State.setPending] at hd
      · rw [hcell d hdc] at hd
        exact hs.empty_unresolved d r hd

theorem Senders.resolve (hs : Senders s) {r : Outcome} {th : Thread}
    (hheld : (s.threads t).held = some c) (hth : th.held = none) :
    Senders ((s.resolve c r).setThread t th) := by
  have hother : ∀ u d, (Function.update s.threads t th u).held = some d →
      (s.threads u).held = some d ∧ d ≠ c := by
    intro u d hd
    by_cases hu : u = t
    · subst hu
      rw [Function.update_self, hth] at hd
      cases hd
    · rw [Function.update_of_ne hu] at hd
      exact ⟨hd, by rintro rfl; exact hu (hs.held_once u t d hd hheld)⟩
  have hcell : ∀ d, d ≠ c → ((s.resolve c r).setThread t th).cells d = s.cells d :=
    fun d hd => Function.update_of_ne hd ..
  refine ⟨hs.1, fun k id d hd => ?_, fun k id d u hd hu => ?_, fun u d hu => ?_,
    fun u d hu => ?_, fun u v d hu hv => ?_, fun d hd => ?_, fun d r' hd hmem => ?_⟩
  · rw [hcell d (by rintro rfl; exact hs.pending_held k id d t hd hheld)]
    exact hs.pending_empty k id d hd
  · exact hs.pending_held k id d u hd (hother u d hu).1
  · rw [hcell d (hother u d hu).2]
    exact hs.held_empty u d (hother u d hu).1
  · exact hs.held_late u d (hother u d hu).1
  · exact hs.held_once u v d (hother u d hu).1 (hother v d hv).1
  · rw [hcell d (by rintro rfl; exact hs.held_late t d hheld hd)]
    exact hs.early_empty d hd
  · by_cases hdc : d = c
    · subst hdc
      simp [State.resolve, State.setCell, State.setThread, State.record] at hd
    · rw [hcell d hdc] at hd
      rcases List.mem_append.mp hmem with hmem | hmem
      · exact hs.empty_unresolved d r' hd hmem
      · cases List.mem_singleton.mp hmem
        exact hdc rfl

theorem Senders.insert (hs : Senders s) {id : UInt64} (hc : s.calls c = .allocated id)
    (hfree : s.pending c.kind id = none) :
    Senders ((s.setPending c.kind id (some c)).setCall c (.inserted id)) := by
  have hearly : (s.calls c).Early := by simp [hc, Pc.Early]
  have hunheld : ∀ u, (s.threads u).held ≠ some c := fun u hu => hs.held_late u c hu hearly
  have hpend : ∀ k' id' d, (s.setPending c.kind id (some c)).pending k' id' = some d →
      (k' = c.kind ∧ id' = id ∧ d = c) ∨ (d ≠ c ∧ s.pending k' id' = some d) := by
    intro k' id' d hd
    rw [pending_setPending] at hd
    split at hd
    · exact .inl ⟨‹_ ∧ _›.1, ‹_ ∧ _›.2, (Option.some.inj hd).symm⟩
    · refine .inr ⟨?_, hd⟩
      rintro rfl
      exact Pc.not_early_of_entered (hs.pending_entered k' id' d hd).2 hearly
  have hcall : ∀ d, d ≠ c →
      ((s.setPending c.kind id (some c)).setCall c (.inserted id)).calls d = s.calls d :=
    fun d hd => Function.update_of_ne hd ..
  have hself : ((s.setPending c.kind id (some c)).setCall c (.inserted id)).calls c =
      .inserted id := Function.update_self ..
  refine ⟨fun k' id' d hd => ?_, fun k' id' d hd => ?_, fun k' id' d u hd => ?_, hs.4,
    fun u d hu => ?_, hs.6, fun d hd => ?_, hs.8⟩
  · rcases hpend k' id' d hd with ⟨rfl, rfl, rfl⟩ | ⟨hne, hp⟩
    · exact ⟨rfl, by rw [hself]; rfl⟩
    · rw [hcall d hne]
      exact hs.pending_entered k' id' d hp
  · rcases hpend k' id' d hd with ⟨-, -, rfl⟩ | ⟨-, hp⟩
    · exact hs.early_empty d hearly
    · exact hs.pending_empty k' id' d hp
  · rcases hpend k' id' d hd with ⟨-, -, rfl⟩ | ⟨-, hp⟩
    · exact hunheld u
    · exact hs.pending_held k' id' d u hp
  · rw [hcall d (by rintro rfl; exact hunheld u hu)]
    exact hs.held_late u d hu
  · by_cases hdc : d = c
    · subst hdc
      rw [hself] at hd
      exact hd.elim
    · rw [hcall d hdc] at hd
      exact hs.early_empty d hd

end Moves

/-! ### Ids are given out once -/

section Ids

variable {s : State} {c : CallId}

theorem Ids.congr {s' : State} (hs : Ids s) (hn : s'.next = s.next) (hc : s'.calls = s.calls)
    (hl : s'.log = s.log) : Ids s' := by
  refine ⟨?_, ?_, ?_, ?_, ?_⟩
  · simpa [hn, hl] using hs.next
  · simpa [hc, hl] using hs.owned
  · simpa [hc, hl] using hs.fresh
  · simpa [hl] using hs.bound
  · simpa [hl] using hs.unique

theorem allocations_record {k : Kind} {log : List Event} {e : Event}
    (he : ∀ c id, e ≠ .allocated c id) : allocations k (log ++ [e]) = allocations k log := by
  cases e <;> simp [allocations] at he ⊢

theorem Ids.record (hs : Ids s) {e : Event} (he : ∀ c id, e ≠ .allocated c id) :
    Ids (s.record e) := by
  have hmem : ∀ c id, .allocated c id ∈ s.log ++ [e] ↔ .allocated c id ∈ s.log := by
    intro c id
    simp [(he c id).symm]
  simp only [State.record]
  refine ⟨fun k => ?_, fun c id h => ?_, fun c id h => ?_, fun c id h => ?_, fun c c' id h h' => ?_⟩
  · rw [allocations_record he]
    exact hs.next k
  · exact (hmem c id).mpr (hs.owned c id h)
  · rw [hmem]
    exact hs.fresh c id h
  · rw [allocations_record he]
    exact hs.bound c id ((hmem c id).mp h)
  · exact hs.unique c c' id ((hmem c id).mp h) ((hmem c' id).mp h')

theorem Ids.setCall (hs : Ids s) {pc : Pc} (hid : pc.id? = (s.calls c).id? ∨ pc.id? = none)
    (hfresh : pc = .idle ∨ pc = .checked → s.calls c = .idle ∨ s.calls c = .checked) :
    Ids (s.setCall c pc) := by
  refine ⟨hs.next, fun d id h => ?_, fun d id h => ?_, hs.bound, hs.unique⟩
  all_goals
    by_cases hd : d = c
    · subst hd
      simp only [State.setCall, Function.update_self] at *
      grind [hs.owned, hs.fresh]
    · simp only [State.setCall, Function.update_of_ne hd] at *
      grind [hs.owned, hs.fresh]

theorem allocations_allocated (k : Kind) (log : List Event) (id : UInt64) :
    allocations k (log ++ [.allocated c id]) = allocations k log + if c.kind = k then 1 else 0 := by
  simp [allocations, List.countP_append, List.countP_cons]

theorem Ids.allocate (hs : Ids s) {s' : State} {id : UInt64} (hid : id = s.next c.kind + 1)
    (hlt : allocations c.kind s.log + 1 < 2 ^ 64)
    (hnext : s'.next = Function.update s.next c.kind id)
    (hcalls : s'.calls = Function.update s.calls c (.allocated id))
    (hlog : s'.log = s.log ++ [.allocated c id]) : Ids s' := by
  -- `fetch_add(1) + 1` is new as long as the counter has not wrapped
  have hval : id.toNat = allocations c.kind s.log + 1 := by
    rw [hid, hs.next, UInt64.toNat_add, UInt64.toNat_ofNat']
    simp only [UInt64.toNat_one]
    omega
  have hmem : ∀ d i, .allocated d i ∈ s.log ++ [.allocated c id] →
      .allocated d i ∈ s.log ∨ (d = c ∧ i = id) := by
    intro d i h
    simpa using h
  refine ⟨fun k => ?_, fun d i h => ?_, fun d i h hin => ?_, fun d i h => ?_,
    fun d d' i h h' hk => ?_⟩
  · rw [hnext, hlog, allocations_allocated]
    by_cases hk : c.kind = k
    · subst hk
      rw [Function.update_self, if_pos rfl, hid, hs.next]
      simp
    · rw [Function.update_of_ne (Ne.symm hk), if_neg hk, hs.next]
      rfl
  · rw [hcalls] at h
    rw [hlog]
    by_cases hd : d = c
    · subst hd
      rw [Function.update_self] at h
      cases h
      simp
    · rw [Function.update_of_ne hd] at h
      exact List.mem_append_left _ (hs.owned d i h)
  · rw [hcalls] at h
    rw [hlog] at hin
    by_cases hd : d = c
    · subst hd
      simp at h
    · rw [Function.update_of_ne hd] at h
      rcases hmem d i hin with hin | ⟨rfl, -⟩
      · exact hs.fresh d i h hin
      · exact hd rfl
  · rw [hlog] at h ⊢
    rw [allocations_allocated]
    rcases hmem d i h with hin | ⟨rfl, rfl⟩
    · obtain ⟨h0, hle⟩ := hs.bound d i hin
      exact ⟨h0, by omega⟩
    · refine ⟨?_, by rw [hval, if_pos rfl]⟩
      rintro rfl
      simp at hval
  · rw [hlog] at h h'
    -- an older id is at most the count, the new one is above it
    have hnew : ∀ e, .allocated e id ∈ s.log → e.kind = c.kind → False := by
      intro e he hek
      have hle := (hs.bound e _ he).2
      rw [hval, hek] at hle
      omega
    rcases hmem d i h with hin | ⟨rfl, rfl⟩
    · rcases hmem d' i h' with hin' | ⟨rfl, rfl⟩
      · exact hs.unique d d' i hin hin' hk
      · exact (hnew d hin hk).elim
    · rcases hmem d' _ h' with hin' | ⟨rfl, -⟩
      · exact (hnew d' hin' hk.symm).elim
      · rfl

end Ids

/-! ### What a step can do -/

/-- The moves the steps are made of, each with what its guard gives. -/
inductive Move (s : State) : State → Prop where
  | world (b w : Bool) (g : UInt64) :
      Move s { s with isConnected := b, writer := w, generation := g }
  | thread (b w : Bool) {t : ℕ} {th : Thread} (hth : th.held = none) :
      Move s ({ s with isConnected := b, writer := w }.setThread t th)
  | advance {c : CallId} {pc : Pc} (hid : pc.id? = (s.calls c).id?)
      (hent : pc.entered = (s.calls c).entered) (hearly : pc.Early → (s.calls c).Early)
      (hfresh : pc = .idle ∨ pc = .checked → s.calls c = .idle ∨ s.calls c = .checked)
      (hrun : s.calls c ≠ .returned) : Move s (s.setCall c pc)
  | allocate {c : CallId} (hc : s.calls c = .checked) :
      Move s (({ s with next := Function.update s.next c.kind (s.next c.kind + 1) }.setCall c
        (.allocated (s.next c.kind + 1))).record (.allocated c (s.next c.kind + 1)))
  | insert {c : CallId} {id : UInt64} (hc : s.calls c = .allocated id) :
      Move s (((s.dropSender (s.pending c.kind id)).setPending c.kind id (some c)).setCall c
        (.inserted id))
  | withdraw {c : CallId} {id : UInt64} {r : Outcome} (hc : (s.calls c).entered = some id)
      (hr : ¬ Remote r) :
      Move s (((s.dropSender (s.pending c.kind id)).setPending c.kind id none).finish c r)
  | finish {c : CallId} {r : Outcome} (hrun : s.calls c ≠ .returned)
      (hout : (s.calls c).Early ∨ s.cells c ≠ .empty) (hr : Remote r → s.cells c = .full r) :
      Move s (s.finish c r)
  | ignore (body : PacketBody) : Move s (s.record (.received body))
  | answer {t : ℕ} {body : PacketBody} {k : Kind} {id : UInt64} {r : Outcome} {c : CallId}
      (hb : Client.answer body = some (k, id, r)) (hp : s.pending k id = some c) :
      Move s (((s.record (.received body)).setPending k id none).setThread t (.replying c r))
  | take {t : ℕ} {reason : String} {k : Kind} {key : UInt64} {keys : List UInt64} {c : CallId}
      (hp : s.pending k key = some c) :
      Move s ((s.setPending k key none).setThread t (.notifying reason k keys c))
  | resolve {t : ℕ} {c : CallId} {r : Outcome} {th : Thread} (hheld : (s.threads t).held = some c)
      (hr : s.threads t = .replying c r ∨ ¬ Remote r) (hth : th.held = none) :
      Move s ((s.resolve c r).setThread t th)

theorem stepCall_move {s s' : State} {c : CallId} {op : CallOp}
    (h : stepCall s c op (s.calls c) = some s') : Move s s' := by
  generalize hpc : s.calls c = pc at h
  unfold stepCall at h
  split at h
  · split at h <;> cases h
    · exact .advance (by simp [hpc, Pc.id?]) (by simp [hpc, Pc.entered]) (by simp [hpc, Pc.Early])
        (by simp [hpc]) (by simp [hpc])
    · exact .finish (by simp [hpc]) (.inl (by simp [hpc, Pc.Early])) (by simp [Remote])
  · cases h
    exact .allocate hpc
  · cases h
    exact .insert hpc
  · cases h
    split <;> exact .advance (by simp [hpc, Pc.id?]) (by simp [hpc, Pc.entered])
      (by simp [Pc.Early]) (by simp) (by simp [hpc])
  · cases h
    exact .advance (by simp [hpc, Pc.id?]) (by simp [hpc, Pc.entered]) (by simp [Pc.Early])
      (by simp) (by simp [hpc])
  · cases h
    exact .advance (by simp [hpc, Pc.id?]) (by simp [hpc, Pc.entered]) (by simp [Pc.Early])
      (by simp) (by simp [hpc])
  · cases h
    exact .withdraw (by simp [hpc, Pc.entered]) (by simp [Remote])
  · split at h <;> cases h
    · rename_i hcell
      exact .finish (by simp [hpc]) (.inr (by simp [hcell])) (fun _ => hcell)
    · rename_i hcell
      exact .finish (by simp [hpc]) (.inr (by simp [hcell])) (by simp [Remote])
  · split at h <;> cases h
    exact .advance (by simp [hpc, Pc.id?]) (by simp [hpc, Pc.entered]) (by simp [Pc.Early])
      (by simp) (by simp [hpc])
  · cases h
    exact .withdraw (by simp [hpc, Pc.entered]) (by simp [Remote])
  · cases h
    exact .advance (by simp [hpc, Pc.id?]) (by simp [hpc, Pc.entered]) (by simp [Pc.Early])
      (by simp) (by simp [hpc])
  · cases h
    exact .advance (by simp [hpc, Pc.id?]) (by simp [hpc, Pc.entered]) (by simp [Pc.Early])
      (by simp) (by simp [hpc])
  · cases h

theorem stepThread_move {s s' : State} {t : ℕ} {op : ThreadOp}
    (h : stepThread s t op (s.threads t) = some s') : Move s s' := by
  generalize hth : s.threads t = th at h
  unfold stepThread at h
  split at h
  · dsimp only at h
    split at h
    · cases h
      exact .ignore _
    · rename_i hb
      split at h <;> cases h
      · exact .ignore _
      · exact .answer hb ‹_›
  · cases h
    exact .resolve (by simp [hth, Thread.held]) (.inl hth) rfl
  · split at h <;> cases h
    · exact .thread s.isConnected s.writer rfl
    · exact .world s.isConnected s.writer s.generation
  · cases h
    exact .thread false s.writer (by split <;> rfl)
  · cases h
    exact .thread s.isConnected false rfl
  · cases h
    exact .thread s.isConnected s.writer rfl
  · cases h
    exact .thread s.isConnected s.writer rfl
  · cases h
    exact .thread s.isConnected s.writer rfl
  · split at h <;> cases h
    · exact .thread s.isConnected s.writer rfl
    · exact .take ‹_›
  · cases h
    exact .resolve (by simp [hth, Thread.held]) (.inr (by simp [Remote])) rfl
  · cases h

theorem step_move {a : Action} {s s' : State} (h : step a s = some s') : Move s s' := by
  cases a with
  | call c op => exact stepCall_move h
  | thread t op => exact stepThread_move h
  | nextGeneration =>
    cases h
    exact .world s.isConnected s.writer _
  | storeWriter =>
    cases h
    exact .world s.isConnected _ s.generation
  | storeConnected =>
    cases h
    exact .world _ s.writer s.generation

/-! ### The invariants along a run -/

section Preserved

variable {s s' : State}

theorem Pc.id?_of_entered {pc : Pc} {id : UInt64} (h : pc.entered = some id) :
    pc.id? = some id := by
  cases pc <;> simp_all [Pc.entered, Pc.id?]

theorem allocated_of_pending (hids : Ids s) (hs : Senders s) {k : Kind} {id : UInt64} {c : CallId}
    (h : s.pending k id = some c) : c.kind = k ∧ .allocated c id ∈ s.log := by
  obtain ⟨hk, hent⟩ := hs.pending_entered k id c h
  exact ⟨hk, hids.owned c id (Pc.id?_of_entered hent)⟩

theorem pending_allocated (hids : Ids s) (hs : Senders s) {c : CallId} {id : UInt64}
    (hc : s.calls c = .allocated id) : s.pending c.kind id = none := by
  cases hp : s.pending c.kind id with
  | none => rfl
  | some d =>
    obtain ⟨hk, hd⟩ := allocated_of_pending hids hs hp
    have hown := hids.owned c id (by simp [hc, Pc.id?])
    have hent := (hs.pending_entered _ _ _ hp).2
    rw [hids.unique d c id hd hown hk, hc] at hent
    cases hent

theorem Senders.not_pending (hs : Senders s) {c : CallId}
    (h : (s.calls c).Early ∨ s.cells c ≠ .empty) (k : Kind) (id : UInt64) :
    s.pending k id ≠ some c := by
  intro hp
  rcases h with h | h
  · exact Pc.not_early_of_entered (hs.pending_entered k id c hp).2 h
  · exact h (hs.pending_empty k id c hp)

theorem Senders.finish (hs : Senders s) {c : CallId} {r : Outcome}
    (h : ∀ k id, s.pending k id ≠ some c) : Senders (s.finish c r) :=
  (hs.setCall (.inr h) (by simp [Pc.Early])).record (by simp)

theorem Senders.move (hids : Ids s) (hs : Senders s) (h : Move s s') : Senders s' := by
  cases h with
  | world b w g => exact ⟨hs.1, hs.2, hs.3, hs.4, hs.5, hs.6, hs.7, hs.8⟩
  | thread b w hth =>
    exact Senders.setThread (s := { s with isConnected := b, writer := w })
      ⟨hs.1, hs.2, hs.3, hs.4, hs.5, hs.6, hs.7, hs.8⟩ hth
  | advance _ hent hearly _ _ => exact hs.setCall (.inl hent) hearly
  | @allocate c hc =>
    have hcall : Senders (s.setCall c (.allocated (s.next c.kind + 1))) :=
      hs.setCall (.inl (by simp [hc, Pc.entered])) (by simp [hc, Pc.Early])
    have hrec := hcall.record (e := .allocated c (s.next c.kind + 1)) (by simp)
    exact ⟨hrec.1, hrec.2, hrec.3, hrec.4, hrec.5, hrec.6, hrec.7, hrec.8⟩
  | insert hc =>
    have hfree := pending_allocated hids hs hc
    rw [hfree]
    exact hs.insert hc hfree
  | @withdraw c id r hc hr =>
    refine (hs.removePending c.kind id).finish fun k' id' hp => ?_
    obtain ⟨hp', hne⟩ := pending_of_removed hp
    have hpend : s.pending k' id' = some c := by
      cases hd : s.pending c.kind id <;> simpa [State.dropSender, State.setCell, hd] using hp'
    obtain ⟨hk, hent⟩ := hs.pending_entered k' id' c hpend
    exact hne ⟨hk.symm, Option.some.inj (hent.symm.trans hc)⟩
  | finish _ hout _ => exact hs.finish (hs.not_pending hout)
  | ignore body => exact hs.record (by simp)
  | answer hb hp => exact (hs.record (by simp)).take hp rfl
  | take hp => exact hs.take hp rfl
  | resolve hheld _ hth => exact hs.resolve hheld hth

theorem dropSender_log (o : Option CallId) : (s.dropSender o).log = s.log := by
  cases o <;> rfl

theorem dropSender_calls (o : Option CallId) : (s.dropSender o).calls = s.calls := by
  cases o <;> rfl

theorem dropSender_next (o : Option CallId) : (s.dropSender o).next = s.next := by
  cases o <;> rfl

theorem Ids.finish (hs : Ids s) {c : CallId} {r : Outcome} : Ids (s.finish c r) :=
  (hs.setCall (.inr rfl) (by simp)).record (by simp)

theorem Ids.move (hs : Ids s) (h : Move s s') (hb : ∀ k, allocations k s'.log < 2 ^ 64) :
    Ids s' := by
  cases h with
  | world b w g => exact hs.congr rfl rfl rfl
  | thread b w hth => exact hs.congr rfl rfl rfl
  | advance hid _ _ hfresh _ => exact hs.setCall (.inl hid) hfresh
  | @allocate c hc =>
    have hlt := hb c.kind
    rw [State.record, allocations_allocated, if_pos rfl] at hlt
    exact hs.allocate rfl hlt rfl rfl rfl
  | @insert c id hc =>
    have hdrop : Ids ((s.dropSender (s.pending c.kind id)).setPending c.kind id (some c)) :=
      hs.congr (dropSender_next _) (dropSender_calls _) (dropSender_log _)
    have hcall : ((s.dropSender (s.pending c.kind id)).setPending c.kind id (some c)).calls c =
        .allocated id := by
      rw [State.setPending, dropSender_calls, hc]
    exact hdrop.setCall (.inl (by rw [hcall]; rfl)) (by simp)
  | @withdraw c id r hc hr =>
    have hdrop : Ids ((s.dropSender (s.pending c.kind id)).setPending c.kind id none) :=
      hs.congr (dropSender_next _) (dropSender_calls _) (dropSender_log _)
    exact hdrop.finish
  | finish _ _ _ => exact hs.finish
  | ignore body => exact hs.record (by simp)
  | answer hb hp => exact (hs.record (e := .received _) (by simp)).congr rfl rfl rfl
  | take hp => exact hs.congr rfl rfl rfl
  | resolve hheld _ hth => exact (hs.record (e := .resolved _ _) (by simp)).congr rfl rfl rfl

theorem Answered.record {log : List Event} {c : CallId} {r : Outcome} (h : Answered log c r)
    (e : Event) : Answered (log ++ [e]) c r := by
  obtain ⟨id, body, hb, hsub⟩ := h
  exact ⟨id, body, hb, hsub.trans (List.sublist_append_left ..)⟩

structure Answers (s : State) : Prop where
  replying : ∀ t c r, s.threads t = .replying c r → Answered s.log c r
  full : ∀ c r, s.cells c = .full r → Remote r → Answered s.log c r
  returned : ∀ c r, .returned c r ∈ s.log → Remote r → Answered s.log c r

theorem Answers.record (hs : Answers s) {e : Event}
    (he : ∀ c r, e = .returned c r → Remote r → Answered s.log c r) : Answers (s.record e) := by
  refine ⟨fun t c r h => (hs.replying t c r h).record e, fun c r h hr => (hs.full c r h hr).record e,
    fun c r h hr => ?_⟩
  rcases List.mem_append.mp h with h | h
  · exact (hs.returned c r h hr).record e
  · exact (he c r (List.mem_singleton.mp h).symm hr).record e

theorem Answers.setThread (hs : Answers s) {t : ℕ} {th : Thread}
    (hth : ∀ c r, th = .replying c r → Answered s.log c r) : Answers (s.setThread t th) := by
  refine ⟨fun u c r h => ?_, hs.full, hs.returned⟩
  by_cases hu : u = t
  · subst hu
    exact hth c r (by simpa [State.setThread] using h)
  · exact hs.replying u c r (by simpa [State.setThread, Function.update_of_ne hu] using h)

theorem Answers.setCell (hs : Answers s) {c : CallId} {cell : Cell}
    (hcell : ∀ r, cell = .full r → Remote r → Answered s.log c r) : Answers (s.setCell c cell) := by
  refine ⟨hs.replying, fun d r h hr => ?_, hs.returned⟩
  by_cases hd : d = c
  · subst hd
    exact hcell r (by simpa [State.setCell] using h) hr
  · exact hs.full d r (by simpa [State.setCell, Function.update_of_ne hd] using h) hr

theorem Answers.dropSender (hs : Answers s) (o : Option CallId) : Answers (s.dropSender o) := by
  cases o with
  | none => exact hs
  | some c => exact hs.setCell (by simp)

theorem Thread.not_replying {th : Thread} (h : th.held = none) (c : CallId) (r : Outcome) :
    th ≠ .replying c r := by
  rintro rfl
  cases h

theorem Answers.move (hids : Ids s) (hsend : Senders s) (hs : Answers s) (h : Move s s') :
    Answers s' := by
  cases h with
  | world b w g => exact ⟨hs.1, hs.2, hs.3⟩
  | thread b w hth =>
    exact Answers.setThread (s := { s with isConnected := b, writer := w }) ⟨hs.1, hs.2, hs.3⟩
      fun c r h => absurd h (Thread.not_replying hth c r)
  | advance _ _ _ _ _ => exact ⟨hs.1, hs.2, hs.3⟩
  | @allocate c hc =>
    have hrec := hs.record (e := .allocated c (s.next c.kind + 1)) (by simp)
    exact ⟨hrec.1, hrec.2, hrec.3⟩
  | @insert c id hc =>
    have hd := hs.dropSender (s.pending c.kind id)
    exact ⟨hd.1, hd.2, hd.3⟩
  | @withdraw c id r hc hr =>
    have hd := hs.dropSender (s.pending c.kind id)
    have hrec := hd.record (e := .returned c r) fun d r' he hr' => by
      cases he
      exact absurd hr' hr
    exact ⟨hrec.1, hrec.2, hrec.3⟩
  | @finish c r _ _ hr =>
    have hrec := hs.record (e := .returned c r) fun d r' he hr' => by
      cases he
      exact hs.full c r (hr hr') hr'
    exact ⟨hrec.1, hrec.2, hrec.3⟩
  | ignore body => exact hs.record (by simp)
  | @answer t body k id r c hb hp =>
    have hrec : Answers (s.record (.received body)) := hs.record (by simp)
    refine Answers.setThread (s := (s.record (.received body)).setPending k id none)
      ⟨hrec.1, hrec.2, hrec.3⟩ fun d r' he => ?_
    cases he
    -- the id was allocated before, the packet is the newest event
    obtain ⟨rfl, halloc⟩ := allocated_of_pending hids hsend hp
    exact ⟨id, body, says_of_answer hb, (List.singleton_sublist.mpr halloc).append (List.Sublist.refl _)⟩
  | take hp =>
    exact Answers.setThread (s := s.setPending _ _ none) ⟨hs.1, hs.2, hs.3⟩ (by simp)
  | @resolve t c r th hheld hr hth =>
    have hcell : Answers (s.setCell c (.full r)) := hs.setCell fun r' he hr' => by
      cases he
      rcases hr with hr | hr
      · exact hs.replying t c r hr
      · exact absurd hr' hr
    exact (hcell.record (e := .resolved c r) (by simp)).setThread
      fun d r' h => absurd h (Thread.not_replying hth d r')

def resolutions (c : CallId) (log : List Event) : ℕ :=
  log.countP fun
    | .resolved d _ => d = c
    | _ => false

def returns (c : CallId) (log : List Event) : ℕ :=
  log.countP fun
    | .returned d _ => d = c
    | _ => false

structure Once (s : State) : Prop where
  resolved : ∀ c, resolutions c s.log ≤ 1
  returned : ∀ c, returns c s.log ≤ 1
  running : ∀ c r, s.calls c ≠ .returned → .returned c r ∉ s.log

theorem resolutions_record (c : CallId) (log : List Event) {e : Event}
    (he : ∀ c r, e ≠ .resolved c r) : resolutions c (log ++ [e]) = resolutions c log := by
  cases e <;> simp [resolutions] at he ⊢

theorem returns_record (c : CallId) (log : List Event) {e : Event}
    (he : ∀ c r, e ≠ .returned c r) : returns c (log ++ [e]) = returns c log := by
  cases e <;> simp [returns] at he ⊢

theorem resolutions_resolved (c d : CallId) (r : Outcome) (log : List Event) :
    resolutions c (log ++ [.resolved d r]) = resolutions c log + if d = c then 1 else 0 := by
  simp [resolutions, List.countP_append, List.countP_cons]

theorem returns_returned (c d : CallId) (r : Outcome) (log : List Event) :
    returns c (log ++ [.returned d r]) = returns c log + if d = c then 1 else 0 := by
  simp [returns, List.countP_append, List.countP_cons]

theorem resolutions_eq_zero {c : CallId} {log : List Event} (h : ∀ r, .resolved c r ∉ log) :
    resolutions c log = 0 := by
  rw [resolutions, List.countP_eq_zero]
  intro e he
  cases e with
  | resolved d r =>
    have hne : d ≠ c := by
      rintro rfl
      exact h r he
    simpa using hne
  | _ => simp

theorem returns_eq_zero {c : CallId} {log : List Event} (h : ∀ r, .returned c r ∉ log) :
    returns c log = 0 := by
  rw [returns, List.countP_eq_zero]
  intro e he
  cases e with
  | returned d r =>
    have hne : d ≠ c := by
      rintro rfl
      exact h r he
    simpa using hne
  | _ => simp

theorem Once.record (hs : Once s) {e : Event} (he : ∀ c r, e ≠ .resolved c r)
    (he' : ∀ c r, e ≠ .returned c r) : Once (s.record e) := by
  refine ⟨fun c => ?_, fun c => ?_, fun c r hc hmem => ?_⟩
  · rw [State.record, resolutions_record c s.log he]
    exact hs.resolved c
  · rw [State.record, returns_record c s.log he']
    exact hs.returned c
  · rcases List.mem_append.mp hmem with hmem | hmem
    · exact hs.running c r hc hmem
    · exact he' c r (List.mem_singleton.mp hmem).symm

theorem Once.setCall (hs : Once s) {c : CallId} (pc : Pc) (hrun : s.calls c ≠ .returned) :
    Once (s.setCall c pc) := by
  refine ⟨hs.resolved, hs.returned, fun d r hd => ?_⟩
  by_cases hdc : d = c
  · subst hdc
    exact hs.running d r hrun
  · exact hs.running d r (by simpa [State.setCall, Function.update_of_ne hdc] using hd)

theorem Once.finish (hs : Once s) {c : CallId} {r : Outcome} (hrun : s.calls c ≠ .returned) :
    Once (s.finish c r) := by
  refine ⟨fun d => ?_, fun d => ?_, fun d r' hd hmem => ?_⟩
  · rw [State.finish, State.record, resolutions_record d _ (by simp)]
    exact hs.resolved d
  · rw [State.finish, State.record, returns_returned]
    by_cases hdc : c = d
    · subst hdc
      rw [State.setCall, returns_eq_zero (hs.running c · hrun)]
      simp
    · rw [if_neg hdc]
      exact hs.returned d
  · by_cases hdc : d = c
    · subst hdc
      simp [State.finish, State.record, State.setCall] at hd
    · rcases List.mem_append.mp hmem with hmem | hmem
      · refine hs.running d r' ?_ hmem
        simpa [State.finish, State.record, State.setCall, Function.update_of_ne hdc] using hd
      · cases List.mem_singleton.mp hmem
        exact hdc rfl

theorem Once.move (hsend : Senders s) (hs : Once s) (h : Move s s') : Once s' := by
  cases h with
  | world b w g => exact ⟨hs.1, hs.2, hs.3⟩
  | thread b w hth => exact ⟨hs.1, hs.2, hs.3⟩
  | advance _ _ _ _ hrun => exact hs.setCall _ hrun
  | @allocate c hc =>
    have hcall := hs.setCall (c := c) (.allocated (s.next c.kind + 1)) (by simp [hc])
    have hrec := hcall.record (e := .allocated c (s.next c.kind + 1)) (by simp) (by simp)
    exact ⟨hrec.1, hrec.2, hrec.3⟩
  | @insert c id hc =>
    have hcall := hs.setCall (c := c) (.inserted id) (by simp [hc])
    refine ⟨fun d => ?_, fun d => ?_, fun d r => ?_⟩
    · simpa [State.setCall, State.setPending, dropSender_log] using hcall.resolved d
    · simpa [State.setCall, State.setPending, dropSender_log] using hcall.returned d
    · simpa [State.setCall, State.setPending, dropSender_log, dropSender_calls]
        using hcall.running d r
  | @withdraw c id r hc hr =>
    have hdrop : Once ((s.dropSender (s.pending c.kind id)).setPending c.kind id none) := by
      refine ⟨fun d => ?_, fun d => ?_, fun d r => ?_⟩
      · simpa [State.setPending, dropSender_log] using hs.resolved d
      · simpa [State.setPending, dropSender_log] using hs.returned d
      · simpa [State.setPending, dropSender_log, dropSender_calls] using hs.running d r
    refine hdrop.finish ?_
    rw [State.setPending, dropSender_calls]
    intro heq
    rw [heq] at hc
    cases hc
  | finish hrun _ _ => exact hs.finish hrun
  | ignore body => exact hs.record (by simp) (by simp)
  | @answer t body k id r c hb hp =>
    have hrec := hs.record (e := .received body) (by simp) (by simp)
    exact ⟨hrec.1, hrec.2, hrec.3⟩
  | take hp => exact ⟨hs.1, hs.2, hs.3⟩
  | @resolve t c r th hheld hr hth =>
    refine ⟨fun d => ?_, fun d => ?_, fun d r' hd hmem => ?_⟩
    · show resolutions d (s.log ++ [.resolved c r]) ≤ 1
      rw [resolutions_resolved]
      by_cases hdc : c = d
      · subst hdc
        have hempty := hsend.held_empty t c hheld
        rw [resolutions_eq_zero (hsend.empty_unresolved c · hempty)]
        simp
      · rw [if_neg hdc]
        exact hs.resolved d
    · show returns d (s.log ++ [.resolved c r]) ≤ 1
      rw [returns_record d s.log (by simp)]
      exact hs.returned d
    · rcases List.mem_append.mp hmem with hmem | hmem
      · exact hs.running d r' hd hmem
      · cases List.mem_singleton.mp hmem

theorem Move.log_le (h : Move s s') (k : Kind) : allocations k s.log ≤ allocations k s'.log := by
  have hgrow : ∀ e, allocations k s.log ≤ allocations k (s.log ++ [e]) := by
    intro e
    rw [allocations, allocations, List.countP_append]
    exact Nat.le_add_right ..
  cases h with
  | world | thread | advance | take => exact le_rfl
  | insert =>
    rw [State.setCall, State.setPending, dropSender_log]
  | withdraw =>
    rw [State.finish, State.record, State.setCall, State.setPending, dropSender_log]
    exact hgrow _
  | allocate | finish | ignore | answer | resolve => exact hgrow _

end Preserved

structure Correlated (s : State) : Prop where
  ids : Ids s
  senders : Senders s
  answers : Answers s
  once : Once s

theorem correlated_init : Correlated State.init where
  ids := by
    refine ⟨fun _ => rfl, ?_, ?_, ?_, ?_⟩ <;> simp [State.init, Pc.id?]
  senders := by
    refine ⟨?_, ?_, ?_, ?_, ?_, ?_, ?_, ?_⟩ <;> simp [State.init, Thread.held]
  answers := by
    refine ⟨?_, ?_, ?_⟩ <;> simp [State.init]
  once := by
    refine ⟨?_, ?_, ?_⟩ <;> simp [State.init, resolutions, returns]

theorem Correlated.step {a : Action} {s s' : State} (hs : Correlated s)
    (h : Client.step a s = some s') (hb : ∀ k, allocations k s'.log < 2 ^ 64) : Correlated s' := by
  have hm := step_move h
  exact ⟨hs.ids.move hm hb, hs.senders.move hs.ids hm, hs.answers.move hs.ids hs.senders hm,
    hs.once.move hs.senders hm⟩

theorem correlated_run {acts : List Action} {s : State}
    (h : Machine.run Client.step acts State.init = some s)
    (hb : ∀ k, allocations k s.log < 2 ^ 64) : Correlated s := by
  refine Machine.run_invariant (I := fun s => (∀ k, allocations k s.log < 2 ^ 64) → Correlated s)
    ?_ h (fun _ => correlated_init) hb
  intro a s s' hs hstep hb'
  have hm := step_move hstep
  exact (hs fun k => (hm.log_le k).trans_lt (hb' k)).step hstep hb'

/-- The waiter of `c` is pending under `id`. -/
def Waits (s : State) (c : CallId) (id : UInt64) : Prop := (s.calls c).entered = some id

theorem pending_of_unanswered {t : ℕ} {body : PacketBody} {s s' : State}
    (h : Client.step (.thread t (.handlePacket body)) s = some s')
    (hun : ∀ k id r, answer body = some (k, id, r) → s.pending k id = none) :
    s'.pending = s.pending := by
  cases hth : s.threads t with
  | idle =>
    simp only [Client.step, hth, stepThread] at h
    split at h
    · cases h
      rfl
    · rename_i k id r hb
      rw [show (s.record (.received body)).pending k id = none from hun k id r hb] at h
      cases h
      rfl
  | _ => simp [Client.step, hth, stepThread] at h

/-- Client correlation safety, in every run that gives out fewer than `2 ^ 64` ids of
each kind. -/
theorem correlation_safe {acts : List Action} {s : State}
    (h : Machine.run Client.step acts State.init = some s)
    (hb : ∀ k, allocations k s.log < 2 ^ 64) :
    (∀ c, resolutions c s.log ≤ 1 ∧ returns c s.log ≤ 1) ∧
    (∀ c r, .returned c r ∈ s.log → Remote r → Answered s.log c r) ∧
    (∀ c c' id, c.kind = c'.kind → Waits s c id → Waits s c' id → c = c') ∧
    (∀ k id c, s.pending k id = some c → c.kind = k ∧ Waits s c id) ∧
    (∀ t body s', Client.step (.thread t (.handlePacket body)) s = some s' →
      (∀ k id r, answer body = some (k, id, r) → s.pending k id = none) →
      s'.pending = s.pending) ∧
    ∀ k, s.pending k 0 = none := by
  have hs := correlated_run h hb
  refine ⟨fun c => ⟨hs.once.resolved c, hs.once.returned c⟩, hs.answers.returned, ?_,
    hs.senders.pending_entered, fun t body s' => pending_of_unanswered, fun k => ?_⟩
  · intro c c' id hk hc hc'
    exact hs.ids.unique c c' id (hs.ids.owned c id (Pc.id?_of_entered hc))
      (hs.ids.owned c' id (Pc.id?_of_entered hc')) hk
  · cases hp : s.pending k 0 with
    | none => rfl
    | some c =>
      have halloc := (allocated_of_pending hs.ids hs.senders hp).2
      exact absurd rfl (hs.ids.bound c 0 halloc).1

/-- One call over one connection; the server sends an unknown id, the answer, and the
answer again. -/
def oneCall : List Action :=
  [.nextGeneration, .storeWriter, .storeConnected, .call ⟨.api, 0⟩ .start,
    .call ⟨.api, 0⟩ .allocate, .call ⟨.api, 0⟩ .insert, .call ⟨.api, 0⟩ .loadWriter,
    .call ⟨.api, 0⟩ .sent, .thread 0 (.handlePacket (.apiResponse 9 true 200 .null none .null)),
    .thread 0 (.handlePacket (.apiResponse 1 true 200 .null none .null)), .thread 0 .reply,
    .thread 0 (.handlePacket (.apiResponse 1 true 200 .null none .null)),
    .call ⟨.api, 0⟩ .receive]

theorem correlation_safe_oneCall : ∃ s, Machine.run Client.step oneCall State.init = some s ∧
    .returned ⟨.api, 0⟩ (.ok .null) ∈ s.log ∧ Answered s.log ⟨.api, 0⟩ (.ok .null) ∧
    resolutions ⟨.api, 0⟩ s.log = 1 := by
  obtain ⟨s, hs⟩ : ∃ s, Machine.run Client.step oneCall State.init = some s := ⟨_, rfl⟩
  have hlog : s.log = [.allocated ⟨.api, 0⟩ 1,
      .received (.apiResponse 9 true 200 .null none .null),
      .received (.apiResponse 1 true 200 .null none .null), .resolved ⟨.api, 0⟩ (.ok .null),
      .received (.apiResponse 1 true 200 .null none .null), .returned ⟨.api, 0⟩ (.ok .null)] := by
    cases hs
    rfl
  have hret : .returned ⟨.api, 0⟩ (.ok .null) ∈ s.log := by simp [hlog]
  have hb : ∀ k, allocations k s.log < 2 ^ 64 := by
    intro k
    rw [hlog]
    cases k <;> decide
  exact ⟨s, hs, hret, (correlation_safe hs hb).2.1 _ _ hret trivial, by rw [hlog]; rfl⟩

end Wscall.Client
