import Wscall.Client.Turns

/-!
# The queues over the correlation machine

`Correlation` takes the operations on the tables apart, for every interleaving of threads, and
leaves the channels out. `Traffic` has the channels and takes what a task does between two awaits
as one step. Every step of `Traffic` is a run of `Correlation`, so what holds of every run there
holds here.
-/

namespace Wscall.Client.Traffic
open RustStd Protocol

/-- Where an invocation stands in the other machine. -/
def Pc.Shown : Pc → Client.Pc → Prop
  | .idle, pc => pc = .idle
  | .sending id _ _, pc => pc = .sending id
  | .waiting id, pc => pc = .waiting id
  | .dropped, pc | .cancelled, pc => ∃ id, pc = .cancelled id
  | .returned _, pc => pc = .returned

structure Simulates (s : State) (t : Client.State) : Prop where
  isConnected : t.isConnected = s.client.isConnected
  writer : t.writer = s.client.isConnected
  generation : t.generation = s.client.connectionGeneration
  next : t.next = s.next
  pending : ∀ k id, t.pending k id = (s.lookup k id).map Entry.owner
  calls : ∀ c, (s.calls c).Shown (t.calls c)
  cells : t.cells = s.cells
  threads : ∀ n, t.threads n = .idle
  returned : ∀ c r, s.calls c = .returned r → .returned c r ∈ t.log

theorem simulates_init : Simulates State.init Client.State.init :=
  ⟨rfl, rfl, rfl, rfl, fun _ _ => rfl, fun _ => rfl, rfl, fun _ => rfl, fun _ _ h => by cases h⟩

/-! ### The tables -/

/-- An id has one entry, and its owner has started. -/
structure Tidy (s : State) : Prop where
  unique : ∀ e ∈ s.pending, s.lookup e.kind e.id = some e
  started : ∀ e ∈ s.pending, s.calls e.owner ≠ .idle
  fresh : ∀ c, s.calls c = .idle → s.cells c = .empty

theorem tidy_init : Tidy State.init :=
  ⟨fun _ h => (by cases h), fun _ h => (by cases h), fun _ _ => rfl⟩

section Tables

variable {s s' : State} {k : Kind} {id : UInt64}

theorem State.lookup_congr (h : s'.pending = s.pending) : s'.lookup = s.lookup := by
  funext k id
  simp only [State.lookup, h]

theorem State.lookup_eq_some {e : Entry} (h : s.lookup k id = some e) :
    e ∈ s.pending ∧ e.kind = k ∧ e.id = id := by
  have hkey := List.find?_some h
  exact ⟨List.mem_of_find?_eq_some h, by simpa using hkey⟩

theorem State.lookup_remove (cell : Cell) (k' : Kind) (id' : UInt64) :
    (s.remove k id cell).lookup k' id' = if k' = k ∧ id' = id then none else s.lookup k' id' := by
  cases he : s.lookup k id with
  | none =>
    simp only [State.remove, he]
    split
    · rename_i hkey
      rw [hkey.1, hkey.2, he]
    · rfl
  | some e =>
    simp only [State.remove, he]
    simp only [State.lookup, List.find?_filter]
    split
    · rename_i hkey
      rw [hkey.1, hkey.2, List.find?_eq_none]
      intro e' _ hboth
      simp only [decide_eq_true_eq] at hboth
      exact hboth.1 hboth.2
    · rename_i hkey
      congr 1
      funext e'
      simp only [decide_eq_true_eq, decide_eq_decide, and_iff_right_iff_imp]
      intro hk
      rwa [hk.1, hk.2]

theorem State.lookup_enter (c : CallId) (k' : Kind) (id' : UInt64) :
    (s.enter c id).lookup k' id' =
      if c.kind = k' ∧ id = id' then some ⟨c.kind, id, c⟩ else s.lookup k' id' := by
  simp only [State.lookup, State.enter, List.find?_cons]
  split <;> simp_all

theorem Tidy.congr (h : Tidy s) (hpending : s'.pending = s.pending) (hcalls : s'.calls = s.calls)
    (hcells : s'.cells = s.cells) : Tidy s' := by
  refine ⟨?_, ?_, ?_⟩
  · rw [hpending, State.lookup_congr hpending]
    exact h.unique
  · rw [hpending, hcalls]
    exact h.started
  · rw [hcalls, hcells]
    exact h.fresh

theorem Tidy.setCall (h : Tidy s) {c : CallId} {pc : Pc} (hpc : pc ≠ .idle) : Tidy (s.setCall c pc) := by
  refine ⟨h.unique, fun e he => ?_, fun d hd => ?_⟩
  · by_cases hc : e.owner = c
    · simpa [State.setCall, hc] using hpc
    · simpa [State.setCall, Function.update_of_ne hc] using h.started e he
  · by_cases hc : d = c
    · subst hc
      exact absurd (by simpa [State.setCall] using hd) hpc
    · exact h.fresh d (by simpa [State.setCall, Function.update_of_ne hc] using hd)

theorem Tidy.remove (h : Tidy s) (k : Kind) (id : UInt64) (cell : Cell) : Tidy (s.remove k id cell) := by
  have hmem : ∀ e ∈ (s.remove k id cell).pending, e ∈ s.pending ∧ ¬ (e.kind = k ∧ e.id = id) := by
    intro e he
    cases hl : s.lookup k id with
    | none =>
      simp only [State.remove, hl] at he
      refine ⟨he, fun hkey => ?_⟩
      have hu := h.unique e he
      rw [hkey.1, hkey.2, hl] at hu
      cases hu
    | some e' => simpa only [State.remove, hl, List.mem_filter, decide_eq_true_eq] using he
  refine ⟨fun e he => ?_, fun e he => ?_, fun c hc => ?_⟩
  · rw [State.lookup_remove, if_neg (hmem e he).2]
    exact h.unique e (hmem e he).1
  · rw [State.remove_calls]
    exact h.started e (hmem e he).1
  · rw [State.remove_calls] at hc
    cases hl : s.lookup k id with
    | none =>
      simp only [State.remove, hl]
      exact h.fresh c hc
    | some e =>
      have hne : c ≠ e.owner := by
        intro heq
        exact h.started e (State.lookup_eq_some hl).1 (heq ▸ hc)
      simp only [State.remove, hl, Function.update_of_ne hne]
      exact h.fresh c hc

theorem Tidy.enter (h : Tidy s) {c : CallId} (hfree : s.lookup c.kind id = none) {pc : Pc}
    (hpc : pc ≠ .idle) : Tidy ((s.enter c id).setCall c pc) := by
  have hkeep : ∀ e ∈ s.pending, ¬ (c.kind = e.kind ∧ id = e.id) := by
    intro e he hkey
    have hu := h.unique e he
    rw [← hkey.1, ← hkey.2, hfree] at hu
    cases hu
  refine ⟨fun e he => ?_, fun e he => ?_, fun d hd => ?_⟩
  · change (s.enter c id).lookup e.kind e.id = some e
    rw [State.lookup_enter]
    rcases List.mem_cons.mp he with rfl | he
    · simp
    · rw [if_neg (hkeep e he)]
      exact h.unique e he
  · by_cases hc : e.owner = c
    · simpa [State.setCall, hc] using hpc
    · rcases List.mem_cons.mp he with rfl | he
      · exact absurd rfl hc
      · simpa [State.setCall, State.enter, Function.update_of_ne hc] using h.started e he
  · by_cases hc : d = c
    · subst hc
      exact absurd (by simpa [State.setCall] using hd) hpc
    · have hidle : s.calls d = .idle := by
        simpa [State.setCall, State.enter, Function.update_of_ne hc] using hd
      simpa [State.setCall, State.enter, Function.update_of_ne hc] using h.fresh d hidle

/-- What `handle_disconnect` leaves in the channel of an invocation. -/
theorem cells_drained (entries : List Entry) (cells : CallId → Cell) (cell : Cell) (c : CallId) :
    ((∃ e ∈ entries, e.owner = c) →
      entries.foldl (fun cells e => Function.update cells e.owner cell) cells c = cell) ∧
    ((∀ e ∈ entries, e.owner ≠ c) →
      entries.foldl (fun cells e => Function.update cells e.owner cell) cells c = cells c) := by
  induction entries generalizing cells with
  | nil => simp
  | cons e entries ih =>
    obtain ⟨hit, miss⟩ := ih (Function.update cells e.owner cell)
    refine ⟨fun hex => ?_, fun hall => ?_⟩
    · by_cases hlater : ∃ e' ∈ entries, e'.owner = c
      · exact hit hlater
      · have hnone : ∀ e' ∈ entries, e'.owner ≠ c := fun e' he' heq => hlater ⟨e', he', heq⟩
        obtain ⟨e', he', heq⟩ := hex
        rcases List.mem_cons.mp he' with rfl | he'
        · rw [List.foldl_cons, miss hnone, ← heq, Function.update_self]
        · exact absurd heq (hnone e' he')
    · rw [List.foldl_cons, miss fun e' he' => hall e' (List.mem_cons_of_mem _ he'),
        Function.update_of_ne (hall e (List.mem_cons_self ..)).symm]

theorem Tidy.drain (h : Tidy s) (reason : String) : Tidy (s.drain reason) := by
  refine ⟨fun e he => (by cases he), fun e he => (by cases he), fun c hc => ?_⟩
  refine ((cells_drained s.pending s.cells _ c).2 fun e he heq => ?_).trans (h.fresh c hc)
  exact h.started e he (heq ▸ hc)

end Tables

/-! ### A disconnect, operation by operation -/

abbrev Runs : Client.State → Client.State → Prop := Machine.Reaches Client.step fun _ _ => True

theorem runs_step {a : Client.Action} {t t' : Client.State} (h : Client.step a t = some t') : Runs t t' :=
  .head h trivial (.refl t')

/-- One thread is at work. -/
def AtWork (t : Client.State) (th : Thread) : Prop := ∀ n, t.threads n = if n = 0 then th else .idle

theorem AtWork.setThread {t : Client.State} {th : Thread} (h : AtWork t th) (th' : Thread) :
    AtWork (t.setThread 0 th') th' := by
  intro n
  by_cases hn : n = 0
  · subst hn
    simp [Client.State.setThread]
  · simpa [Client.State.setThread, Function.update_of_ne hn, hn] using h n

/-- The senders under some keys of a table were told the reason. -/
structure Drained (reason : String) (k : Kind) (keys : List UInt64) (t t' : Client.State) : Prop where
  isConnected : t'.isConnected = t.isConnected
  writer : t'.writer = t.writer
  generation : t'.generation = t.generation
  next : t'.next = t.next
  calls : t'.calls = t.calls
  pending : ∀ k' id, t'.pending k' id = if k' = k ∧ id ∈ keys then none else t.pending k' id
  hit : ∀ c id, id ∈ keys → t.pending k id = some c →
    t'.cells c = .full (.error (.connectionClosed reason))
  miss : ∀ c, (∀ id ∈ keys, t.pending k id ≠ some c) → t'.cells c = t.cells c
  log : ∀ e ∈ t.log, e ∈ t'.log

section Disconnect

variable {t : Client.State} {reason : String} {k : Kind}

theorem drained_nil : Drained reason k [] t t :=
  ⟨rfl, rfl, rfl, rfl, rfl, by simp, by simp, by simp, by simp⟩

theorem Drained.cons {key : UInt64} {keys : List UInt64} {t₁ t' : Client.State}
    (h₁ : Drained reason k [key] t t₁) (h : Drained reason k keys t₁ t') :
    Drained reason k (key :: keys) t t' := by
  refine ⟨h.isConnected.trans h₁.isConnected, h.writer.trans h₁.writer,
    h.generation.trans h₁.generation, h.next.trans h₁.next, h.calls.trans h₁.calls, fun k' id => ?_,
    fun c id hid hp => ?_, fun c hc => ?_, fun e he => h.log e (h₁.log e he)⟩
  · rw [h.pending, h₁.pending]
    by_cases hk : k' = k <;> by_cases hid : id = key <;> by_cases hmem : id ∈ keys <;>
      simp [hk, hid, hmem]
  · -- a sender that is told twice is told the same
    by_cases hlater : ∃ id' ∈ keys, t₁.pending k id' = some c
    · obtain ⟨id', hid', hp'⟩ := hlater
      exact h.hit c id' hid' hp'
    · rw [h.miss c fun id' hid' hp' => hlater ⟨id', hid', hp'⟩]
      by_cases hkey : id = key
      · exact h₁.hit c id (by simp [hkey]) hp
      · refine absurd ⟨id, (List.mem_cons.mp hid).resolve_left hkey, ?_⟩ hlater
        rw [h₁.pending, if_neg (by simp [hkey])]
        exact hp
  · rw [h.miss c fun id hid hp => ?_, h₁.miss c fun id hid => hc id (by simp_all)]
    rw [h₁.pending] at hp
    split at hp
    · cases hp
    · exact hc id (List.mem_cons_of_mem _ hid) hp

theorem drained_key {key : UInt64} {keys : List UInt64} (h : AtWork t (.draining reason k (key :: keys))) :
    ∃ t', Runs t t' ∧ AtWork t' (.draining reason k keys) ∧ Drained reason k [key] t t' := by
  have hth : t.threads 0 = .draining reason k (key :: keys) := h 0
  cases hp : t.pending k key with
  | none =>
    refine ⟨t.setThread 0 (.draining reason k keys), ?_, h.setThread _, ?_⟩
    · refine runs_step (a := .thread 0 .drain) ?_
      simp [Client.step, stepThread, hth, hp]
    · refine ⟨rfl, rfl, rfl, rfl, rfl, fun k' id => ?_, fun c id hid hp' => ?_, fun _ _ => rfl, fun _ he => he⟩
      · split
        · rename_i hkey
          rw [List.mem_singleton] at hkey
          rw [hkey.1, hkey.2]
          exact hp
        · rfl
      · rw [List.mem_singleton.mp hid, hp] at hp'
        cases hp'
  | some c =>
    let taken := (t.setPending k key none).setThread 0 (.notifying reason k keys c)
    have htake : Client.step (.thread 0 .drain) t = some taken := by
      simp [Client.step, stepThread, hth, hp, taken]
    have hnotify : Client.step (.thread 0 .notify) taken =
        some ((taken.resolve c (.error (.connectionClosed reason))).setThread 0 (.draining reason k keys)) := by
      simp [Client.step, stepThread, Client.State.setThread, taken]
    refine ⟨_, (runs_step htake).trans (runs_step hnotify), ?_, ?_⟩
    · exact (h.setThread (.notifying reason k keys c)).setThread _
    · constructor
      case pending =>
        intro k' id
        change (t.setPending k key none).pending k' id = _
        rw [pending_setPending]
        simp
      case hit =>
        intro d id hid hp'
        rw [List.mem_singleton.mp hid, hp] at hp'
        cases hp'
        exact Function.update_self ..
      case miss =>
        intro d hd
        refine Function.update_of_ne (fun heq => ?_) ..
        exact hd key (List.mem_singleton.mpr rfl) (heq ▸ hp)
      case log => exact fun e he => List.mem_append_left _ he
      all_goals
        dsimp only [taken, Client.State.resolve, Client.State.setCell, Client.State.record,
          Client.State.setThread, Client.State.setPending]

theorem drained_keys {keys : List UInt64} (h : AtWork t (.draining reason k keys)) :
    ∃ t', Runs t t' ∧ AtWork t' (.draining reason k []) ∧ Drained reason k keys t t' := by
  induction keys generalizing t with
  | nil => exact ⟨t, .refl t, h, drained_nil⟩
  | cons key keys ih =>
    obtain ⟨t₁, hrun₁, hat₁, h₁⟩ := drained_key h
    obtain ⟨t', hrun, hat, h'⟩ := ih hat₁
    exact ⟨t', hrun₁.trans hrun, hat, h₁.cons h'⟩

/-- `handle_disconnect` up to the first table. -/
theorem runs_collected (hidle : ∀ n, t.threads n = .idle) (hon : t.isConnected = true)
    (reason : String) (keys : List UInt64) :
    Runs t ({ t with isConnected := false, writer := false }.setThread 0 (.draining reason .api keys)) := by
  have hentered : Client.step (.thread 0 (.handleDisconnect t.generation reason)) t =
      some (t.setThread 0 (.disconnecting reason)) := by
    simp [Client.step, stepThread, hidle]
  have hswapped : Client.step (.thread 0 .swapConnected) (t.setThread 0 (.disconnecting reason)) =
      some ({ t with isConnected := false }.setThread 0 (.clearing reason)) := by
    simp [Client.step, stepThread, Client.State.setThread, hon]
  have hcleared : Client.step (.thread 0 .clearWriter)
      ({ t with isConnected := false }.setThread 0 (.clearing reason)) =
      some ({ t with isConnected := false, writer := false }.setThread 0 (.collecting reason .api)) := by
    simp [Client.step, stepThread, Client.State.setThread]
  have hcollected : Client.step (.thread 0 (.collect keys))
      ({ t with isConnected := false, writer := false }.setThread 0 (.collecting reason .api)) =
      some ({ t with isConnected := false, writer := false }.setThread 0 (.draining reason .api keys)) := by
    simp [Client.step, stepThread, Client.State.setThread]
  exact (runs_step hentered).trans ((runs_step hswapped).trans
    ((runs_step hcleared).trans (runs_step hcollected)))

/-- From the first table to the second. -/
theorem runs_recollected (h : AtWork t (.draining reason .api [])) (keys : List UInt64) :
    Runs t (t.setThread 0 (.draining reason .event keys)) := by
  have hdone : Client.step (.thread 0 .drain) t = some (t.setThread 0 (.collecting reason .event)) := by
    simp [Client.step, stepThread, show t.threads 0 = .draining reason .api [] from h 0]
  have hcollected : Client.step (.thread 0 (.collect keys)) (t.setThread 0 (.collecting reason .event)) =
      some (t.setThread 0 (.draining reason .event keys)) := by
    simp [Client.step, stepThread, Client.State.setThread]
  exact (runs_step hdone).trans (runs_step hcollected)

theorem runs_finished (h : AtWork t (.draining reason .event [])) : Runs t (t.setThread 0 .idle) := by
  refine runs_step (a := .thread 0 .drain) ?_
  simp [Client.step, stepThread, show t.threads 0 = .draining reason .event [] from h 0]

end Disconnect

def State.keysOf (s : State) (k : Kind) : List UInt64 := (s.pending.filter (·.kind = k)).map Entry.id

section Simulation

variable {s s' : State} {t : Client.State}

theorem Simulates.mem_keysOf (hs : Simulates s t) {k : Kind} {id : UInt64} {c : CallId}
    (h : t.pending k id = some c) : id ∈ s.keysOf k ∧ ∃ e ∈ s.pending, e.owner = c := by
  rw [hs.pending, Option.map_eq_some_iff] at h
  obtain ⟨e, he, howner⟩ := h
  obtain ⟨hmem, hkind, hid⟩ := State.lookup_eq_some he
  refine ⟨?_, e, hmem, howner⟩
  simp only [State.keysOf, List.mem_map, List.mem_filter, decide_eq_true_eq]
  exact ⟨e, ⟨hmem, hkind⟩, hid⟩

theorem Simulates.pending_of_mem (hs : Simulates s t) (htidy : Tidy s) {e : Entry} (he : e ∈ s.pending) :
    t.pending e.kind e.id = some e.owner := by
  rw [hs.pending, htidy.unique e he]
  rfl

/-- Both tables drained: every owner was told, and nothing is left. -/
theorem Simulates.drained (hs : Simulates s t) (htidy : Tidy s) {reason : String}
    {t₀ t₁ t₂ t₃ : Client.State} (h₁ : Drained reason .api (s.keysOf .api) t₀ t₁)
    (h₂ : Drained reason .event (s.keysOf .event) t₂ t₃) (hpending₀ : t₀.pending = t.pending)
    (hcells₀ : t₀.cells = t.cells) (hpending₁ : t₂.pending = t₁.pending)
    (hcells₁ : t₂.cells = t₁.cells) :
    (∀ k id, t₃.pending k id = none) ∧ t₃.cells = (s.drain reason).cells := by
  have hevents : ∀ id, t₂.pending .event id = t.pending .event id := fun id => by
    simp [hpending₁, h₁.pending, hpending₀]
  refine ⟨fun k id => ?_, funext fun c => ?_⟩
  · rw [h₂.pending, hpending₁, h₁.pending, hpending₀]
    cases hp : t.pending k id with
    | none => simp
    | some c =>
      have hmem := (hs.mem_keysOf hp).1
      cases k <;> simp [hmem]
  · have hfold := cells_drained s.pending s.cells (.full (.error (.connectionClosed reason))) c
    by_cases hlater : ∃ id ∈ s.keysOf .event, t₂.pending .event id = some c
    · obtain ⟨id, hid, hp⟩ := hlater
      rw [h₂.hit c id hid hp]
      rw [hevents] at hp
      exact (hfold.1 (hs.mem_keysOf hp).2).symm
    · rw [h₂.miss c fun id hid hp => hlater ⟨id, hid, hp⟩, hcells₁]
      by_cases hearlier : ∃ id ∈ s.keysOf .api, t₀.pending .api id = some c
      · obtain ⟨id, hid, hp⟩ := hearlier
        rw [h₁.hit c id hid hp]
        rw [hpending₀] at hp
        exact (hfold.1 (hs.mem_keysOf hp).2).symm
      · rw [h₁.miss c fun id hid hp => hearlier ⟨id, hid, hp⟩, hcells₀, hs.cells]
        refine (hfold.2 fun e he howner => ?_).symm
        have hp := hs.pending_of_mem htidy he
        rw [howner] at hp
        have hid := (hs.mem_keysOf hp).1
        cases hk : e.kind with
        | api => exact hearlier ⟨e.id, hk ▸ hid, by rw [hpending₀]; exact hk ▸ hp⟩
        | event => exact hlater ⟨e.id, hk ▸ hid, (hevents _).trans (hk ▸ hp)⟩

/-- The connection is lost: the tables are emptied and every waiter is told. -/
theorem Simulates.disconnect (hs : Simulates s t) (htidy : Tidy s) (hon : s.client.isConnected = true)
    (reason : String) {client : Lifecycle.State} (hoff : client.isConnected = false)
    (hattempts : client.attempts = s.client.attempts) :
    ∃ t', Runs t t' ∧ Simulates { s.drain reason with client := client } t' := by
  have hrun₀ := runs_collected hs.threads (hs.isConnected.trans hon) reason (s.keysOf .api)
  generalize ht₀ : Client.State.setThread { t with isConnected := false, writer := false } 0
    (.draining reason .api (s.keysOf .api)) = t₀ at hrun₀
  have hat₀ : AtWork t₀ (.draining reason .api (s.keysOf .api)) := by
    have hidle : AtWork { t with isConnected := false, writer := false } .idle := by
      intro n
      simpa using hs.threads n
    rw [← ht₀]
    exact hidle.setThread _
  obtain ⟨t₁, hrun₁, hat₁, h₁⟩ := drained_keys hat₀
  have hrun₂ := runs_recollected hat₁ (s.keysOf .event)
  obtain ⟨t₃, hrun₃, hat₃, h₃⟩ := drained_keys (hat₁.setThread (.draining reason .event (s.keysOf .event)))
  have hrun₄ := runs_finished hat₃
  subst ht₀
  obtain ⟨hpending, hcells⟩ := hs.drained htidy h₁ h₃ rfl rfl rfl rfl
  refine ⟨_, hrun₀.trans (hrun₁.trans (hrun₂.trans (hrun₃.trans hrun₄))), ?_⟩
  refine ⟨?_, ?_, ?_, ?_, fun k id => hpending k id, fun c => ?_, hcells, fun n => ?_, fun c r hr => ?_⟩
  · exact (h₃.isConnected.trans h₁.isConnected).trans hoff.symm
  · exact (h₃.writer.trans h₁.writer).trans hoff.symm
  · refine ((h₃.generation.trans h₁.generation).trans hs.generation).trans ?_
    exact congrArg Lifecycle.generation hattempts.symm
  · exact (h₃.next.trans h₁.next).trans hs.next
  · change (s.calls c).Shown (t₃.calls c)
    rw [h₃.calls]
    change (s.calls c).Shown (t₁.calls c)
    rw [h₁.calls]
    exact hs.calls c
  · simpa using hat₃.setThread .idle n
  · exact h₃.log _ (h₁.log _ (hs.returned c r hr))

/-- A step that leaves the invocations, their tables and the connection alone. -/
theorem Simulates.congr (hs : Simulates s t) (hcon : s'.client.isConnected = s.client.isConnected)
    (hattempts : s'.client.attempts = s.client.attempts) (hnext : s'.next = s.next)
    (hpending : s'.pending = s.pending) (hcalls : s'.calls = s.calls) (hcells : s'.cells = s.cells) :
    Simulates s' t := by
  have hgen : s'.client.connectionGeneration = s.client.connectionGeneration :=
    congrArg Lifecycle.generation hattempts
  refine ⟨?_, ?_, ?_, ?_, ?_, ?_, ?_, hs.threads, ?_⟩
  · rw [hcon]
    exact hs.isConnected
  · rw [hcon]
    exact hs.writer
  · rw [hgen]
    exact hs.generation
  · rw [hnext]
    exact hs.next
  · rw [State.lookup_congr hpending]
    exact hs.pending
  · rw [hcalls]
    exact hs.calls
  · rw [hcells]
    exact hs.cells
  · rw [hcalls]
    exact hs.returned

/-- What the two machines keep together. -/
structure Together (s : State) (t : Client.State) : Prop where
  core : Lifecycle.Core s.client
  tidy : Tidy s
  simulates : Simulates s t

theorem Together.congr (h : Together s t) (hclient : s'.client = s.client) (hnext : s'.next = s.next)
    (hpending : s'.pending = s.pending) (hcalls : s'.calls = s.calls) (hcells : s'.cells = s.cells) :
    Together s' t := by
  refine ⟨hclient ▸ h.core, h.tidy.congr hpending hcalls hcells, ?_⟩
  exact h.simulates.congr (by rw [hclient]) (by rw [hclient]) hnext hpending hcalls hcells

/-- The lifecycle's part of a step: nothing, an attempt, a publish or a loss. -/
theorem Together.change (h : Together s t) {cfg : Lifecycle.Config} {a : Lifecycle.Action}
    {client : Lifecycle.State} (hclient : Lifecycle.step cfg a s.client = some client) (reason : String) :
    ∃ t', Runs t t' ∧ Together { (if (Lifecycle.notified s.client a).isSome then s.drain reason else s) with
      client := client } t' := by
  have hcore := h.core.step hclient
  have hsim := h.simulates
  cases h.core.change hclient with
  | quiet hquiet hnote =>
    rw [hnote]
    exact ⟨t, .refl t, hcore, h.tidy.congr rfl rfl rfl,
      hsim.congr hquiet.isConnected hquiet.attempts rfl rfl rfl rfl⟩
  | started hoff hoff' hgen hnote =>
    rw [hnote]
    refine ⟨_, runs_step (a := .nextGeneration) rfl, hcore, h.tidy.congr rfl rfl rfl, ?_⟩
    refine ⟨?_, ?_, ?_, hsim.next, hsim.pending, hsim.calls, hsim.cells, hsim.threads, hsim.returned⟩
    · exact (hsim.isConnected.trans hoff).trans hoff'.symm
    · exact (hsim.writer.trans hoff).trans hoff'.symm
    · change t.generation + 1 = Lifecycle.generation client.attempts
      rw [hgen, hsim.generation]
      exact (UInt64.ofNat_add ..).symm
  | published hdial hoff hon hgen hlive hnote =>
    rw [hnote]
    refine ⟨_, (runs_step (a := .storeWriter) rfl).trans (runs_step (a := .storeConnected) rfl), hcore,
      h.tidy.congr rfl rfl rfl, ?_⟩
    refine ⟨hon.symm, hon.symm, ?_, hsim.next, hsim.pending, hsim.calls, hsim.cells, hsim.threads,
      hsim.returned⟩
    exact hsim.generation.trans (congrArg Lifecycle.generation hgen.symm)
  | lost hon hoff hgen hphase hnote =>
    rw [hnote]
    obtain ⟨t', hrun, hsim'⟩ := hsim.disconnect h.tidy hon reason hoff hgen
    exact ⟨t', hrun, hcore, (h.tidy.drain reason).congr rfl rfl rfl, hsim'⟩

theorem Together.lifecycle (h : Together s t) {cfg : Config} {a : Lifecycle.Action} {reason : String}
    (hs : stepLifecycle cfg s a reason = some s') : ∃ t', Runs t t' ∧ Together s' t' := by
  obtain ⟨client, hclient, hs⟩ := Option.bind_eq_some_iff.mp hs
  obtain ⟨s₁, hs₁, hs⟩ := Option.bind_eq_some_iff.mp hs
  cases hs
  have h₁ : Together s₁ t ∧ s₁.client = s.client := by
    rcases beforeLifecycle_cases hs₁ with ⟨closers, rfl⟩ | ⟨g, hsend⟩
    · exact ⟨h.congr rfl rfl rfl rfl rfl, rfl⟩
    · rw [State.send_eq_some hsend]
      exact ⟨h.congr rfl rfl rfl rfl rfl, rfl⟩
  rw [← h₁.2] at hclient ⊢
  obtain ⟨t', hrun, h'⟩ := h₁.1.change hclient reason
  refine ⟨t', hrun, ?_⟩
  rcases afterLifecycle_cases { (if (Lifecycle.notified s₁.client a).isSome then s₁.drain reason else s₁) with
    client := client } a with heq | ⟨g, -, heq⟩
  · rw [heq]
    exact h'
  · rw [heq]
    exact h'.congr rfl rfl rfl rfl rfl

/-! ### Calls and answers -/

theorem Simulates.setCall (hs : Simulates s t) {c : CallId} {pc : Pc} {pc' : Client.Pc}
    (hpc : pc.Shown pc') (hreturned : ∀ r, pc = .returned r → .returned c r ∈ t.log) :
    Simulates (s.setCall c pc) (t.setCall c pc') := by
  refine ⟨hs.isConnected, hs.writer, hs.generation, hs.next, hs.pending, fun d => ?_, hs.cells,
    hs.threads, fun d r hr => ?_⟩
  all_goals
    by_cases hd : d = c
    · subst hd
      simp_all [State.setCall, Client.State.setCall]
    · have := hs.calls d
      have := hs.returned d
      simp_all [State.setCall, Client.State.setCall]

theorem Simulates.record (hs : Simulates s t) (e : Client.Event) : Simulates s (t.record e) :=
  ⟨hs.isConnected, hs.writer, hs.generation, hs.next, hs.pending, hs.calls, hs.cells, hs.threads,
    fun c r hr => List.mem_append_left _ (hs.returned c r hr)⟩

theorem Simulates.finish (hs : Simulates s t) (c : CallId) (r : Outcome) :
    Simulates (s.setCall c (.returned r)) (t.finish c r) := by
  have hrec := hs.record (.returned c r)
  exact hrec.setCall rfl fun r' hr => by cases hr; exact List.mem_append_right _ (List.mem_singleton.mpr rfl)

theorem Simulates.cells_remove (hs : Simulates s t) (k : Kind) (id : UInt64) (cell : Cell) :
    (t.pending k id = none → (s.remove k id cell).cells = t.cells) ∧
      ∀ c, t.pending k id = some c → (s.remove k id cell).cells = Function.update t.cells c cell := by
  rw [hs.pending, hs.cells]
  cases hl : s.lookup k id with
  | none => simp [State.remove, hl]
  | some e => simp [State.remove, hl]

theorem Simulates.pending_remove (hs : Simulates s t) (k : Kind) (id : UInt64) (cell : Cell) (k' : Kind)
    (id' : UInt64) :
    (t.setPending k id none).pending k' id' = ((s.remove k id cell).lookup k' id').map Entry.owner := by
  rw [pending_setPending, State.lookup_remove, hs.pending]
  split <;> rfl

/-- Only the tables and the channels of the invocations change. -/
theorem Simulates.tables (hs : Simulates s t) (hclient : s'.client = s.client) (hnext : s'.next = s.next)
    (hcalls : s'.calls = s.calls) {pending : Kind → UInt64 → Option CallId}
    (hpending : ∀ k id, pending k id = (s'.lookup k id).map Entry.owner) {log : List Client.Event}
    (hlog : ∀ e ∈ t.log, e ∈ log) :
    Simulates s' { t with pending := pending, cells := s'.cells, log := log } := by
  refine ⟨?_, ?_, ?_, ?_, hpending, ?_, rfl, hs.threads, fun c r hr => hlog _ (hs.returned c r ?_)⟩
  · rw [hclient]
    exact hs.isConnected
  · rw [hclient]
    exact hs.writer
  · rw [hclient]
    exact hs.generation
  · rw [hnext]
    exact hs.next
  · rw [hcalls]
    exact hs.calls
  · rw [← hcalls]
    exact hr

/-- A sender that is dropped. -/
theorem Simulates.drop (hs : Simulates s t) (k : Kind) (id : UInt64) :
    Simulates (s.remove k id .closed) ((t.dropSender (t.pending k id)).setPending k id none) := by
  have htables := hs.tables (State.remove_client k id .closed) (State.remove_next k id .closed)
    (State.remove_calls k id .closed) (hs.pending_remove k id .closed) (fun _ he => he)
  obtain ⟨hnone, hsome⟩ := hs.cells_remove k id .closed
  cases hp : t.pending k id with
  | none =>
    rw [hnone hp] at htables
    exact htables
  | some c =>
    rw [hsome c hp] at htables
    exact htables

/-- A sender that is used. -/
theorem Simulates.reply (hs : Simulates s t) {k : Kind} {id : UInt64} {c : CallId}
    (hp : t.pending k id = some c) (r : Outcome) :
    Simulates (s.remove k id (.full r)) ((t.setPending k id none).resolve c r) := by
  have hlog : ∀ e ∈ t.log, e ∈ t.log ++ [.resolved c r] := fun _ he => List.mem_append_left _ he
  have htables := hs.tables (State.remove_client k id (.full r)) (State.remove_next k id (.full r))
    (State.remove_calls k id (.full r)) (hs.pending_remove k id (.full r)) hlog
  rw [(hs.cells_remove k id (.full r)).2 c hp] at htables
  exact htables

theorem Simulates.threads_eq (hs : Simulates s t) : t.threads = fun _ => .idle := funext hs.threads

/-- `handle_packet` for a response or an acknowledgement. -/
theorem Simulates.answered (hs : Simulates s t) {body : PacketBody} {k : Kind} {id : UInt64} {r : Outcome}
    (hbody : answer body = some (k, id, r)) :
    ∃ t', Runs t t' ∧ Simulates (s.remove k id (.full r)) t' := by
  cases hp : t.pending k id with
  | none =>
    have hlookup : s.lookup k id = none := by simpa [hs.pending] using hp
    refine ⟨t.record (.received body), runs_step (a := .thread 0 (.handlePacket body)) ?_, ?_⟩
    · simp [Client.step, stepThread, hs.threads, hbody, Client.State.record, hp]
    · rw [show s.remove k id (.full r) = s by simp [State.remove, hlookup]]
      exact hs.record _
  | some c =>
    let taken := ((t.record (.received body)).setPending k id none).setThread 0 (.replying c r)
    have htake : Client.step (.thread 0 (.handlePacket body)) t = some taken := by
      simp [Client.step, stepThread, hs.threads, hbody, Client.State.record, hp, taken]
    have hreply : Client.step (.thread 0 .reply) taken =
        some (((t.record (.received body)).setPending k id none).resolve c r) := by
      simp [Client.step, stepThread, Client.State.setThread, Client.State.resolve, Client.State.setCell,
        Client.State.record, Client.State.setPending, taken, hs.threads_eq]
    exact ⟨_, (runs_step htake).trans (runs_step hreply), (hs.record _).reply hp r⟩

/-- An invocation with its id. -/
def allotted (t : Client.State) (c : CallId) (id : UInt64) : Client.State :=
  ({ t with next := Function.update t.next c.kind id }.setCall c (.allocated id)).record (.allocated c id)

/-- Its sender is in the table. -/
def listed (t : Client.State) (c : CallId) (id : UInt64) (cells : CallId → Cell) : Client.State :=
  { allotted t c id with cells := cells }.setPending c.kind id (some c)

theorem Simulates.runs_listed (hs : Simulates s t) {c : CallId} (hcon : s.client.isConnected = true)
    (hidle : s.calls c = .idle) {id : UInt64} (hid : s.next c.kind + 1 = id) :
    Runs t ((listed t c id (s.remove c.kind id .closed).cells).setCall c (.sending id)) := by
  have hpc : t.calls c = .idle := by
    have hshown := hs.calls c
    rwa [hidle] at hshown
  have hchecked : Client.step (.call c .start) t = some (t.setCall c .checked) := by
    simp [Client.step, Client.stepCall, hpc, hs.isConnected, hcon]
  have hallotted : Client.step (.call c .allocate) (t.setCall c .checked) = some (allotted t c id) := by
    simp [Client.step, Client.stepCall, Client.State.setCall, Client.State.record, hs.next, hid, allotted]
  have hdrop : (allotted t c id).dropSender ((allotted t c id).pending c.kind id) =
      { allotted t c id with cells := (s.remove c.kind id .closed).cells } := by
    rw [← (hs.drop c.kind id).cells]
    change (allotted t c id).dropSender (t.pending c.kind id) = _
    cases t.pending c.kind id <;> rfl
  have hlisted : Client.step (.call c .insert) (allotted t c id) =
      some ((listed t c id (s.remove c.kind id .closed).cells).setCall c (.inserted id)) := by
    have hcall : (allotted t c id).calls c = .allocated id := Function.update_self ..
    simp only [Client.step, Client.stepCall, hcall, hdrop, listed]
  have hloaded : Client.step (.call c .loadWriter)
      ((listed t c id (s.remove c.kind id .closed).cells).setCall c (.inserted id)) =
      some ((listed t c id (s.remove c.kind id .closed).cells).setCall c (.sending id)) := by
    have hw : (listed t c id (s.remove c.kind id .closed).cells).writer = true := hs.writer.trans hcon
    simp [Client.step, Client.stepCall, Client.State.setCall, hw]
  exact (runs_step hchecked).trans ((runs_step hallotted).trans
    ((runs_step hlisted).trans (runs_step hloaded)))

theorem Tidy.start (h : Tidy s) {c : CallId} {g : ℕ} {packet : PacketEnvelope} :
    Tidy (((s.draw c.kind).enter c (s.next c.kind + 1)).setCall c
      (.sending (s.next c.kind + 1) g packet)) := by
  have hdrawn : Tidy (s.draw c.kind) := (h.remove c.kind (s.next c.kind + 1) .closed).congr rfl rfl rfl
  refine hdrawn.enter ?_ (by simp)
  change (s.remove c.kind (s.next c.kind + 1) .closed).lookup c.kind (s.next c.kind + 1) = none
  rw [State.lookup_remove, if_pos ⟨rfl, rfl⟩]

theorem Simulates.pending_listed (hs : Simulates s t) (c : CallId) (id : UInt64) (k : Kind) (id' : UInt64) :
    (t.setPending c.kind id (some c)).pending k id' =
      (((s.remove c.kind id .closed).enter c id).lookup k id').map Entry.owner := by
  rw [pending_setPending, State.lookup_enter, State.lookup_remove]
  by_cases hkey : k = c.kind ∧ id' = id
  · simp [hkey.1, hkey.2]
  · have hkey' : ¬ (c.kind = k ∧ id = id') := fun he => hkey ⟨he.1.symm, he.2.symm⟩
    simp only [hkey, hkey', if_false, hs.pending]

theorem Simulates.started (hs : Simulates s t) (htidy : Tidy s) {c : CallId} {g : ℕ}
    {packet : PacketEnvelope} (hidle : s.calls c = .idle) {id : UInt64} (hid : s.next c.kind + 1 = id) :
    Simulates (((s.draw c.kind).enter c id).setCall c (.sending id g packet))
      ((listed t c id (s.remove c.kind id .closed).cells).setCall c (.sending id)) := by
  subst hid
  refine ⟨?_, ?_, ?_, ?_, hs.pending_listed c _, fun d => ?_, ?_, hs.threads, fun d r hr => ?_⟩
  · exact hs.isConnected.trans (congrArg Lifecycle.State.isConnected (State.remove_client ..).symm)
  · exact hs.writer.trans (congrArg Lifecycle.State.isConnected (State.remove_client ..).symm)
  · exact hs.generation.trans (congrArg Lifecycle.State.connectionGeneration (State.remove_client ..).symm)
  · exact congrArg (Function.update · c.kind _) hs.next
  · by_cases hd : d = c
    · subst hd
      simp [State.setCall, Client.State.setCall, Pc.Shown]
    · have hcall := hs.calls d
      simpa [State.setCall, State.enter, State.draw, Client.State.setCall, Function.update_of_ne hd, listed,
        Client.State.setPending, allotted, Client.State.record] using hcall
  · -- the channel of an invocation that starts is new
    refine (Function.update_eq_self_iff.mpr ?_).symm
    exact ((htidy.remove c.kind _ .closed).fresh c (by rw [State.remove_calls, hidle])).symm
  · by_cases hd : d = c
    · subst hd
      simp [State.setCall] at hr
    · refine List.mem_append_left _ (hs.returned d r ?_)
      simpa [State.setCall, State.enter, State.draw, Function.update_of_ne hd] using hr

/-- `call` and `send_event` up to the send. -/
theorem Together.started (h : Together s t) {c : CallId} {g : ℕ} {packet : PacketEnvelope}
    (hcon : s.client.isConnected = true) (hidle : s.calls c = .idle) :
    ∃ t', Runs t t' ∧ Together (((s.draw c.kind).enter c (s.next c.kind + 1)).setCall c
      (.sending (s.next c.kind + 1) g packet)) t' := by
  refine ⟨_, h.simulates.runs_listed hcon hidle rfl, ?_, h.tidy.start,
    h.simulates.started h.tidy hidle rfl⟩
  change Lifecycle.Core (s.remove c.kind _ .closed).client
  rw [State.remove_client]
  exact h.core

theorem Together.setCall (h : Together s t) {c : CallId} {pc : Pc} {pc' : Client.Pc} (hidle : pc ≠ .idle)
    (hpc : pc.Shown pc') (hreturned : ∀ r, pc ≠ .returned r) :
    Together (s.setCall c pc) (t.setCall c pc') :=
  ⟨h.core, h.tidy.setCall hidle, h.simulates.setCall hpc fun r hr => absurd hr (hreturned r)⟩

theorem Together.finish (h : Together s t) (c : CallId) (r : Outcome) :
    Together (s.setCall c (.returned r)) (t.finish c r) :=
  ⟨h.core, h.tidy.setCall (by simp), h.simulates.finish c r⟩

theorem Together.drop (h : Together s t) (k : Kind) (id : UInt64) :
    Together (s.remove k id .closed) ((t.dropSender (t.pending k id)).setPending k id none) :=
  ⟨by rw [State.remove_client]; exact h.core, h.tidy.remove k id .closed, h.simulates.drop k id⟩

/-- An invocation takes its own entry back and returns an error. -/
theorem Together.withdrawn (h : Together s t) {c : CallId} {id : UInt64} {pc : Client.Pc} {a b : Client.CallOp}
    {e : ClientError} (hleft : Client.step (.call c a) t = some (t.setCall c pc))
    (hback : ∀ u : Client.State, u.calls c = pc → Client.step (.call c b) u =
      some (((u.dropSender (u.pending c.kind id)).setPending c.kind id none).finish c (.error e))) :
    ∃ t', Runs t t' ∧ Together ((s.remove c.kind id .closed).setCall c (.returned (.error e))) t' := by
  refine ⟨_, (runs_step hleft).trans (runs_step (hback _ (Function.update_self ..))), ?_⟩
  have hsame : (((t.setCall c pc).dropSender (t.pending c.kind id)).setPending c.kind id none).finish c
      (.error e) = ((t.dropSender (t.pending c.kind id)).setPending c.kind id none).finish c (.error e) := by
    cases t.pending c.kind id <;>
      simp [Client.State.setCall, Client.State.dropSender, Client.State.setCell, Client.State.setPending,
        Client.State.finish, Client.State.record]
  change Together _ ((((t.setCall c pc).dropSender (t.pending c.kind id)).setPending c.kind id none).finish c
    (.error e))
  rw [hsame]
  exact (h.drop c.kind id).finish c (.error e)

/-- `call` and `send_event`. -/
theorem Together.call (h : Together s t) {cfg : Config} {c : CallId} {op : CallOp}
    (hs : stepCall cfg s c op (s.calls c) = some s') : ∃ t', Runs t t' ∧ Together s' t' := by
  have hshown := h.simulates.calls c
  have hcells := h.simulates.cells
  have hstart := @turn_of_start cfg s s' c
  generalize hpc : s.calls c = pc at hs hshown hstart
  unfold stepCall at hs
  split at hs
  · cases hstart hs with
    | apart ha _ => exact ha.elim
    | refused hcon =>
      refine ⟨_, runs_step (a := .call c .start) ?_, h.finish c _⟩
      have hoff : t.isConnected = false := h.simulates.isConnected.trans hcon
      have hidle : t.calls c = .idle := hshown
      simp [Client.step, Client.stepCall, hidle, hoff]
    | unsent hcon hw =>
      -- a connection that is up has a writer
      have hwriter := h.core.writer
      simp [hw, hcon] at hwriter
    | started hcon hw hidle hkind => exact h.started hcon hidle
  · rename_i id g packet
    obtain ⟨s₁, hsend, rfl⟩ := Option.map_eq_some_iff.mp hs
    rw [State.send_eq_some hsend]
    have hcall : t.calls c = .sending id := hshown
    have hqueued : Together (s.setQueue g (s.queue g ++ [.request c packet])) t := h.congr rfl rfl rfl rfl rfl
    have hsent : Client.step (.call c .sent) t = some (t.setCall c (.waiting id)) := by
      simp [Client.step, Client.stepCall, hcall]
    have hshown' : (Pc.waiting id).Shown (.waiting id) := rfl
    exact ⟨_, runs_step hsent, hqueued.setCall (by simp) hshown' (by simp)⟩
  · rename_i id g packet
    split at hs <;> cases hs
    have hcall : t.calls c = .sending id := hshown
    have hfailed : Client.step (.call c .sendFailed) t = some (t.setCall c (.failed id)) := by
      simp [Client.step, Client.stepCall, hcall]
    refine h.withdrawn (b := .removeFailed) hfailed fun u hu => ?_
    simp [Client.step, Client.stepCall, hu]
  · rename_i id
    have hcall : t.calls c = .waiting id := hshown
    split at hs <;> cases hs
    · rename_i r hcell
      refine ⟨_, runs_step (a := .call c .receive) ?_, h.finish c r⟩
      simp [Client.step, Client.stepCall, hcall, hcells, hcell]
    · rename_i hcell
      refine ⟨_, runs_step (a := .call c .receive) ?_, h.finish c _⟩
      simp [Client.step, Client.stepCall, hcall, hcells, hcell]
  · rename_i id
    have hcall : t.calls c = .waiting id := hshown
    split at hs <;> cases hs
    rename_i hcell
    have helapsed : Client.step (.call c .elapse) t = some (t.setCall c (.elapsed id)) := by
      simp [Client.step, Client.stepCall, hcall, hcells, hcell]
    refine h.withdrawn (b := .removeElapsed) helapsed fun u hu => ?_
    simp [Client.step, Client.stepCall, hu]
  · rename_i id g packet
    cases hs
    have hcall : t.calls c = .sending id := hshown
    have hcancelled : Client.step (.call c .cancel) t = some (t.setCall c (.cancelled id)) := by
      simp [Client.step, Client.stepCall, hcall]
    exact ⟨_, runs_step hcancelled, h.setCall (by simp) ⟨id, rfl⟩ (by simp)⟩
  · rename_i id
    cases hs
    have hcall : t.calls c = .waiting id := hshown
    have hcancelled : Client.step (.call c .cancel) t = some (t.setCall c (.cancelled id)) := by
      simp [Client.step, Client.stepCall, hcall]
    exact ⟨_, runs_step hcancelled, h.setCall (by simp) ⟨id, rfl⟩ (by simp)⟩
  · cases hs

theorem Together.unread (h : Together s t) (body : PacketBody) (hbody : answer body = none) :
    Runs t (t.record (.received body)) ∧ Together s (t.record (.received body)) := by
  refine ⟨runs_step (a := .thread 0 (.handlePacket body)) ?_, h.core, h.tidy, h.simulates.record _⟩
  simp [Client.step, stepThread, h.simulates.threads, hbody]

theorem Together.reader (h : Together s t) {g : ℕ} {op : ReaderOp} (hs : stepReader s g op = some s') :
    ∃ t', Runs t t' ∧ Together s' t' := by
  unfold stepReader at hs
  split at hs
  · rename_i body task
    split at hs
    · rename_i k id r hbody
      cases hs
      obtain ⟨t', hrun, hsim⟩ := h.simulates.answered hbody
      refine ⟨t', hrun, ?_, h.tidy.remove k id (.full r), hsim⟩
      rw [State.remove_client]
      exact h.core
    · rename_i hbody
      obtain ⟨hrun, h'⟩ := h.unread body hbody
      split at hs <;> cases hs
      · exact ⟨_, hrun, h'.congr rfl rfl rfl rfl rfl⟩
      · exact ⟨_, hrun, h'⟩
  · rw [State.send_eq_some hs]
    exact ⟨t, .refl t, h.congr rfl rfl rfl rfl rfl⟩

theorem Together.writer (h : Together s t) {cfg : Config} {g : ℕ} {op : WriterOp}
    (hs : Writes cfg s g op s') : Together s' t := by
  cases hs with
  | written | refused | control | flushed => exact h.congr rfl rfl rfl rfl rfl

theorem Together.event (h : Together s t) {cfg : Config} {n : ℕ} {op : EventOp} {pc : EventPc}
    (hs : stepEvent cfg s n op pc = some s') : Together s' t := by
  unfold stepEvent at hs
  split at hs
  · split at hs <;> cases hs <;> exact h.congr rfl rfl rfl rfl rfl
  · obtain ⟨s₁, hsend, rfl⟩ := Option.map_eq_some_iff.mp hs
    rw [State.send_eq_some hsend]
    exact h.congr rfl rfl rfl rfl rfl
  · split at hs <;> cases hs
    exact h.congr rfl rfl rfl rfl rfl
  · cases hs

theorem Together.step (h : Together s t) {cfg : Config} {a : Action} (hs : Traffic.step cfg a s = some s') :
    ∃ t', Runs t t' ∧ Together s' t' := by
  cases a with
  | lifecycle a reason => exact h.lifecycle hs
  | call c op => exact h.call hs
  | writer g op =>
    rw [Traffic.step] at hs
    split_ifs at hs
    exact ⟨t, .refl t, h.writer (stepWriter_writes hs)⟩
  | heartbeat g =>
    rw [Traffic.step] at hs
    split_ifs at hs
    rw [State.send_eq_some hs]
    exact ⟨t, .refl t, h.congr rfl rfl rfl rfl rfl⟩
  | reader g op =>
    rw [Traffic.step] at hs
    split_ifs at hs
    exact h.reader hs
  | event n op => exact ⟨t, .refl t, h.event hs⟩
  | connectedPanics =>
    rw [Traffic.step] at hs
    split at hs
    · split at hs <;> cases hs
      exact ⟨t, .refl t, h.congr rfl rfl rfl rfl rfl⟩
    · cases hs
  | disconnectedPanics g k =>
    rw [Traffic.step] at hs
    split_ifs at hs with hpc
    cases hs
    have hcore : Lifecycle.Core (s.client.setTask g k .done) :=
      h.core.setTask (by simp [hpc]) (h.core.notifying_off hpc)
    have hnotified : Together { s with client := s.client.setTask g k .done } t :=
      ⟨hcore, h.tidy.congr rfl rfl rfl, h.simulates.congr rfl rfl rfl rfl rfl rfl⟩
    refine ⟨t, .refl t, ?_⟩
    rcases afterLifecycle_cases { s with client := s.client.setTask g k .done } (.task g k .signal) with
      heq | ⟨g', -, heq⟩
    · rw [heq]
      exact hnotified
    · rw [heq]
      exact hnotified.congr rfl rfl rfl rfl rfl

end Simulation

/-- Every run of the client with its channels is a run of the tables alone, with the same
connection, ids, entries and results. -/
theorem run_together {cfg : Config} {acts : List Action} {s : State}
    (h : Machine.run (step cfg) acts State.init = some s) :
    ∃ t, Runs Client.State.init t ∧ Simulates s t := by
  obtain ⟨t, hrun, ht⟩ := Machine.run_simulated (fun _ _ _ _ h hs => Together.step h hs) h
    ⟨Lifecycle.core_init, tidy_init, simulates_init⟩
  exact ⟨t, hrun, ht.simulates⟩

end Wscall.Client.Traffic
