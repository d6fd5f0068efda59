import Mathlib.Logic.Function.Basic

/-!
# Machines that take labelled steps

Concurrent tasks are one machine: an action names the task that moves and what the
outside world answered it, and `step` is `none` where that task cannot make that move.
A run is a list of actions, so "in every interleaving" is "for every list".
-/

namespace Machine

variable {σ α : Type}

/-- The state after a list of actions, if each was possible when its turn came. -/
def run (step : α → σ → Option σ) : List α → σ → Option σ
  | [], s => some s
  | a :: as, s => (step a s).bind (run step as)

section Rules

variable {step : α → σ → Option σ}

theorem run_cons_eq_some {a : α} {as : List α} {s t : σ} (h : run step (a :: as) s = some t) :
    ∃ s', step a s = some s' ∧ run step as s' = some t := by
  cases hs : step a s with
  | none => simp [run, hs] at h
  | some s' => exact ⟨s', rfl, by simpa [run, hs] using h⟩

theorem run_invariant {I : σ → Prop} (hstep : ∀ a s s', I s → step a s = some s' → I s')
    {as : List α} {s t : σ} (h : run step as s = some t) (hs : I s) : I t := by
  induction as generalizing s with
  | nil =>
    cases h
    exact hs
  | cons a as ih =>
    obtain ⟨s', h1, h2⟩ := run_cons_eq_some h
    exact ih h2 (hstep a s s' hs h1)

/-- Every step of the run meets `P` where it is taken. -/
def Along (step : α → σ → Option σ) (P : σ → α → Prop) : List α → σ → Prop
  | [], _ => True
  | a :: as, s =>
    match step a s with
    | some s' => P s a ∧ Along step P as s'
    | none => True

/-- `I` holds in every state of the run, the first one included. -/
def Always (step : α → σ → Option σ) (I : σ → Prop) : List α → σ → Prop
  | [], s => I s
  | a :: as, s =>
    I s ∧
      match step a s with
      | some s' => Always step I as s'
      | none => True

theorem Along.cons {P : σ → α → Prop} {a : α} {as : List α} {s s' : σ}
    (h : Along step P (a :: as) s) (hs : step a s = some s') : P s a ∧ Along step P as s' := by
  simpa only [Along, hs] using h

theorem along_singleton {P : σ → α → Prop} {a : α} {s : σ} (h : P s a) : Along step P [a] s := by
  simp only [Along]
  cases step a s with
  | none => trivial
  | some s' => exact ⟨h, trivial⟩

theorem along_of_forall {P : σ → α → Prop} {as : List α} (h : ∀ a ∈ as, ∀ s, P s a) (s : σ) :
    Along step P as s := by
  induction as generalizing s with
  | nil => trivial
  | cons a as ih =>
    simp only [Along]
    cases step a s with
    | none => trivial
    | some s' => exact ⟨h a (List.mem_cons_self ..) s, ih (fun b hb => h b (List.mem_cons_of_mem _ hb)) s'⟩

theorem Along.append {P : σ → α → Prop} {as bs : List α} {s : σ} (h : Along step P as s)
    (hbs : ∀ s', run step as s = some s' → Along step P bs s') : Along step P (as ++ bs) s := by
  induction as generalizing s with
  | nil => exact hbs s rfl
  | cons a as ih =>
    simp only [List.cons_append, Along] at h ⊢
    cases hs : step a s with
    | none => trivial
    | some s' =>
      rw [hs] at h
      exact ⟨h.1, ih h.2 (fun t ht => hbs t (by simpa [run, hs] using ht))⟩

theorem run_invariant_along {I : σ → Prop} {P : σ → α → Prop}
    (hstep : ∀ a s s', P s a → I s → step a s = some s' → I s')
    {as : List α} {s t : σ} (hall : Along step P as s) (h : run step as s = some t) (hs : I s) :
    I t := by
  induction as generalizing s with
  | nil =>
    cases h
    exact hs
  | cons a as ih =>
    obtain ⟨s', h1, h2⟩ := run_cons_eq_some h
    obtain ⟨hp, htail⟩ := hall.cons h1
    exact ih htail h2 (hstep a s s' hp hs h1)

theorem Along.imp {I : σ → Prop} {P Q : σ → α → Prop}
    (hstep : ∀ a s s', P s a → I s → step a s = some s' → Q s a ∧ I s')
    {as : List α} {s : σ} (h : Along step P as s) (hs : I s) : Along step Q as s := by
  induction as generalizing s with
  | nil => trivial
  | cons a as ih =>
    simp only [Along] at h ⊢
    cases hstep' : step a s with
    | none => trivial
    | some s' =>
      rw [hstep'] at h
      obtain ⟨hq, hs'⟩ := hstep a s s' h.1 hs hstep'
      exact ⟨hq, ih h.2 hs'⟩

theorem Along.and {P Q : σ → α → Prop} {as : List α} {s : σ} (hP : Along step P as s)
    (hQ : Along step Q as s) : Along step (fun s a => P s a ∧ Q s a) as s := by
  induction as generalizing s with
  | nil => trivial
  | cons a as ih =>
    simp only [Along] at hP hQ ⊢
    cases hs : step a s with
    | none => trivial
    | some s' =>
      rw [hs] at hP hQ
      exact ⟨⟨hP.1, hQ.1⟩, ih hP.2 hQ.2⟩

/-- A run is good to its end, or some step failed `P` and the damage has stayed. -/
theorem run_good_or_spoiled {G B : σ → Prop} {P : σ → α → Prop}
    (hgood : ∀ a s s', G s → step a s = some s' → P s a → G s')
    (hspoil : ∀ a s s', G s → step a s = some s' → ¬ P s a → B s')
    (hbad : ∀ a s s', B s → step a s = some s' → B s')
    {as : List α} {s t : σ} (h : run step as s = some t) (hs : G s) :
    (Along step P as s ∧ G t) ∨ (¬ Along step P as s ∧ B t) := by
  induction as generalizing s with
  | nil =>
    cases h
    exact .inl ⟨trivial, hs⟩
  | cons a as ih =>
    obtain ⟨s', h1, h2⟩ := run_cons_eq_some h
    simp only [Along, h1]
    by_cases hp : P s a
    · simpa only [hp, true_and] using ih h2 (hgood a s s' hs h1 hp)
    · exact .inr ⟨fun hall => hp hall.1, run_invariant hbad h2 (hspoil a s s' hs h1 hp)⟩

theorem run_append (as bs : List α) (s : σ) :
    run step (as ++ bs) s = (run step as s).bind (run step bs) := by
  induction as generalizing s with
  | nil => rfl
  | cons a as ih =>
    rw [List.cons_append, run, run]
    cases step a s with
    | none => rfl
    | some s' => exact ih s'

section Parts

variable {β τ : Type} {part : β → τ → Option τ} {moves : α → σ → List β}

/-- The moves that one part of a machine makes along a run of the whole. -/
def movesAlong (step : α → σ → Option σ) (moves : α → σ → List β) : List α → σ → List β
  | [], _ => []
  | a :: as, s =>
    match step a s with
    | some s' => moves a s ++ movesAlong step moves as s'
    | none => []

/-- A run of the whole is a run of the part. -/
theorem run_movesAlong (view : σ → τ)
    (h : ∀ a s s', step a s = some s' → run part (moves a s) (view s) = some (view s'))
    {as : List α} {s t : σ} (hrun : run step as s = some t) :
    run part (movesAlong step moves as s) (view s) = some (view t) := by
  induction as generalizing s with
  | nil =>
    cases hrun
    rfl
  | cons a as ih =>
    obtain ⟨s', h1, h2⟩ := run_cons_eq_some hrun
    rw [movesAlong, h1, run_append, h a s s' h1]
    exact ih h2

end Parts

/-- Some steps that meet `P` lead from the one state to the other. -/
def Reaches (step : α → σ → Option σ) (P : σ → α → Prop) (s t : σ) : Prop :=
  ∃ as, Along step P as s ∧ run step as s = some t

theorem Reaches.refl {P : σ → α → Prop} (s : σ) : Reaches step P s s := ⟨[], trivial, rfl⟩

theorem Reaches.head {P : σ → α → Prop} {a : α} {s s' t : σ} (hs : step a s = some s') (hp : P s a)
    (h : Reaches step P s' t) : Reaches step P s t := by
  obtain ⟨as, hall, hrun⟩ := h
  exact ⟨a :: as, by simpa only [Along, hs] using ⟨hp, hall⟩, by simpa [run, hs] using hrun⟩

theorem Reaches.trans {P : σ → α → Prop} {s t u : σ} (h : Reaches step P s t)
    (h' : Reaches step P t u) : Reaches step P s u := by
  obtain ⟨as, hall, hrun⟩ := h
  induction as generalizing s with
  | nil =>
    cases hrun
    exact h'
  | cons a as ih =>
    obtain ⟨s', h1, h2⟩ := run_cons_eq_some hrun
    obtain ⟨hp, htail⟩ := hall.cons h1
    exact .head h1 hp (ih htail h2)

theorem Reaches.invariant {P : σ → α → Prop} {I : σ → Prop}
    (hstep : ∀ a s s', I s → step a s = some s' → I s') {s t : σ} (h : Reaches step P s t)
    (hs : I s) : I t := by
  obtain ⟨as, -, hrun⟩ := h
  exact run_invariant hstep hrun hs

section History

variable {γ : Type} {note : α → σ → σ → γ → γ}

/-- The machine with a history variable, which its steps do not look at. -/
def noting (step : α → σ → Option σ) (note : α → σ → σ → γ → γ) (a : α) (x : σ × γ) : Option (σ × γ) :=
  (step a x.1).map fun s => (s, note a x.1 s x.2)

theorem noting_of_step {a : α} {s s' : σ} (h : step a s = some s') (g : γ) :
    noting step note a (s, g) = some (s', note a s s' g) := by
  rw [noting, h]
  rfl

theorem noting_eq_some {a : α} {x y : σ × γ} (h : noting step note a x = some y) :
    step a x.1 = some y.1 ∧ y.2 = note a x.1 y.1 x.2 := by
  obtain ⟨s, hs, rfl⟩ := Option.map_eq_some_iff.mp h
  exact ⟨hs, rfl⟩

/-- What the machine can do, it can do with the variable. -/
theorem Reaches.noting {P : σ → α → Prop} {s t : σ} (h : Reaches step P s t) (g : γ) :
    ∃ g', Reaches (noting step note) (fun x => P x.1) (s, g) (t, g') := by
  obtain ⟨as, hall, hrun⟩ := h
  induction as generalizing s g with
  | nil =>
    cases hrun
    exact ⟨g, .refl _⟩
  | cons a as ih =>
    obtain ⟨s', h1, h2⟩ := run_cons_eq_some hrun
    obtain ⟨hp, htail⟩ := hall.cons h1
    obtain ⟨g', hreach⟩ := ih (note a s s' g) htail h2
    exact ⟨g', .head (noting_of_step h1 g) hp hreach⟩

end History

/-- If every step of one machine is a run of another, up to `R`, then so is every run. -/
theorem run_simulated {β τ : Type} {step' : β → τ → Option τ} {R : σ → τ → Prop} {P : τ → β → Prop}
    (hstep : ∀ a s s' t, R s t → step a s = some s' → ∃ t', Reaches step' P t t' ∧ R s' t')
    {as : List α} {s s' : σ} {t : τ} (h : run step as s = some s') (hR : R s t) :
    ∃ t', Reaches step' P t t' ∧ R s' t' := by
  induction as generalizing s t with
  | nil =>
    cases h
    exact ⟨t, .refl t, hR⟩
  | cons a as ih =>
    obtain ⟨s₁, h1, h2⟩ := run_cons_eq_some h
    obtain ⟨t₁, hrun, hR₁⟩ := hstep a s s₁ t hR h1
    obtain ⟨t', hrun', hR'⟩ := ih h2 hR₁
    exact ⟨t', hrun.trans hrun', hR'⟩

theorem Always.head {I : σ → Prop} {as : List α} {s : σ} (h : Always step I as s) : I s := by
  cases as with
  | nil => exact h
  | cons a as => exact h.1

/-- The exact condition for a safety property: steps that meet `P` keep an invariant that
gives `I`, and a step that does not meet `P` breaks `I` at once. -/
theorem always_iff_along {I J : σ → Prop} {P : σ → α → Prop} (hJ : ∀ s, J s → I s)
    (hstep : ∀ a s s', P s a → J s → step a s = some s' → J s')
    (hbad : ∀ a s s', J s → step a s = some s' → I s' → P s a) {as : List α} {s : σ} (hs : J s) :
    Always step I as s ↔ Along step P as s := by
  induction as generalizing s with
  | nil => exact ⟨fun _ => trivial, fun _ => hJ s hs⟩
  | cons a as ih =>
    simp only [Always, Along]
    cases h : step a s with
    | none => exact ⟨fun _ => trivial, fun _ => ⟨hJ s hs, trivial⟩⟩
    | some s' =>
      constructor
      · rintro ⟨-, htail⟩
        have hp := hbad a s s' hs h htail.head
        exact ⟨hp, (ih (hstep a s s' hp hs h)).mp htail⟩
      · rintro ⟨hp, htail⟩
        exact ⟨hJ s hs, (ih (hstep a s s' hp hs h)).mpr htail⟩

end Rules

/-! ### Machines that answer -/

section Answers

variable {β : Type}

/-- The actions of a run with what each was answered. -/
def answers (step : α → σ → β × σ) : List α → σ → List (α × β)
  | [], _ => []
  | a :: as, s => (a, (step a s).1) :: answers step as (step a s).2

theorem mem_answers {step : α → σ → β × σ} {as : List α} {s : σ} {p : α × β}
    (h : p ∈ answers step as s) : p.1 ∈ as := by
  induction as generalizing s with
  | nil => cases h
  | cons a as ih =>
    rcases List.mem_cons.mp h with rfl | h
    · exact List.mem_cons_self ..
    · exact List.mem_cons_of_mem _ (ih h)

/-- Unwinding, for actions whose times do not go back: actions that are not kept do not show in
`R` at their time, kept ones keep `R`, and what is seen is answered alike. Then deleting the
former changes no answer that is seen. -/
theorem answers_purge_timed {τ : Type} [LE τ] {time : α → τ} {step : α → σ → β × σ}
    {R : τ → σ → σ → Prop} {keep seen : α → Bool} {P : α → Prop}
    (hseen : ∀ a, seen a = true → keep a = true)
    (hkeep : ∀ now a s t, now ≤ time a → P a → keep a = true → R now s t →
      (step a s).1 = (step a t).1 ∧ R (time a) (step a s).2 (step a t).2)
    (hskip : ∀ now a s t, now ≤ time a → P a → keep a = false → R now s t →
      R (time a) (step a s).2 t)
    {as : List α} (hP : ∀ a ∈ as, P a) (hsorted : as.Pairwise fun a b => time a ≤ time b) {now : τ}
    (hnow : ∀ a ∈ as, now ≤ time a) {s t : σ} (h : R now s t) :
    (answers step as s).filter (fun p => seen p.1) =
      (answers step (as.filter keep) t).filter (fun p => seen p.1) := by
  induction as generalizing now s t with
  | nil => rfl
  | cons a as ih =>
    have hPa := hP a (List.mem_cons_self ..)
    have hPas := fun b hb => hP b (List.mem_cons_of_mem a hb)
    have hle := hnow a (List.mem_cons_self ..)
    obtain ⟨hlater, hsorted⟩ := List.pairwise_cons.mp hsorted
    cases hk : keep a with
    | true =>
      obtain ⟨heq, hR⟩ := hkeep now a s t hle hPa hk h
      simp only [List.filter_cons, hk, if_true, answers, heq, ih hPas hsorted hlater hR]
    | false =>
      have hunseen : seen a = false := by
        by_contra hs
        simp [hseen a (by simpa using hs)] at hk
      simp only [List.filter_cons, hk, answers, hunseen, Bool.false_eq_true, if_false]
      exact ih hPas hsorted hlater (hskip now a s t hle hPa hk h)

theorem answers_purge {step : α → σ → β × σ} {R : σ → σ → Prop} {keep seen : α → Bool}
    {P : α → Prop} (hseen : ∀ a, seen a = true → keep a = true)
    (hkeep : ∀ a s t, P a → keep a = true → R s t →
      (step a s).1 = (step a t).1 ∧ R (step a s).2 (step a t).2)
    (hskip : ∀ a s t, P a → keep a = false → R s t → R (step a s).2 t)
    {as : List α} (hP : ∀ a ∈ as, P a) {s t : σ} (h : R s t) :
    (answers step as s).filter (fun p => seen p.1) =
      (answers step (as.filter keep) t).filter (fun p => seen p.1) := by
  have hsame : ∀ a b : α, (fun _ : α => 0) a ≤ (fun _ : α => 0) b := fun _ _ => Nat.le_refl 0
  exact answers_purge_timed (R := fun _ : Nat => R) hseen (fun _ a s t _ => hkeep a s t)
    (fun _ a s t _ => hskip a s t) hP (List.pairwise_of_forall hsame) (fun _ _ => Nat.le_refl 0) h

end Answers

end Machine
