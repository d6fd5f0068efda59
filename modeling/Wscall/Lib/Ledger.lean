import Mathlib.Data.List.Nodup
import Mathlib.Logic.Function.Basic

/-!
# Debts that are paid once

Entries are booked under consecutive numbers. An entry is owed by one debtor at a time, who passes
it on, lets it go or pays it.
-/

namespace RustStd

structure Balanced {δ : Type} (booked : ℕ) (owes : δ → Option ℕ) (paid : List ℕ) : Prop where
  nodup : paid.Nodup
  paid_lt : ∀ i ∈ paid, i < booked
  owed_lt : ∀ d i, owes d = some i → i < booked
  unpaid : ∀ d i, owes d = some i → i ∉ paid
  single : ∀ d e i, owes d = some i → owes e = some i → d = e

namespace Balanced

variable {δ : Type} {booked : ℕ} {owes : δ → Option ℕ} {paid : List ℕ}

theorem empty : Balanced 0 (fun _ : δ => none) [] where
  nodup := List.nodup_nil
  paid_lt := by simp
  owed_lt := by simp
  unpaid := by simp
  single := by simp

theorem mono (h : Balanced booked owes paid) {more : ℕ} (hle : booked ≤ more) :
    Balanced more owes paid where
  nodup := h.nodup
  paid_lt i hi := Nat.lt_of_lt_of_le (h.paid_lt i hi) hle
  owed_lt d i hd := Nat.lt_of_lt_of_le (h.owed_lt d i hd) hle
  unpaid := h.unpaid
  single := h.single

variable [DecidableEq δ]

theorem book (h : Balanced booked owes paid) (d : δ) :
    Balanced (booked + 1) (Function.update owes d (some booked)) paid := by
  have hold : ∀ e i, e ≠ d → Function.update owes d (some booked) e = some i → i < booked := by
    intro e i hne he
    rw [Function.update_of_ne hne] at he
    exact h.owed_lt e i he
  have hnew : ∀ i, Function.update owes d (some booked) d = some i → i = booked := by
    intro i hi
    rw [Function.update_self] at hi
    cases hi
    rfl
  refine ⟨h.nodup, fun i hi => Nat.lt_succ_of_lt (h.paid_lt i hi), fun e i he => ?_, fun e i he hmem => ?_,
    fun e f i he hf => ?_⟩
  · by_cases hed : e = d
    · subst hed
      rw [hnew i he]
      omega
    · have hlt := hold e i hed he
      omega
  · have hlt := h.paid_lt i hmem
    by_cases hed : e = d
    · subst hed
      rw [hnew i he] at hlt
      omega
    · rw [Function.update_of_ne hed] at he
      exact h.unpaid e i he hmem
  · by_cases hed : e = d <;> by_cases hfd : f = d
    · rw [hed, hfd]
    · subst hed
      have hlt := hold f i hfd hf
      have heq := hnew i he
      omega
    · subst hfd
      have hlt := hold e i hed he
      have heq := hnew i hf
      omega
    · rw [Function.update_of_ne hed] at he
      rw [Function.update_of_ne hfd] at hf
      exact h.single e f i he hf

/-- A debtor without its debt. -/
theorem release (h : Balanced booked owes paid) (d : δ) :
    Balanced booked (Function.update owes d none) paid := by
  have hold : ∀ e i, Function.update owes d none e = some i → owes e = some i := by
    intro e i he
    by_cases hed : e = d
    · subst hed
      simp at he
    · rwa [Function.update_of_ne hed] at he
  exact ⟨h.nodup, h.paid_lt, fun e i he => h.owed_lt e i (hold e i he),
    fun e i he => h.unpaid e i (hold e i he),
    fun e f i he hf => h.single e f i (hold e i he) (hold f i hf)⟩

theorem pay (h : Balanced booked owes paid) {d : δ} {i : ℕ} (hd : owes d = some i) :
    Balanced booked (Function.update owes d none) (paid ++ [i]) := by
  have hrest := h.release d
  refine ⟨?_, fun j hj => ?_, hrest.owed_lt, fun e j he hmem => ?_, hrest.single⟩
  · exact h.nodup.append (List.nodup_singleton i) (by simpa using h.unpaid d i hd)
  · rcases List.mem_append.mp hj with hj | hj
    · exact h.paid_lt j hj
    · rw [List.mem_singleton.mp hj]
      exact h.owed_lt d i hd
  · rcases List.mem_append.mp hmem with hmem | hmem
    · exact hrest.unpaid e j he hmem
    · -- the entry is no longer owed by the one who paid, and by nobody else
      rw [List.mem_singleton.mp hmem] at he
      by_cases hed : e = d
      · subst hed
        simp at he
      · rw [Function.update_of_ne hed] at he
        exact hed (h.single e d i he hd)

theorem pass (h : Balanced booked owes paid) {d e : δ} {i : ℕ} (hd : owes d = some i) :
    Balanced booked (Function.update (Function.update owes d none) e (some i)) paid := by
  have hrest := h.release d
  have hgone : ∀ f, Function.update owes d none f = some i → False := by
    intro f hf
    by_cases hfd : f = d
    · subst hfd
      simp at hf
    · rw [Function.update_of_ne hfd] at hf
      exact hfd (h.single f d i hf hd)
  have hcases : ∀ f j, Function.update (Function.update owes d none) e (some i) f = some j →
      f = e ∧ j = i ∨ Function.update owes d none f = some j := by
    intro f j hf
    by_cases hfe : f = e
    · subst hfe
      rw [Function.update_self] at hf
      cases hf
      exact .inl ⟨rfl, rfl⟩
    · rw [Function.update_of_ne hfe] at hf
      exact .inr hf
  refine ⟨h.nodup, h.paid_lt, fun f j hf => ?_, fun f j hf => ?_, fun f g j hf hg => ?_⟩
  · rcases hcases f j hf with ⟨-, hj⟩ | hold
    · exact hj ▸ h.owed_lt d i hd
    · exact hrest.owed_lt f j hold
  · rcases hcases f j hf with ⟨-, hj⟩ | hold
    · exact hj ▸ h.unpaid d i hd
    · exact hrest.unpaid f j hold
  · rcases hcases f j hf with ⟨hfe, hj⟩ | hf' <;> rcases hcases g j hg with ⟨hge, hj'⟩ | hg'
    · rw [hfe, hge]
    · exact (hgone g (hj ▸ hg')).elim
    · exact (hgone f (hj' ▸ hf')).elim
    · exact hrest.single f g j hf' hg'

end Balanced

end RustStd
