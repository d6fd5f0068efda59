import Mathlib.Data.Set.Card

/-!
# Permits and their owners

An owned permit goes back when its owner is dropped, so a semaphore hands out as many permits
as there are owners. `Owned` states this count for a set of owners.
-/

namespace RustStd

def Owned {α : Type} (owners : Set α) (used : ℕ) : Prop := owners.encard = used

namespace Owned

variable {α : Type} {owners : Set α} {used : ℕ} {x : α}

theorem empty : Owned (∅ : Set α) 0 := Set.encard_empty

theorem acquire (h : Owned owners used) (hx : x ∉ owners) : Owned (insert x owners) (used + 1) := by
  unfold Owned at h ⊢
  rw [Set.encard_insert_of_notMem hx, h]
  push_cast
  rfl

theorem release (h : Owned owners used) (hx : x ∈ owners) :
    0 < used ∧ Owned (owners \ {x}) (used - 1) := by
  unfold Owned at h ⊢
  have hone := Set.encard_sdiff_singleton_add_one hx
  have hfin : (owners \ {x}).Finite := (Set.finite_of_encard_eq_coe h).subset Set.sdiff_subset
  rw [h, ← hfin.cast_ncard_eq] at hone
  rw [← hfin.cast_ncard_eq]
  norm_cast at hone ⊢
  omega

end Owned

end RustStd
