import Mathlib.Data.List.Basic
import Mathlib.Order.Lattice
import Mathlib.Order.Defs.LinearOrder

/-!
# Ordered maps as sorted association lists

A map with ordered keys (`BTreeMap`) is the list of its entries in key order. Two
maps with the same entries are then equal lists, and iteration order is list order.
-/

namespace SortedAssoc

variable {κ α : Type} [LinearOrder κ]

def Sorted (es : List (κ × α)) : Prop := es.Pairwise fun a b => a.1 < b.1

def get (k : κ) : List (κ × α) → Option α
  | [] => none
  | e :: es => if k = e.1 then some e.2 else get k es

/-- Insertion in key order; an existing entry of the key is replaced. -/
def insert (k : κ) (v : α) : List (κ × α) → List (κ × α)
  | [] => [(k, v)]
  | e :: es =>
    if k < e.1 then (k, v) :: e :: es
    else if k = e.1 then (k, v) :: es
    else e :: insert k v es

def remove (k : κ) (es : List (κ × α)) : List (κ × α) := es.filter fun e => e.1 ≠ k

/-- The map built by inserting entries from left to right. -/
def ofEntries (es : List (κ × α)) : List (κ × α) := es.foldl (fun m e => insert e.1 e.2 m) []

theorem mem_insert {k : κ} {v : α} {e : κ × α} {es : List (κ × α)} (h : e ∈ insert k v es) :
    e = (k, v) ∨ e ∈ es := by
  induction es with
  | nil =>
    rw [insert, List.mem_singleton] at h
    exact Or.inl h
  | cons a es ih =>
    rw [insert] at h
    split_ifs at h with h1 h2
    · exact List.mem_cons.mp h
    · exact (List.mem_cons.mp h).imp id (List.mem_cons_of_mem _)
    · rcases List.mem_cons.mp h with h | h
      · exact Or.inr (h ▸ List.mem_cons_self ..)
      · exact (ih h).imp id (List.mem_cons_of_mem _)

theorem sorted_insert (k : κ) (v : α) {es : List (κ × α)} (h : Sorted es) :
    Sorted (insert k v es) := by
  induction es with
  | nil => simp [insert, Sorted]
  | cons a es ih =>
    obtain ⟨ha, hes⟩ := List.pairwise_cons.mp h
    rw [insert]
    split_ifs with h1 h2
    · refine List.pairwise_cons.mpr ⟨fun b hb => ?_, h⟩
      rcases List.mem_cons.mp hb with rfl | hb
      · exact h1
      · exact h1.trans (ha b hb)
    · refine List.pairwise_cons.mpr ⟨fun b hb => ?_, hes⟩
      rw [h2]
      exact ha b hb
    · refine List.pairwise_cons.mpr ⟨fun b hb => ?_, ih hes⟩
      rcases mem_insert hb with rfl | hb
      · exact lt_of_le_of_ne (not_lt.mp h1) (Ne.symm h2)
      · exact ha b hb

theorem get_insert (k k' : κ) (v : α) (es : List (κ × α)) :
    get k' (insert k v es) = if k' = k then some v else get k' es := by
  induction es with
  | nil => rfl
  | cons a es ih =>
    rw [insert]
    by_cases h1 : k < a.1
    · rw [if_pos h1]
      rfl
    by_cases h2 : k = a.1
    · rw [if_neg h1, if_pos h2]
      by_cases h : k' = k
      · simp [get, h]
      · simp [get, h, ← h2]
    · rw [if_neg h1, if_neg h2]
      by_cases h : k' = k
      · subst h
        simp [get, h2, ih]
      · simp [get, ih, h]

theorem sorted_remove (k : κ) {es : List (κ × α)} (h : Sorted es) : Sorted (remove k es) :=
  List.Pairwise.filter _ h

theorem get_remove (k k' : κ) (es : List (κ × α)) :
    get k' (remove k es) = if k' = k then none else get k' es := by
  induction es with
  | nil => simp [remove, get]
  | cons a es ih =>
    by_cases ha : a.1 = k
    · have hdrop : remove k (a :: es) = remove k es := by simp [remove, ha]
      rw [hdrop, ih]
      by_cases h : k' = k
      · simp [h]
      · simp [get, h, ha]
    · have hkeep : remove k (a :: es) = a :: remove k es := by simp [remove, ha]
      rw [hkeep, get, ih]
      by_cases h : k' = a.1
      · simp [get, h, ha]
      · simp [get, h]

theorem get_mem {k : κ} {v : α} {es : List (κ × α)} (h : get k es = some v) : (k, v) ∈ es := by
  induction es with
  | nil => cases h
  | cons a es ih =>
    rw [get] at h
    split_ifs at h with hk
    · cases h
      exact hk ▸ List.mem_cons_self ..
    · exact List.mem_cons_of_mem _ (ih h)

theorem get_eq_none {k : κ} {es : List (κ × α)} (h : k ∉ es.map Prod.fst) : get k es = none := by
  induction es with
  | nil => rfl
  | cons a es ih =>
    simp only [List.map_cons, List.mem_cons, not_or] at h
    rw [get, if_neg h.1, ih h.2]

theorem get_append (k : κ) (es es' : List (κ × α)) :
    get k (es ++ es') = (get k es).or (get k es') := by
  induction es with
  | nil => rfl
  | cons a es ih =>
    rw [List.cons_append, get, get, ih]
    split_ifs <;> rfl

theorem foldl_insert_sorted (es : List (κ × α)) {m : List (κ × α)} (h : Sorted m) :
    Sorted (es.foldl (fun m e => insert e.1 e.2 m) m) := by
  induction es generalizing m with
  | nil => exact h
  | cons e es ih => exact ih (sorted_insert e.1 e.2 h)

theorem sorted_ofEntries (es : List (κ × α)) : Sorted (ofEntries es) :=
  foldl_insert_sorted es List.Pairwise.nil

theorem mem_foldl_insert {e : κ × α} (es : List (κ × α)) {m : List (κ × α)}
    (h : e ∈ es.foldl (fun m e => insert e.1 e.2 m) m) : e ∈ es ∨ e ∈ m := by
  induction es generalizing m with
  | nil => exact Or.inr h
  | cons a es ih =>
    rcases ih h with h | h
    · exact Or.inl (List.mem_cons_of_mem _ h)
    · rcases mem_insert h with rfl | h
      · exact Or.inl (List.mem_cons_self ..)
      · exact Or.inr h

theorem mem_ofEntries {e : κ × α} {es : List (κ × α)} (h : e ∈ ofEntries es) : e ∈ es := by
  rcases mem_foldl_insert es h with h | h
  · exact h
  · cases h

theorem insert_last (k : κ) (v : α) (m : List (κ × α)) (h : ∀ e ∈ m, e.1 < k) :
    insert k v m = m ++ [(k, v)] := by
  induction m with
  | nil => rfl
  | cons a m ih =>
    have ha := h a (List.mem_cons_self ..)
    rw [insert, if_neg (not_lt.mpr ha.le), if_neg (ne_of_gt ha),
      ih fun e he => h e (List.mem_cons_of_mem _ he), List.cons_append]

theorem ofEntries_eq_self {es : List (κ × α)} (h : Sorted es) : ofEntries es = es := by
  have key : ∀ (es m : List (κ × α)), Sorted (m ++ es) →
      es.foldl (fun m e => insert e.1 e.2 m) m = m ++ es := by
    intro es
    induction es with
    | nil => simp
    | cons e es ih =>
      intro m hs
      have hlast : insert e.1 e.2 m = m ++ [e] :=
        insert_last e.1 e.2 m fun a ha =>
          (List.pairwise_append.mp hs).2.2 a ha e (List.mem_cons_self ..)
      rw [List.foldl_cons, hlast, ih (m ++ [e]) (by simpa using hs)]
      simp
  exact key es [] h

theorem get_ofEntries (es : List (κ × α)) (h : (es.map Prod.fst).Nodup) (k : κ) :
    get k (ofEntries es) = get k es := by
  have key : ∀ (es m : List (κ × α)), (es.map Prod.fst).Nodup → ∀ k,
      get k (es.foldl (fun m e => insert e.1 e.2 m) m) =
        if k ∈ es.map Prod.fst then get k es else get k m := by
    intro es
    induction es with
    | nil => intro m _ k; rfl
    | cons e es ih =>
      intro m hn k
      obtain ⟨hnot, hn'⟩ := List.nodup_cons.mp hn
      rw [List.foldl_cons, ih _ hn', get_insert, get, List.map_cons]
      by_cases hk : k = e.1
      · subst hk
        simp [hnot]
      · simp only [List.mem_cons, hk, false_or, if_false]
  rw [ofEntries, key es [] h k]
  split_ifs with hk
  · rfl
  · exact (get_eq_none hk).symm

end SortedAssoc
