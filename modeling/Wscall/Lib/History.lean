import Mathlib.Data.List.Induction

/-!
# Histories and fixed windows

A log is a list, oldest entry first. A property of an entry may look at everything that
was logged before it. Fixed windows cut a history of instants into runs that begin with
an instant and last one period; a load is a window with the weight that fell into it.
-/

namespace History

variable {ε : Type}

/-- Every entry of the log stands in relation `P` to the entries before it. -/
def Each (P : List ε → ε → Prop) (log : List ε) : Prop :=
  ∀ before e after, log = before ++ e :: after → P before e

theorem each_nil (P : List ε → ε → Prop) : Each P [] := by
  intro before e after h
  simp at h

theorem Each.snoc {P : List ε → ε → Prop} {log : List ε} {e : ε} (h : Each P log) (he : P log e) :
    Each P (log ++ [e]) := by
  intro before e' after heq
  rcases List.eq_nil_or_concat after with hnil | ⟨after', last, hlast⟩
  · subst hnil
    obtain ⟨hlog, hlast⟩ := List.append_inj' heq rfl
    cases hlast
    exact hlog ▸ he
  · subst hlast
    rw [List.concat_eq_append, ← List.cons_append, ← List.append_assoc] at heq
    exact h before e' after' (List.append_inj' heq rfl).1

/-- Some entry of the log stands in relation `P` to the entries before it. -/
def Any (P : List ε → ε → Prop) (log : List ε) : Prop :=
  ∃ before e after, log = before ++ e :: after ∧ P before e

theorem not_any_nil (P : List ε → ε → Prop) : ¬ Any P [] := by
  rintro ⟨before, e, after, h, -⟩
  simp at h

theorem any_snoc {P : List ε → ε → Prop} {log : List ε} {e : ε} :
    Any P (log ++ [e]) ↔ Any P log ∨ P log e := by
  constructor
  · rintro ⟨before, e', after, heq, h⟩
    rcases List.eq_nil_or_concat after with rfl | ⟨after', last, rfl⟩
    · obtain ⟨rfl, hlast⟩ := List.append_inj' heq rfl
      cases hlast
      exact .inr h
    · rw [List.concat_eq_append, ← List.cons_append, ← List.append_assoc] at heq
      exact .inl ⟨before, e', after', (List.append_inj' heq rfl).1, h⟩
  · rintro (⟨before, e', after, rfl, h⟩ | h)
    · exact ⟨before, e', after ++ [e], by simp, h⟩
    · exact ⟨log, e, [], rfl, h⟩

theorem filterMap_snoc {β : Type} (g : ε → Option β) (log : List ε) (e : ε) :
    (log ++ [e]).filterMap g = log.filterMap g ++ (g e).toList := by
  rw [List.filterMap_append]
  cases h : g e <;> simp [h]

end History

/-- A window that has opened, and how many instants have fallen into it. -/
structure Window where
  start : ℕ
  count : ℕ

namespace Window

/-- An instant opens a window when there is none or the last one opened a period ago. -/
def next (period : ℕ) (w : Option Window) (t : ℕ) : Window :=
  match w with
  | none => ⟨t, 1⟩
  | some w => if period ≤ t - w.start then ⟨t, 1⟩ else ⟨w.start, w.count + 1⟩

/-- The window that is open after a history of instants. -/
def current (period : ℕ) (times : List ℕ) : Option Window :=
  times.foldl (fun w t => some (next period w t)) none

/-- The number an instant has in its own window. -/
def ordinal (period : ℕ) (times : List ℕ) (t : ℕ) : ℕ :=
  (next period (current period times) t).count

@[simp] theorem current_snoc (period : ℕ) (times : List ℕ) (t : ℕ) :
    current period (times ++ [t]) = some (next period (current period times) t) := by
  simp [current, List.foldl_append]

theorem current_replicate {period : ℕ} (hp : 0 < period) (t n : ℕ) :
    current period (List.replicate (n + 1) t) = some ⟨t, n + 1⟩ := by
  induction n with
  | zero => rfl
  | succ n ih =>
    rw [List.replicate_succ', current_snoc, ih]
    simp only [next, Nat.sub_self, Nat.not_le.mpr hp, if_false]

end Window

/-- A window and what the instants in it weigh. -/
structure Load where
  window : Window
  weight : ℕ

namespace Load

variable {period : ℕ}

/-- A weighted instant falls into the window that is open, or opens one. -/
def next (period : ℕ) (l : Option Load) (x : ℕ × ℕ) : Load where
  window := Window.next period (l.map window) x.1
  weight :=
    match l with
    | none => x.2
    | some l => if period ≤ x.1 - l.window.start then x.2 else l.weight + x.2

def current (period : ℕ) (xs : List (ℕ × ℕ)) : Option Load :=
  xs.foldl (fun l x => some (next period l x)) none

/-- The load of the window that an instant falls into, the instant included. -/
def after (period : ℕ) (xs : List (ℕ × ℕ)) (x : ℕ × ℕ) : Load := next period (current period xs) x

@[simp] theorem current_snoc (xs : List (ℕ × ℕ)) (x : ℕ × ℕ) :
    current period (xs ++ [x]) = some (after period xs x) := by
  simp [current, after, List.foldl_append]

theorem next_eq_open {l : Option Load} {x : ℕ × ℕ}
    (h : ∀ v, l = some v → period ≤ x.1 - v.window.start) : next period l x = ⟨⟨x.1, 1⟩, x.2⟩ := by
  cases l with
  | none => rfl
  | some v => simp only [next, Option.map_some, Window.next, if_pos (h v rfl)]

theorem current_window (xs : List (ℕ × ℕ)) :
    (current period xs).map window = Window.current period (xs.map Prod.fst) := by
  induction xs using List.reverseRecOn with
  | nil => rfl
  | append_singleton xs x ih =>
    rw [current_snoc, List.map_append, List.map_singleton, Window.current_snoc, ← ih]
    rfl

theorem after_count (xs : List (ℕ × ℕ)) (x : ℕ × ℕ) :
    (after period xs x).window.count = Window.ordinal period (xs.map Prod.fst) x.1 := by
  rw [Window.ordinal, ← current_window]
  rfl

end Load
