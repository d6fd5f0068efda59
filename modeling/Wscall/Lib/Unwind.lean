import Mathlib.Data.List.Basic

/-!
# User callbacks that may panic

A registered async callback is a closure that returns a future. It can panic in the call,
before there is a future, or while the future is awaited; `catch_unwind` on the future
only catches the second. A task that calls such callbacks either goes on or unwinds, and
`Exec` keeps the calls it made in both cases.
-/

namespace RustStd

/-- How one invocation of a callback ends. -/
inductive Callback (α : Type) where
  | returns (a : α)
  | callPanics
  | panics

/-- It panics before there is a future. -/
def Callback.isCallPanic {α : Type} : Callback α → Bool
  | .callPanics => true
  | _ => false

/-- The calls a task made, and its result if it did not unwind. -/
structure Exec (ι α : Type) where
  calls : List ι
  result : Option α

namespace Exec

variable {ι α β : Type}

def done (a : α) : Exec ι α := ⟨[], some a⟩

def andThen (x : Exec ι α) (k : α → Exec ι β) : Exec ι β :=
  match x.result with
  | none => ⟨x.calls, none⟩
  | some a => ⟨x.calls ++ (k a).calls, (k a).result⟩

instance : Monad (Exec ι) where
  pure := done
  bind := andThen

/-- `callback(..).await`: either panic unwinds the task. -/
def await (call : ι) : Callback α → Exec ι α
  | .returns a => ⟨[call], some a⟩
  | .callPanics => ⟨[call], none⟩
  | .panics => ⟨[call], none⟩

/-- `AssertUnwindSafe(callback(..)).catch_unwind().await`; `none` for a caught panic. The
call itself stands outside the guard. -/
def catchUnwind (call : ι) : Callback α → Exec ι (Option α)
  | .returns a => ⟨[call], some (some a)⟩
  | .callPanics => ⟨[call], none⟩
  | .panics => ⟨[call], some none⟩

/-- `join_all(callbacks).await`: the futures are made in order, then polled together; one
panic unwinds the task with all of them. -/
def joinAll : List (ι × Callback α) → Exec ι (List α)
  | [] => ⟨[], some []⟩
  | (call, .returns a) :: rest =>
    ⟨call :: (joinAll rest).calls, (joinAll rest).result.map (a :: ·)⟩
  | (call, .panics) :: rest => ⟨call :: (joinAll rest).calls, none⟩
  | (call, .callPanics) :: _ => ⟨[call], none⟩

@[simp] theorem pure_result (a : α) : (pure a : Exec ι α).result = some a := rfl

@[simp] theorem bind_result (x : Exec ι α) (k : α → Exec ι β) :
    (x >>= k).result = x.result.bind fun a => (k a).result := by
  show (x.andThen k).result = _
  unfold andThen
  cases x.result <;> rfl

theorem bind_of_some (calls : List ι) (a : α) (k : α → Exec ι β) :
    ((⟨calls, some a⟩ : Exec ι α) >>= k) = ⟨calls ++ (k a).calls, (k a).result⟩ := rfl

theorem bind_pure_calls (x : Exec ι α) (f : α → β) : (x >>= fun a => pure (f a)).calls = x.calls := by
  show (x.andThen _).calls = _
  unfold andThen
  cases x.result with
  | none => rfl
  | some a => exact List.append_nil _

theorem mem_calls_bind {x : Exec ι α} {k : α → Exec ι β} {i : ι} (h : i ∈ (x >>= k).calls) :
    i ∈ x.calls ∨ ∃ a, x.result = some a ∧ i ∈ (k a).calls := by
  change i ∈ (x.andThen k).calls at h
  unfold andThen at h
  cases hx : x.result with
  | none =>
    rw [hx] at h
    exact .inl h
  | some a =>
    rw [hx] at h
    rcases List.mem_append.mp h with h | h
    · exact .inl h
    · exact .inr ⟨a, rfl, h⟩

@[simp] theorem await_calls (call : ι) (c : Callback α) : (await call c).calls = [call] := by
  cases c <;> rfl

@[simp] theorem catchUnwind_calls (call : ι) (c : Callback α) :
    (catchUnwind call c).calls = [call] := by
  cases c <;> rfl

theorem await_result_eq_some {call : ι} {c : Callback α} {a : α} :
    (await call c).result = some a ↔ c = .returns a := by
  cases c <;> simp [await]

theorem joinAll_isSome (cs : List (ι × Callback α)) :
    (joinAll cs).result.isSome ↔ ∀ c ∈ cs, ∃ a, c.2 = .returns a := by
  induction cs with
  | nil => simp [joinAll]
  | cons c cs ih =>
    obtain ⟨call, callback⟩ := c
    cases callback with
    | returns a => simp [joinAll, ih]
    | panics => simp [joinAll]
    | callPanics => simp [joinAll]

end Exec

end RustStd
