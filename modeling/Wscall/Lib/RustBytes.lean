import Mathlib.Tactic.Ring
import Mathlib.Data.List.Basic

/-!
# Byte buffers with the failure modes of safe Rust

A safe Rust function over a byte buffer ends in one of three ways: it returns,
it returns an error, or it panics (an index or slice bound out of range, a
`usize` addition that overflows, an `unreachable!` arm). `Checked` keeps the
three apart, so "never panics" is a statement about the model. Positions are
natural numbers; `addUsize` is the place where a 64-bit `usize` shows.
-/

namespace RustStd

abbrev Bytes := List UInt8

/-- How a computation that does not return ends. -/
inductive Fault (ε : Type) where
  | err (e : ε)
  | panic
  deriving Repr, DecidableEq

abbrev Checked (ε α : Type) := Except (Fault ε) α

variable {ε α β : Type}

/-- `return Err(e)`. -/
def fail (e : ε) : Checked ε α := .error (.err e)

def crash : Checked ε α := .error .panic

@[simp] theorem fail_bind (e : ε) (k : α → Checked ε β) : (fail e >>= k) = fail e := rfl

@[simp] theorem ok_bind (a : α) (k : α → Checked ε β) : ((.ok a : Checked ε α) >>= k) = k a := rfl

@[simp] theorem fail_ne_ok (e : ε) (a : α) : (fail e : Checked ε α) ≠ .ok a := by
  simp [fail]

theorem bind_eq_ok {x : Except ε α} {k : α → Except ε β} {b : β} (h : (x >>= k) = .ok b) :
    ∃ a, x = .ok a ∧ k a = .ok b := by
  cases x with
  | error e => cases h
  | ok a => exact ⟨a, rfl, h⟩

/-- The computation ends with a value or an error. -/
def Returns (x : Checked ε α) : Prop := x ≠ crash

@[simp] theorem returns_ok (a : α) : Returns (.ok a : Checked ε α) := by simp [Returns, crash]

@[simp] theorem returns_fail (e : ε) : Returns (fail e : Checked ε α) := by
  simp [Returns, crash, fail]

theorem Returns.bind {x : Checked ε α} {k : α → Checked ε β} (hx : Returns x)
    (hk : ∀ a, x = .ok a → Returns (k a)) : Returns (x >>= k) := by
  cases x with
  | ok a => exact hk a rfl
  | error e =>
    cases e with
    | err e => exact returns_fail e
    | panic => exact absurd rfl hx

/-- The computation fails with no other error than those of `P`. -/
def FailsOnly (P : ε → Prop) (x : Checked ε α) : Prop := ∀ e, x = fail e → P e

@[simp] theorem failsOnly_ok {P : ε → Prop} (a : α) : FailsOnly P (.ok a : Checked ε α) := by
  simp [FailsOnly, fail]

@[simp] theorem failsOnly_fail {P : ε → Prop} (e : ε) :
    FailsOnly P (fail e : Checked ε α) ↔ P e := by
  simp [FailsOnly, fail]

@[simp] theorem failsOnly_crash {P : ε → Prop} : FailsOnly P (crash : Checked ε α) := by
  simp [FailsOnly, fail, crash]

theorem FailsOnly.bind {P : ε → Prop} {x : Checked ε α} {k : α → Checked ε β} (hx : FailsOnly P x)
    (hk : ∀ a, FailsOnly P (k a)) : FailsOnly P (x >>= k) := by
  cases x with
  | ok a => exact hk a
  | error e =>
    cases e with
    | err e => exact (failsOnly_fail e).mpr (hx e rfl)
    | panic => exact failsOnly_crash

/-- A buffer that Rust can allocate: at most `isize::MAX` bytes. -/
def Allocated (data : List UInt8) : Prop := data.length < 2 ^ 63

/-! ### Checked positions -/

/-- `a + b` on a 64-bit `usize`. -/
def addUsize (a b : ℕ) : Checked ε ℕ := if a + b < 2 ^ 64 then .ok (a + b) else crash

theorem addUsize_ok {a b : ℕ} (h : a + b < 2 ^ 64) : (addUsize a b : Checked ε ℕ) = .ok (a + b) :=
  if_pos h

theorem addUsize_inv {a b c : ℕ} (h : (addUsize a b : Checked ε ℕ) = .ok c) : c = a + b := by
  unfold addUsize at h
  split at h
  · cases h; rfl
  · cases h

/-- `data[pos]`. -/
def index (data : Bytes) (pos : ℕ) : Checked ε UInt8 :=
  match data[pos]? with
  | some b => .ok b
  | none => crash

/-- `&data[lo..hi]`. -/
def slice (data : Bytes) (lo hi : ℕ) : Checked ε Bytes :=
  if lo ≤ hi ∧ hi ≤ data.length then .ok ((data.take hi).drop lo) else crash

/-- `data.slice(lo..)`. -/
def sliceFrom (data : Bytes) (lo : ℕ) : Checked ε Bytes := slice data lo data.length

theorem failsOnly_addUsize {P : ε → Prop} (a b : ℕ) : FailsOnly P (addUsize a b : Checked ε ℕ) := by
  unfold addUsize
  split <;> simp

theorem failsOnly_index {P : ε → Prop} (data : Bytes) (pos : ℕ) :
    FailsOnly P (index data pos : Checked ε UInt8) := by
  unfold index
  split <;> simp

theorem failsOnly_slice {P : ε → Prop} (data : Bytes) (lo hi : ℕ) :
    FailsOnly P (slice data lo hi : Checked ε Bytes) := by
  unfold slice
  split <;> simp

theorem drop_cons_index {data rest : Bytes} {pos : ℕ} {b : UInt8} (h : data.drop pos = b :: rest) :
    (index data pos : Checked ε UInt8) = .ok b := by
  have hget : data[pos]? = some b := by
    have h0 : (data.drop pos)[0]? = some b := by rw [h]; rfl
    simpa using h0
  simp [index, hget]

theorem index_inv {data : Bytes} {pos : ℕ} {b : UInt8}
    (h : (index data pos : Checked ε UInt8) = .ok b) : data.drop pos = b :: data.drop (pos + 1) := by
  unfold index at h
  split at h
  · cases h
    rename_i hget
    obtain ⟨hlt, rfl⟩ := List.getElem?_eq_some_iff.mp hget
    exact List.drop_eq_getElem_cons hlt
  · cases h

theorem returns_index {data : Bytes} {pos : ℕ} (h : pos < data.length) :
    Returns (index data pos : Checked ε UInt8) := by
  simp [index, List.getElem?_eq_getElem h]

theorem drop_add_of_cons {data rest : Bytes} {pos : ℕ} {b : UInt8}
    (h : data.drop pos = b :: rest) : data.drop (pos + 1) = rest := by
  rw [← List.drop_drop, h]
  rfl

theorem length_of_drop_cons {data rest : Bytes} {pos : ℕ} {b : UInt8}
    (h : data.drop pos = b :: rest) : data.length = pos + 1 + rest.length := by
  have hl := congrArg List.length h
  simp only [List.length_drop, List.length_cons] at hl
  omega

theorem slice_eq_take {data : Bytes} {pos n : ℕ} (h : pos + n ≤ data.length) :
    (slice data pos (pos + n) : Checked ε Bytes) = .ok ((data.drop pos).take n) := by
  rw [slice, if_pos ⟨Nat.le_add_right .., h⟩, List.drop_take]
  congr 2
  omega

theorem slice_inv {data text : Bytes} {pos n : ℕ}
    (h : (slice data pos (pos + n) : Checked ε Bytes) = .ok text) :
    pos + n ≤ data.length ∧ data.drop pos = text ++ data.drop (pos + n) ∧ text.length = n := by
  unfold slice at h
  split at h
  · rename_i hle
    cases h
    rw [List.drop_take, Nat.add_sub_cancel_left, ← List.drop_drop, List.take_append_drop]
    refine ⟨hle.2, rfl, ?_⟩
    rw [List.length_take, List.length_drop]
    omega
  · cases h

theorem returns_slice {data : Bytes} {lo hi : ℕ} (hle : lo ≤ hi) (h : hi ≤ data.length) :
    Returns (slice data lo hi : Checked ε Bytes) := by
  simp [slice, hle, h]

theorem sliceFrom_eq_drop {data : Bytes} {pos : ℕ} (h : pos ≤ data.length) :
    (sliceFrom data pos : Checked ε Bytes) = .ok (data.drop pos) := by
  rw [sliceFrom, slice, if_pos ⟨h, le_rfl⟩, List.take_length]

/-! ### Big-endian words -/

/-- `n.to_be_bytes()`. -/
def toBeBytes (n : UInt32) : Bytes :=
  [UInt8.ofNat (n.toNat / 2 ^ 24), UInt8.ofNat (n.toNat / 2 ^ 16), UInt8.ofNat (n.toNat / 2 ^ 8),
    UInt8.ofNat n.toNat]

/-- `u32::from_be_bytes([a, b, c, d])`. -/
def fromBeBytes (a b c d : UInt8) : UInt32 :=
  UInt32.ofNat (a.toNat * 2 ^ 24 + b.toNat * 2 ^ 16 + c.toNat * 2 ^ 8 + d.toNat)

@[simp] theorem toBeBytes_length (n : UInt32) : (toBeBytes n).length = 4 := rfl

theorem fromBeBytes_toBeBytes (n : UInt32) :
    fromBeBytes (UInt8.ofNat (n.toNat / 2 ^ 24)) (UInt8.ofNat (n.toNat / 2 ^ 16))
      (UInt8.ofNat (n.toNat / 2 ^ 8)) (UInt8.ofNat n.toNat) = n := by
  apply UInt32.toNat_inj.mp
  have hn := n.toNat_lt
  simp only [fromBeBytes, UInt32.toNat_ofNat', UInt8.toNat_ofNat']
  omega

theorem toBeBytes_fromBeBytes (a b c d : UInt8) : toBeBytes (fromBeBytes a b c d) = [a, b, c, d] := by
  have ha := a.toNat_lt
  have hb := b.toNat_lt
  have hc := c.toNat_lt
  have hd := d.toNat_lt
  simp only [toBeBytes, fromBeBytes, UInt32.toNat_ofNat', List.cons.injEq, and_true,
    ← UInt8.toNat_inj, UInt8.toNat_ofNat']
  omega

/-- `u32::from_be_bytes([data[pos], data[pos + 1], data[pos + 2], data[pos + 3]]) as usize`. -/
def readU32 (data : Bytes) (pos : ℕ) : Checked ε ℕ := do
  let a ← index data pos
  let b ← index data (← addUsize pos 1)
  let c ← index data (← addUsize pos 2)
  let d ← index data (← addUsize pos 3)
  .ok (fromBeBytes a b c d).toNat

theorem readU32_toBeBytes {data rest : Bytes} {pos : ℕ} (n : UInt32) (hpos : pos + 3 < 2 ^ 64)
    (h : data.drop pos = toBeBytes n ++ rest) : (readU32 data pos : Checked ε ℕ) = .ok n.toNat := by
  have h0 : data.drop pos = _ :: _ := h
  have h1 : data.drop (pos + 1) = _ :: _ := drop_add_of_cons h0
  have h2 : data.drop (pos + 2) = _ :: _ := drop_add_of_cons h1
  have h3 : data.drop (pos + 3) = _ :: _ := drop_add_of_cons h2
  rw [readU32, addUsize_ok (by omega), addUsize_ok (by omega), addUsize_ok hpos]
  simp only [drop_cons_index h0, drop_cons_index h1, drop_cons_index h2, drop_cons_index h3,
    ok_bind, fromBeBytes_toBeBytes]

theorem failsOnly_readU32 {P : ε → Prop} (data : Bytes) (pos : ℕ) :
    FailsOnly P (readU32 data pos : Checked ε ℕ) := by
  refine .bind (failsOnly_index _ _) fun a => .bind (failsOnly_addUsize _ _) fun i => ?_
  refine .bind (failsOnly_index _ _) fun b => .bind (failsOnly_addUsize _ _) fun j => ?_
  refine .bind (failsOnly_index _ _) fun c => .bind (failsOnly_addUsize _ _) fun k => ?_
  exact .bind (failsOnly_index _ _) fun d => failsOnly_ok _

theorem returns_readU32 {data : Bytes} {pos : ℕ} (h : pos + 4 ≤ data.length)
    (hmem : Allocated data) : Returns (readU32 data pos : Checked ε ℕ) := by
  unfold Allocated at hmem
  rw [readU32, addUsize_ok (by omega), addUsize_ok (by omega), addUsize_ok (by omega)]
  refine (returns_index (by omega)).bind fun a _ => (returns_index (by omega)).bind fun b _ => ?_
  exact (returns_index (by omega)).bind fun c _ =>
    (returns_index (by omega)).bind fun d _ => returns_ok _

theorem readU32_inv {data : Bytes} {pos n : ℕ} (h : (readU32 data pos : Checked ε ℕ) = .ok n) :
    n < 2 ^ 32 ∧ data.drop pos = toBeBytes (UInt32.ofNat n) ++ data.drop (pos + 4) := by
  obtain ⟨a, ha, h⟩ := bind_eq_ok h
  obtain ⟨p1, h1, h⟩ := bind_eq_ok h
  obtain ⟨b, hb, h⟩ := bind_eq_ok h
  obtain ⟨p2, h2, h⟩ := bind_eq_ok h
  obtain ⟨c, hc, h⟩ := bind_eq_ok h
  obtain ⟨p3, h3, h⟩ := bind_eq_ok h
  obtain ⟨d, hd, h⟩ := bind_eq_ok h
  cases h
  cases addUsize_inv h1
  cases addUsize_inv h2
  cases addUsize_inv h3
  refine ⟨(fromBeBytes a b c d).toNat_lt, ?_⟩
  rw [UInt32.ofNat_toNat, toBeBytes_fromBeBytes, index_inv ha, index_inv hb, index_inv hc,
    index_inv hd]
  rfl

/-! ### In-place writes -/

/-- `buf[pos..pos + src.len()].copy_from_slice(src)`. -/
def patch (buf : Bytes) (pos : ℕ) (src : Bytes) : Checked ε Bytes :=
  if pos + src.length ≤ buf.length then
    .ok (buf.take pos ++ src ++ buf.drop (pos + src.length))
  else crash

theorem patch_append (pre hole post src : Bytes) (h : hole.length = src.length) :
    (patch (pre ++ hole ++ post) pre.length src : Checked ε Bytes) = .ok (pre ++ src ++ post) := by
  have hlen : pre.length + src.length ≤ (pre ++ hole ++ post).length := by
    simp only [List.length_append]
    omega
  have hdrop : (pre ++ hole ++ post).drop (pre.length + src.length) = post := by
    rw [← h, ← List.length_append, List.drop_left]
  rw [patch, if_pos hlen, hdrop, List.append_assoc pre hole post, List.take_left]

end RustStd
