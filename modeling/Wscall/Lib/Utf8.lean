import Wscall.Lib.RustBytes

/-!
# Strings as UTF-8 bytes, and lossy decoding

`asBytes` is `str::as_bytes`. `fromUtf8Lossy` is `String::from_utf8_lossy`: well
formed sequences are decoded, and each maximal ill-formed part (a byte that starts
nothing, or a sequence cut off before its end) becomes one U+FFFD. The scan
follows the table of well-formed byte sequences of the Unicode standard, second
byte ranges included.
-/

namespace RustStd

/-- The bytes of a string (`str::as_bytes`). -/
def asBytes (s : String) : Bytes := s.toList.flatMap String.utf8EncodeChar

/-- `str::len`. -/
def strLen (s : String) : ℕ := (asBytes s).length

def replacement : Char := '�'

def isCont (b : UInt8) : Bool := 0x80 ≤ b && b ≤ 0xBF

/-- Length of the sequence a first byte announces, 0 when it can start none. -/
def charWidth (b : UInt8) : ℕ :=
  if b ≤ 0x7F then 1
  else if 0xC2 ≤ b && b ≤ 0xDF then 2
  else if 0xE0 ≤ b && b ≤ 0xEF then 3
  else if 0xF0 ≤ b && b ≤ 0xF4 then 4
  else 0

/-- Second bytes allowed after the first byte of a sequence of three or four. -/
def secondOk (b c : UInt8) : Bool :=
  (if b == 0xE0 then 0xA0 else if b == 0xF0 then 0x90 else 0x80) ≤ c &&
    c ≤ (if b == 0xED then 0x9F else if b == 0xF4 then 0x8F else 0xBF)

def contBits (b : UInt8) : ℕ := b.toNat % 64

/-- One scalar value from `b :: rest`: the character (none for an ill-formed part)
and the bytes after it. -/
def takeScalar (b : UInt8) (rest : Bytes) : Option Char × Bytes :=
  match charWidth b, rest with
  | 1, _ => (some (Char.ofNat b.toNat), rest)
  | 2, c :: r =>
    if isCont c then (some (Char.ofNat (b.toNat % 32 * 64 + contBits c)), r) else (none, rest)
  | 3, c :: d :: r =>
    if !secondOk b c then (none, rest)
    else if !isCont d then (none, d :: r)
    else (some (Char.ofNat (b.toNat % 16 * 4096 + contBits c * 64 + contBits d)), r)
  | 3, [c] => if secondOk b c then (none, []) else (none, rest)
  | 4, c :: d :: e :: r =>
    if !secondOk b c then (none, rest)
    else if !isCont d then (none, d :: e :: r)
    else if !isCont e then (none, e :: r)
    else (some (Char.ofNat
      (b.toNat % 8 * 262144 + contBits c * 4096 + contBits d * 64 + contBits e)), r)
  | 4, [c, d] =>
    if !secondOk b c then (none, rest)
    else if isCont d then (none, []) else (none, [d])
  | 4, [c] => if secondOk b c then (none, []) else (none, rest)
  | _, _ => (none, rest)

/-- Lossy decoding; `fuel` bounds the number of characters. -/
def lossyChars : ℕ → Bytes → List Char
  | 0, _ => []
  | _ + 1, [] => []
  | fuel + 1, b :: rest =>
    (takeScalar b rest).1.getD replacement :: lossyChars fuel (takeScalar b rest).2

/-- `String::from_utf8_lossy`. -/
def fromUtf8Lossy (bs : Bytes) : String := String.ofList (lossyChars bs.length bs)

theorem takeScalar_length (b : UInt8) (rest : Bytes) :
    (takeScalar b rest).2.length ≤ rest.length := by
  unfold takeScalar
  split <;> (repeat' split) <;> simp <;> omega

/-! ### Decoding an encoded character -/

theorem char_toNat_bounds (c : Char) :
    c.val.toNat < 0xD800 ∨ (0xDFFF < c.val.toNat ∧ c.val.toNat < 0x110000) := by
  simpa [UInt32.isValidChar, Nat.isValidChar] using c.valid

theorem ofNat_val (c : Char) {n : ℕ} (h : n = c.val.toNat) : Char.ofNat n = c := by
  subst h
  exact Char.ofNat_toNat c

theorem charWidth_two {b : UInt8} (h : 0xC2 ≤ b.toNat ∧ b.toNat ≤ 0xDF) : charWidth b = 2 := by
  have h1 : ¬ b ≤ 0x7F := by simp only [UInt8.le_iff_toNat_le, UInt8.reduceToNat]; omega
  have h2 : 0xC2 ≤ b ∧ b ≤ 0xDF := by
    simp only [UInt8.le_iff_toNat_le, UInt8.reduceToNat]; omega
  simp [charWidth, h1, h2]

theorem charWidth_three {b : UInt8} (h : 0xE0 ≤ b.toNat ∧ b.toNat ≤ 0xEF) : charWidth b = 3 := by
  have h1 : ¬ b ≤ 0x7F := by simp only [UInt8.le_iff_toNat_le, UInt8.reduceToNat]; omega
  have h2 : ¬ (0xC2 ≤ b ∧ b ≤ 0xDF) := by
    simp only [UInt8.le_iff_toNat_le, UInt8.reduceToNat]; omega
  have h3 : 0xE0 ≤ b ∧ b ≤ 0xEF := by
    simp only [UInt8.le_iff_toNat_le, UInt8.reduceToNat]; omega
  simp [charWidth, h1, h2, h3]

theorem charWidth_four {b : UInt8} (h : 0xF0 ≤ b.toNat ∧ b.toNat ≤ 0xF4) : charWidth b = 4 := by
  have h1 : ¬ b ≤ 0x7F := by simp only [UInt8.le_iff_toNat_le, UInt8.reduceToNat]; omega
  have h2 : ¬ (0xC2 ≤ b ∧ b ≤ 0xDF) := by
    simp only [UInt8.le_iff_toNat_le, UInt8.reduceToNat]; omega
  have h3 : ¬ (0xE0 ≤ b ∧ b ≤ 0xEF) := by
    simp only [UInt8.le_iff_toNat_le, UInt8.reduceToNat]; omega
  have h4 : 0xF0 ≤ b ∧ b ≤ 0xF4 := by
    simp only [UInt8.le_iff_toNat_le, UInt8.reduceToNat]; omega
  simp [charWidth, h1, h2, h3, h4]

theorem isCont_of_toNat {b : UInt8} (h : 0x80 ≤ b.toNat ∧ b.toNat ≤ 0xBF) : isCont b = true := by
  simp only [isCont, Bool.and_eq_true, decide_eq_true_eq, UInt8.le_iff_toNat_le, UInt8.reduceToNat]
  exact h

theorem secondOk_of_toNat {b c : UInt8} (hc : 0x80 ≤ c.toNat ∧ c.toNat ≤ 0xBF)
    (he0 : b.toNat = 0xE0 → 0xA0 ≤ c.toNat) (hed : b.toNat = 0xED → c.toNat ≤ 0x9F)
    (hf0 : b.toNat = 0xF0 → 0x90 ≤ c.toNat) (hf4 : b.toNat = 0xF4 → c.toNat ≤ 0x8F) :
    secondOk b c = true := by
  have key : ∀ k : UInt8, (b == k) = true ↔ b.toNat = k.toNat := fun k => by
    rw [beq_iff_eq, UInt8.toNat_inj]
  simp only [secondOk, key, UInt8.reduceToNat, Bool.and_eq_true, decide_eq_true_eq,
    UInt8.le_iff_toNat_le]
  constructor
  · split_ifs with h1 h2
    · exact he0 h1
    · exact hf0 h2
    · exact hc.1
  · split_ifs with h1 h2
    · exact hed h1
    · exact hf4 h2
    · exact hc.2

theorem takeScalar_four {b c d e : UInt8} {r : Bytes} (hw : charWidth b = 4)
    (hc : secondOk b c = true) (hd : isCont d = true) (he : isCont e = true) :
    takeScalar b (c :: d :: e :: r) = (some (Char.ofNat
      (b.toNat % 8 * 262144 + contBits c * 4096 + contBits d * 64 + contBits e)), r) := by
  simp [takeScalar, hw, hc, hd, he]

theorem takeScalar_encode (c : Char) (b : UInt8) (tl rest : Bytes)
    (h : String.utf8EncodeChar c = b :: tl) : takeScalar b (tl ++ rest) = (some c, rest) := by
  have hb := char_toNat_bounds c
  have hof : ∀ n, n = c.val.toNat → Char.ofNat n = c := fun n => ofNat_val c
  unfold String.utf8EncodeChar at h
  simp only at h
  generalize c.val.toNat = v at h hb hof
  have small : ∀ n < 256, (UInt8.ofNat n).toNat = n := fun n hn => UInt8.toNat_ofNat_of_lt' hn
  split at h
  · next h1 =>
    simp only [List.cons.injEq] at h
    obtain ⟨rfl, rfl⟩ := h
    have hb1 := small v (by omega)
    have hw : UInt8.ofNat v ≤ 0x7F := by
      simp only [UInt8.le_iff_toNat_le, UInt8.reduceToNat]; omega
    simp only [takeScalar, charWidth, hw, if_true, List.nil_append]
    rw [hb1, hof v rfl]
  split at h
  · next h1 h2 =>
    simp only [List.cons.injEq] at h
    obtain ⟨rfl, rfl⟩ := h
    have hb1 := small (v / 64 % 32 + 192) (by omega)
    have hb2 := small (v % 64 + 128) (by omega)
    have hw := charWidth_two (b := UInt8.ofNat (v / 64 % 32 + 192)) (by rw [hb1]; omega)
    have hc := isCont_of_toNat (b := UInt8.ofNat (v % 64 + 128)) (by rw [hb2]; omega)
    simp only [takeScalar, hw, List.cons_append, List.nil_append, hc, if_true, contBits]
    rw [hb1, hb2, hof _ (by omega)]
  split at h
  · next h1 h2 h3 =>
    simp only [List.cons.injEq] at h
    obtain ⟨rfl, rfl⟩ := h
    have hb1 := small (v / 4096 % 16 + 224) (by omega)
    have hb2 := small (v / 64 % 64 + 128) (by omega)
    have hb3 := small (v % 64 + 128) (by omega)
    have hw := charWidth_three (b := UInt8.ofNat (v / 4096 % 16 + 224)) (by rw [hb1]; omega)
    have hs := secondOk_of_toNat (b := UInt8.ofNat (v / 4096 % 16 + 224))
      (c := UInt8.ofNat (v / 64 % 64 + 128)) (by omega) (by omega) (by omega) (by omega) (by omega)
    have hc := isCont_of_toNat (b := UInt8.ofNat (v % 64 + 128)) (by rw [hb3]; omega)
    simp only [takeScalar, hw, List.cons_append, List.nil_append, hs, hc, Bool.not_true,
      Bool.false_eq_true, if_false, contBits]
    rw [hb1, hb2, hb3, hof _ (by omega)]
  · next h1 h2 h3 =>
    simp only [List.cons.injEq] at h
    obtain ⟨rfl, rfl⟩ := h
    have hb1 := small (v / 262144 % 8 + 240) (by omega)
    have hb2 := small (v / 4096 % 64 + 128) (by omega)
    have hb3 := small (v / 64 % 64 + 128) (by omega)
    have hb4 := small (v % 64 + 128) (by omega)
    have hw := charWidth_four (b := UInt8.ofNat (v / 262144 % 8 + 240)) (by rw [hb1]; omega)
    have hs := secondOk_of_toNat (b := UInt8.ofNat (v / 262144 % 8 + 240))
      (c := UInt8.ofNat (v / 4096 % 64 + 128)) (by omega) (by omega) (by omega) (by omega) (by omega)
    have hc := isCont_of_toNat (b := UInt8.ofNat (v / 64 % 64 + 128)) (by rw [hb3]; omega)
    have hd := isCont_of_toNat (b := UInt8.ofNat (v % 64 + 128)) (by rw [hb4]; omega)
    rw [List.cons_append, List.cons_append, List.cons_append, List.nil_append,
      takeScalar_four hw hs hc hd]
    unfold contBits
    rw [hb1, hb2, hb3, hb4, hof _ (by omega)]

/-! ### Whole strings -/

theorem lossyChars_length (fuel : ℕ) (bs : Bytes) : (lossyChars fuel bs).length ≤ bs.length := by
  induction fuel generalizing bs with
  | zero => simp [lossyChars]
  | succ fuel ih =>
    cases bs with
    | nil => simp [lossyChars]
    | cons b rest =>
      have h := ih (takeScalar b rest).2
      have hl := takeScalar_length b rest
      simp only [lossyChars, List.length_cons]
      omega

theorem lossyChars_append (cs : List Char) (tail : Bytes) (fuel : ℕ)
    (hf : (cs.flatMap String.utf8EncodeChar ++ tail).length ≤ fuel) :
    ∃ fuel', tail.length ≤ fuel' ∧
      lossyChars fuel (cs.flatMap String.utf8EncodeChar ++ tail) = cs ++ lossyChars fuel' tail := by
  induction cs generalizing fuel with
  | nil => exact ⟨fuel, by simpa using hf, rfl⟩
  | cons c cs ih =>
    obtain ⟨b, tl, hb⟩ := List.exists_cons_of_ne_nil (String.utf8EncodeChar_ne_nil (c := c))
    simp only [List.flatMap_cons, hb, List.cons_append, List.append_assoc, List.length_cons,
      List.length_append] at hf ⊢
    cases fuel with
    | zero => omega
    | succ fuel =>
      have hstep := takeScalar_encode c b tl (cs.flatMap String.utf8EncodeChar ++ tail) hb
      obtain ⟨fuel', hle, heq⟩ := ih fuel (by simp only [List.length_append]; omega)
      refine ⟨fuel', hle, ?_⟩
      simp only [lossyChars, hstep, Option.getD_some, heq]

theorem lossyChars_nil (fuel : ℕ) : lossyChars fuel [] = [] := by
  cases fuel <;> rfl

theorem fromUtf8Lossy_asBytes (s : String) : fromUtf8Lossy (asBytes s) = s := by
  obtain ⟨fuel, -, h⟩ := lossyChars_append s.toList [] (asBytes s).length (by simp [asBytes])
  simp only [List.append_nil, lossyChars_nil] at h
  rw [fromUtf8Lossy]
  have h2 : lossyChars (asBytes s).length (asBytes s) = s.toList := h
  rw [h2, String.ofList_toList]

/-! ### Cut-off strings -/

theorem encode_length_le (cs : List Char) :
    (cs.flatMap String.utf8EncodeChar).length ≤ 4 * cs.length := by
  induction cs with
  | nil => simp
  | cons c cs ih =>
    have hc := c.utf8Size_le_four
    simp only [List.flatMap_cons, List.length_append, String.length_utf8EncodeChar,
      List.length_cons]
    omega

/-- A cut through encoded characters leaves at most three bytes of a broken one. -/
theorem take_encode_split (cs : List Char) (m : ℕ)
    (hm : m ≤ (cs.flatMap String.utf8EncodeChar).length) :
    ∃ k tail, (cs.flatMap String.utf8EncodeChar).take m =
      (cs.take k).flatMap String.utf8EncodeChar ++ tail ∧ tail.length ≤ 3 := by
  induction cs generalizing m with
  | nil => exact ⟨0, [], by simp, by simp⟩
  | cons c cs ih =>
    have hsize := String.length_utf8EncodeChar c
    have h4 := c.utf8Size_le_four
    simp only [List.flatMap_cons, List.length_append] at hm ⊢
    by_cases hlt : m < (String.utf8EncodeChar c).length
    · refine ⟨0, (String.utf8EncodeChar c).take m, ?_, ?_⟩
      · rw [List.take_append_of_le_length (by omega)]
        rfl
      · simp only [List.length_take]
        omega
    · obtain ⟨k, tail, heq, hle⟩ := ih (m - (String.utf8EncodeChar c).length) (by omega)
      refine ⟨k + 1, tail, ?_, hle⟩
      rw [List.take_append, List.take_of_length_le (by omega), heq]
      simp [List.append_assoc]

/-- Decoding a string cut more than twelve bytes short never gives the string back,
whatever the replacement of the broken character adds. -/
theorem fromUtf8Lossy_take_ne (s : String) (m : ℕ) (h : m + 12 < strLen s) :
    fromUtf8Lossy ((asBytes s).take m) ≠ s := by
  intro heq
  have hm : m ≤ (s.toList.flatMap String.utf8EncodeChar).length := by
    simp only [strLen, asBytes] at h
    omega
  obtain ⟨k, tail, hsplit, htail⟩ := take_encode_split s.toList m hm
  obtain ⟨fuel, -, hchars⟩ := lossyChars_append (s.toList.take k) tail
    ((asBytes s).take m).length (by rw [← hsplit]; exact le_rfl)
  have hcs : s.toList = s.toList.take k ++ lossyChars fuel tail := by
    conv_lhs => rw [← heq]
    rw [fromUtf8Lossy, String.toList_ofList, ← hchars, ← hsplit]
    rfl
  have hlossy := lossyChars_length fuel tail
  have hbytes := encode_length_le (lossyChars fuel tail)
  have hcut : ((s.toList.take k).flatMap String.utf8EncodeChar).length ≤ m := by
    have hl := congrArg List.length hsplit
    simp only [List.length_take, List.length_append] at hl
    omega
  have htotal : strLen s = ((s.toList.take k).flatMap String.utf8EncodeChar).length +
      ((lossyChars fuel tail).flatMap String.utf8EncodeChar).length := by
    rw [strLen, asBytes]
    conv_lhs => rw [hcs]
    rw [List.flatMap_append, List.length_append]
  omega

end RustStd
