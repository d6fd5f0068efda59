import Wscall.Protocol.RoundTrip

/-!
# Decoding stays in bounds (`wscall-protocol/src/lib.rs:247-325`, `1017-1116`)

Five length fields of a frame are chosen by the sender. Each position computed from them is
compared with the buffer before it is used, so `decode` has no way to panic; and what a
section declares is what its reader consumes.
-/

namespace Wscall.Protocol
open RustStd

namespace WireSection

/-- The bytes of a section: three length bytes, the word of the data length, and the four
declared lengths. -/
def size (s : WireSection) : ℕ :=
  7 + s.id.length + s.name.length + s.contentType.length + s.data.length

theorem bytes_length (s : WireSection) (rest : Bytes) :
    (s.bytes rest).length = rest.length + s.size := by
  simp only [bytes, text, List.length_cons, List.length_append, toBeBytes_length, size]
  omega

theorem suffix_text {bs mid rest : Bytes} (h : rest <:+ mid) : rest <:+ text bs mid :=
  (h.trans (List.suffix_append bs mid)).trans (List.suffix_cons ..)

theorem suffix_bytes (s : WireSection) (rest : Bytes) : rest <:+ s.bytes rest := by
  refine suffix_text (suffix_text (suffix_text ?_))
  exact (List.suffix_append s.data rest).trans (List.suffix_append _ _)

theorem Starts.sizes {n : ℕ} {input rest : Bytes} {ss : List WireSection}
    (h : Starts n input ss rest) : input.length = rest.length + (ss.map size).sum := by
  induction h with
  | done rest => simp
  | @more n s mid rest ss tail ih =>
    rw [bytes_length, ih, List.map_cons, List.sum_cons]
    omega

end WireSection

namespace FileAttachment
open WireSection

variable {data : Bytes} {pos : ℕ}

theorem returns_readText (lenWhat what : String) (hmem : Allocated data) :
    Returns (readText lenWhat what data pos) := by
  unfold readText Allocated at *
  split
  · exact returns_fail _
  · refine (returns_index (by omega)).bind fun len _ => ?_
    have hbyte := len.toNat_lt
    rw [addUsize_ok (by omega), ok_bind, addUsize_ok (by omega), ok_bind]
    split
    · exact returns_fail _
    · exact (returns_slice (by omega) (by omega)).bind fun _ _ => returns_ok _

theorem readText_le {lenWhat what s : String} {stop : ℕ}
    (h : readText lenWhat what data pos = .ok (s, stop)) : stop ≤ data.length := by
  unfold readText at h
  split at h
  · simp at h
  · obtain ⟨len, -, h⟩ := bind_eq_ok h
    obtain ⟨start, -, h⟩ := bind_eq_ok h
    obtain ⟨stop', -, h⟩ := bind_eq_ok h
    split at h
    · simp at h
    · rename_i hle
      obtain ⟨text, -, h⟩ := bind_eq_ok h
      cases h
      exact not_lt.mp hle

theorem returns_readWire (hmem : Allocated data) : Returns (readWire data) := by
  unfold readWire
  refine (returns_readText _ _ hmem).bind fun id _ => ?_
  refine (returns_readText _ _ hmem).bind fun name _ => ?_
  refine (returns_readText _ _ hmem).bind fun ct hct => ?_
  have hle := readText_le hct
  have hlen : data.length < 2 ^ 63 := hmem
  dsimp only
  rw [addUsize_ok (by omega), ok_bind]
  split
  · exact returns_fail _
  · refine (returns_readU32 (by omega) hmem).bind fun dataLen hdata => ?_
    have hword := (readU32_inv hdata).1
    rw [addUsize_ok (by omega), ok_bind]
    split
    · exact returns_fail _
    · refine (returns_slice (by omega) (by omega)).bind fun payload _ => ?_
      exact (returns_slice (by omega) le_rfl).bind fun rest _ => returns_ok _

theorem readWire_consumes {a : FileAttachment} {rest : Bytes} (h : readWire data = .ok (a, rest)) :
    ∃ s : WireSection, data = s.bytes rest ∧ a = s.attachment ∧ rest <:+ data ∧
      data.length = rest.length + s.size := by
  obtain ⟨s, rfl, rfl⟩ := readWire_inv h
  exact ⟨s, rfl, rfl, s.suffix_bytes rest, s.bytes_length rest⟩

theorem returns_readSections (n : ℕ) (hmem : Allocated data) : Returns (readSections n data) := by
  induction n generalizing data with
  | zero => exact returns_ok _
  | succ n ih =>
    refine (returns_readWire hmem).bind fun read hread => ?_
    obtain ⟨s, -, -, -, hlen⟩ := readWire_consumes hread
    have hrest : Allocated read.2 := lt_of_le_of_lt (by omega) hmem
    exact (ih hrest).bind fun _ _ => returns_ok _

end FileAttachment

namespace FrameCodec
open WireSection

variable {libs : Libs} {c : FrameCodec}

theorem returns_tryFrom (b : UInt8) : Returns (MessageType.tryFrom b) := by
  unfold MessageType.tryFrom
  split_ifs <;> simp

theorem returns_liftJson {α : Type} (x : Except JsonError α) : Returns (liftJson x) := by
  cases x <;> simp [liftJson]

theorem returns_decryptWith (algorithm : String) (aead : Aead) (cipher : Option Key)
    (payload : Bytes) : Returns (decryptWith algorithm aead cipher payload) := by
  unfold decryptWith
  split
  · cases cipher with
    | none => exact returns_fail _
    | some key =>
      dsimp only
      split <;> simp
  · exact returns_fail _

theorem returns_recover (payload : Bytes) : Returns (recover libs c payload) := by
  unfold recover
  split
  · exact returns_ok _
  · exact returns_decryptWith _ _ _ _
  · exact returns_decryptWith _ _ _ _

theorem returns_decodeComposite (t : MessageType) {comp : Bytes} (hmem : Allocated comp) :
    Returns (decodeComposite libs c t comp) := by
  have hlen : comp.length < 2 ^ 63 := hmem
  unfold decodeComposite
  split
  · exact returns_fail _
  · refine (returns_readU32 (by omega) hmem).bind fun metaLen hmeta => ?_
    have hword := (readU32_inv hmeta).1
    rw [addUsize_ok (by omega), ok_bind, addUsize_ok (by omega), ok_bind]
    split
    · exact returns_fail _
    · refine (returns_slice (by omega) (by omega)).bind fun json _ => ?_
      refine (returns_index (by omega)).bind fun count _ => ?_
      rw [sliceFrom_eq_drop (by omega), ok_bind]
      have hrest : Allocated (comp.drop (4 + metaLen + 1)) := by
        refine lt_of_le_of_lt ?_ hmem
        rw [List.length_drop]
        omega
      refine (FileAttachment.returns_readSections _ hrest).bind fun atts _ => ?_
      refine (returns_liftJson _).bind fun body _ => ?_
      dsimp only
      split <;> simp

theorem returns_decode {f : Bytes} (hmem : Allocated f)
    (hcomp : ∀ comp, recover libs c (f.drop 5) = .ok comp → Allocated comp) :
    Returns (decode libs c f) := by
  unfold decode
  split
  · exact returns_fail _
  · refine (returns_readU32 (by omega) hmem).bind fun declared _ => ?_
    dsimp only
    split
    · exact returns_fail _
    · split
      · exact returns_fail _
      · refine (returns_index (by omega)).bind fun b _ => ?_
        refine (returns_tryFrom b).bind fun t _ => ?_
        rw [sliceFrom_eq_drop (by omega), ok_bind]
        exact (returns_recover _).bind fun comp hrec => returns_decodeComposite t (hcomp comp hrec)

/-- No frame, no recovered composite and no section makes `decode` panic. A section that is
read is consumed whole, and the at most 255 sections of a frame fit in its composite. -/
theorem decode_in_bounds (libs : Libs) (c : FrameCodec) :
    (∀ f, Allocated f → (∀ comp, recover libs c (f.drop 5) = .ok comp → Allocated comp) →
      (∃ p, decode libs c f = .ok p) ∨ ∃ e, decode libs c f = fail e) ∧
    (∀ data, Allocated data → Returns (FileAttachment.readWire data)) ∧
    (∀ data a rest, FileAttachment.readWire data = .ok (a, rest) →
      ∃ s : WireSection, data = s.bytes rest ∧ a = s.attachment ∧ rest <:+ data ∧
        data.length = rest.length +
          (7 + s.id.length + s.name.length + s.contentType.length + s.data.length)) ∧
    (∀ (comp attData : Bytes) (count : UInt8), attData <:+ comp → ∀ n ≤ count.toNat, ∀ as rest,
      FileAttachment.readSections n attData = .ok (as, rest) →
      ∃ ss : List WireSection, as = ss.map attachment ∧ ss.length ≤ 255 ∧
        (ss.map size).sum ≤ comp.length) := by
  refine ⟨fun f hf hcomp => ?_, fun data => FileAttachment.returns_readWire,
    fun data a rest h => FileAttachment.readWire_consumes h, fun comp attData count hsuf n hn as rest h => ?_⟩
  · have hret : Returns (decode libs c f) := returns_decode hf hcomp
    cases hdec : decode libs c f with
    | ok p => exact .inl ⟨p, rfl⟩
    | error e =>
      cases e with
      | err e => exact .inr ⟨e, rfl⟩
      | panic => exact absurd hdec hret
  · obtain ⟨ss, hss, rfl⟩ := FileAttachment.readSections_inv h
    have hlen := hss.count
    have hsize := hss.sizes
    have hbyte := count.toNat_lt
    have hle := hsuf.length_le
    exact ⟨ss, rfl, by omega, by omega⟩

/-- One announced section that ends inside its id. -/
theorem decode_in_bounds_truncated :
    (∃ p, decode echoLibs plaintext [0, 0, 0, 7, 0, 0, 0, 0, 0, 1, 255] = .ok p) ∨
      ∃ e, decode echoLibs plaintext [0, 0, 0, 7, 0, 0, 0, 0, 0, 1, 255] = fail e := by
  refine (decode_in_bounds echoLibs plaintext).1 _ (by simp [Allocated]) fun comp hcomp => ?_
  cases hcomp
  simp [Allocated]

end FrameCodec

end Wscall.Protocol
