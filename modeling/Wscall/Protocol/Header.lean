import Wscall.Protocol.Codec

/-!
# The header checks of `decode` (`wscall-protocol/src/lib.rs:1018-1033`)

Three conditions on the length of a frame come before anything else in it is looked at.
What follows them fails with other errors.
-/

namespace Wscall.Protocol
open RustStd

/-- The two errors about a frame's length that only the header checks raise. -/
def ProtocolError.IsHeader : ProtocolError → Prop
  | .frameLengthMismatch .. | .frameTooLarge .. => True
  | _ => False

namespace FileAttachment

theorem readText_fails (lenWhat what : String) (data : Bytes) (pos : ℕ) :
    FailsOnly (fun e => ¬ e.IsHeader) (readText lenWhat what data pos) := by
  unfold readText
  split
  · simp [ProtocolError.IsHeader]
  · refine .bind (failsOnly_index _ _) fun len => .bind (failsOnly_addUsize _ _) fun start => ?_
    refine .bind (failsOnly_addUsize _ _) fun stop => ?_
    split
    · simp [ProtocolError.IsHeader]
    · exact .bind (failsOnly_slice _ _ _) fun text => failsOnly_ok _

theorem readWire_fails (data : Bytes) : FailsOnly (fun e => ¬ e.IsHeader) (readWire data) := by
  unfold readWire
  refine .bind (readText_fails _ _ _ _) fun id => .bind (readText_fails _ _ _ _) fun name => ?_
  refine .bind (readText_fails _ _ _ _) fun ct => .bind (failsOnly_addUsize _ _) fun body => ?_
  split
  · simp [ProtocolError.IsHeader]
  · refine .bind (failsOnly_readU32 _ _) fun dataLen => .bind (failsOnly_addUsize _ _) fun stop => ?_
    split
    · simp [ProtocolError.IsHeader]
    · exact .bind (failsOnly_slice _ _ _) fun payload =>
        .bind (failsOnly_slice _ _ _) fun rest => failsOnly_ok _

theorem readSections_fails (n : ℕ) (data : Bytes) :
    FailsOnly (fun e => ¬ e.IsHeader) (readSections n data) := by
  induction n generalizing data with
  | zero => exact failsOnly_ok _
  | succ n ih =>
    exact .bind (readWire_fails data) fun read => .bind (ih read.2) fun atts => failsOnly_ok _

end FileAttachment

namespace FrameCodec

/-! ### After the header -/

section Body

variable {libs : Libs} {c : FrameCodec}

theorem tryFrom_fails (b : UInt8) : FailsOnly (fun e => ¬ e.IsHeader) (MessageType.tryFrom b) := by
  unfold MessageType.tryFrom
  split_ifs <;> simp [ProtocolError.IsHeader]

theorem liftJson_fails {α : Type} (x : Except JsonError α) :
    FailsOnly (fun e => ¬ e.IsHeader) (liftJson x) := by
  cases x <;> simp [liftJson, ProtocolError.IsHeader]

theorem decryptWith_fails (algorithm : String) (aead : Aead) (cipher : Option Key)
    (payload : Bytes) :
    FailsOnly (fun e => ¬ e.IsHeader) (decryptWith algorithm aead cipher payload) := by
  unfold decryptWith
  split
  · cases cipher with
    | none => simp [ProtocolError.IsHeader]
    | some key =>
      dsimp only
      split <;> simp [ProtocolError.IsHeader]
  · simp [ProtocolError.IsHeader]

theorem recover_fails (payload : Bytes) :
    FailsOnly (fun e => ¬ e.IsHeader) (recover libs c payload) := by
  unfold recover
  split
  · exact failsOnly_ok _
  · exact decryptWith_fails _ _ _ _
  · exact decryptWith_fails _ _ _ _

theorem decodeComposite_fails (t : MessageType) (comp : Bytes) :
    FailsOnly (fun e => ¬ e.IsHeader) (decodeComposite libs c t comp) := by
  unfold decodeComposite
  split
  · simp [ProtocolError.IsHeader]
  · refine .bind (failsOnly_readU32 _ _) fun metaLen => .bind (failsOnly_addUsize _ _) fun stop => ?_
    refine .bind (failsOnly_addUsize _ _) fun start => ?_
    split
    · simp [ProtocolError.IsHeader]
    · refine .bind (failsOnly_slice _ _ _) fun json => .bind (failsOnly_index _ _) fun count => ?_
      refine .bind (failsOnly_slice _ _ _) fun attData => ?_
      refine .bind (FileAttachment.readSections_fails _ _) fun atts => .bind (liftJson_fails _) fun body => ?_
      dsimp only
      split <;> simp [ProtocolError.IsHeader]

end Body

/-! ### The header -/

/-- The length prefix, 0 where there is none. -/
def declaredLen : Bytes → ℕ
  | a :: b :: c :: d :: _ => (fromBeBytes a b c d).toNat
  | _ => 0

/-- What the header checks object to. -/
def headerError (limit : ℕ) (f : Bytes) : Option ProtocolError :=
  if f.length < 5 then some .frameTooShort
  else if declaredLen f ≠ f.length - 4 then
    some (.frameLengthMismatch (declaredLen f) (f.length - 4))
  else if f.length > limit then some (.frameTooLarge f.length limit)
  else none

theorem readU32_declaredLen {f : Bytes} (h : ¬ f.length < 5) :
    (readU32 f 0 : Checked ProtocolError ℕ) = .ok (declaredLen f) := by
  match f with
  | [] | [_] | [_, _] | [_, _, _] => simp at h
  | a :: b :: c :: d :: rest => rfl

section Decode

variable {libs : Libs} {c : FrameCodec} {f : Bytes}

theorem decode_of_headerError {e : ProtocolError} (h : headerError c.maxFrameBytes f = some e) :
    decode libs c f = fail e := by
  unfold headerError at h
  unfold decode
  split_ifs at h with hshort hsame hmax <;> cases h
  · rw [if_pos hshort]
  · rw [if_neg hshort, readU32_declaredLen hshort, ok_bind]
    exact if_pos hsame
  · rw [if_neg hshort, readU32_declaredLen hshort, ok_bind]
    dsimp only
    rw [if_neg hsame, if_pos hmax]

theorem decode_fails_of_header (h : headerError c.maxFrameBytes f = none) :
    FailsOnly (fun e => ¬ e.IsHeader) (decode libs c f) := by
  unfold headerError at h
  split_ifs at h with hshort hsame hmax
  unfold decode
  rw [if_neg hshort, readU32_declaredLen hshort, ok_bind]
  dsimp only
  rw [if_neg hsame, if_neg hmax]
  refine .bind (failsOnly_index _ _) fun b => .bind (tryFrom_fails b) fun t => ?_
  refine .bind (failsOnly_slice _ _ _) fun payload => .bind (recover_fails payload) fun comp => ?_
  exact decodeComposite_fails t comp

/-- `decode` fails on the header: fewer than five bytes, or one of the two header errors. -/
def FailsOnHeader (libs : Libs) (c : FrameCodec) (f : Bytes) : Prop :=
  f.length < 5 ∨ (∃ declared actual, decode libs c f = fail (.frameLengthMismatch declared actual)) ∨
    ∃ actual max, decode libs c f = fail (.frameTooLarge actual max)

theorem failsOnHeader_iff : FailsOnHeader libs c f ↔ headerError c.maxFrameBytes f ≠ none := by
  constructor
  · intro h hnone
    have hbody : FailsOnly _ (decode libs c f) := decode_fails_of_header hnone
    rcases h with hshort | ⟨declared, actual, h⟩ | ⟨actual, max, h⟩
    · simp [headerError, hshort] at hnone
    · exact hbody _ h trivial
    · exact hbody _ h trivial
  · intro h
    obtain ⟨e, he⟩ := Option.ne_none_iff_exists'.mp h
    have hdec : decode libs c f = fail e := decode_of_headerError he
    unfold headerError at he
    split_ifs at he with hshort hsame hmax <;> cases he
    · exact .inl hshort
    · exact .inr (.inl ⟨_, _, hdec⟩)
    · exact .inr (.inr ⟨_, _, hdec⟩)

end Decode

end FrameCodec

end Wscall.Protocol
