import WireCodec.Proofs.Bridge.Replies
import WireCodec.Proofs.Text.Hexadecimal
import WireCodec.Proofs.Text.Scalars

/-!
# The verdict on an answer

An answer to the handshake is judged as a text, yet its bytes decide the verdict: every answer is of exactly one of four
kinds, which are told by the bytes it begins with, and both the check and the reply of the bridge follow the kind
(`check_follows_kind`).  Of a rejection the word is cut off, and after it one whole character, or one byte that begins
none.
-/

namespace WireCodec.Handshake

/-! ### Kinds of answers -/

/-- The kinds of answers to the handshake. -/
inductive Kind
  | empty
  | accepted
  | rejected
  | malformed

/-- The bytes of the answers of a kind. -/
def Kind.Matches (data : Bytes) : Kind → Prop
  | .empty => data = []
  | .accepted => Utf8.encodeAll acceptance <+: Frame.payload data
  | .rejected => Utf8.encodeAll rejection <+: Frame.payload data
  | .malformed => data ≠ [] ∧ ¬Utf8.encodeAll acceptance <+: Frame.payload data ∧
      ¬Utf8.encodeAll rejection <+: Frame.payload data

/-- The outcomes of the check for a kind. -/
def Kind.Checks (outcome : Except CodecError Unit) : Kind → Prop
  | .empty => outcome = .error (.emptyFrame CodecError.versionResponse)
  | .accepted => outcome = .ok ()
  | .rejected => ∃ reason, outcome = .error (.versionMismatch reason)
  | .malformed => ∃ answer, outcome = .error (.malformedReply answer)

/-- The replies of the bridge for a kind. -/
def Kind.Replies (result : Json) : Kind → Prop
  | .empty => ∃ message, result = .obj [(Text.ofString "error", .obj [(Text.ofString "code", .int 2001),
      (Text.ofString "message", .str message), (Text.ofString "isRetryable", .bool false)])]
  | .accepted => result = .obj [(Text.ofString "ok", .bool true), (Text.ofString "version", .int version)]
  | .rejected => ∃ message, result = .obj [(Text.ofString "error", .obj [(Text.ofString "code", .int 1004),
      (Text.ofString "message", .str message), (Text.ofString "isRetryable", .bool false)])]
  | .malformed => ∃ message answer, result = .obj [(Text.ofString "error", .obj [(Text.ofString "code", .int 2001),
      (Text.ofString "message", .str message),
      (Text.ofString "details", .obj [(Text.ofString "reply", .str answer)]),
      (Text.ofString "isRetryable", .bool false)])]

variable {data : Bytes} {k k' : Kind}

theorem Kind.exists_matches (data : Bytes) : ∃ k : Kind, k.Matches data := by
  by_cases hempty : data = []
  · exact ⟨.empty, hempty⟩
  by_cases haccepted : Utf8.encodeAll acceptance <+: Frame.payload data
  · exact ⟨.accepted, haccepted⟩
  by_cases hrejected : Utf8.encodeAll rejection <+: Frame.payload data
  · exact ⟨.rejected, hrejected⟩
  · exact ⟨.malformed, hempty, haccepted, hrejected⟩

theorem Kind.Checks.unique {outcome : Except CodecError Unit} (h : k.Checks outcome) (h' : k'.Checks outcome) :
    k = k' := by
  cases k <;> cases k' <;> grind [Checks]

theorem Kind.Replies.unique {result : Json} (h : k.Replies result) (h' : k'.Replies result) : k = k' := by
  cases k <;> cases k' <;> grind [Replies]

/-! ### The check -/

/-- No answer begins with both words: their tenth characters differ. -/
theorem not_rejected_of_accepted (h : Kind.accepted.Matches data) : ¬Kind.rejected.Matches data := by
  intro h'
  have hle : (Utf8.encodeAll acceptance).length ≤ (Utf8.encodeAll rejection).length := by decide
  have hprefix := List.prefix_of_prefix_length_le h h' hle
  revert hprefix
  decide

private theorem isScalar_acceptance : acceptance.IsScalar := Text.isScalar_ofString _

private theorem isScalar_rejection : rejection.IsScalar := Text.isScalar_ofString _

private theorem ne_nil_of_prefix {word : Text} (hword : Utf8.encodeAll word ≠ [])
    (h : Utf8.encodeAll word <+: Frame.payload data) : data ≠ [] := by
  rintro rfl
  exact hword (List.prefix_nil.1 h)

private theorem isPrefixOf_iff {word : Text} (hword : word.IsScalar) :
    word.isPrefixOf (Utf8.decodeLossless (Frame.payload data)) = true ↔
      Utf8.encodeAll word <+: Frame.payload data := by
  rw [List.isPrefixOf_iff_prefix, Utf8.prefix_decodeLossless_iff hword]

private theorem check_of_accepted (h : Kind.accepted.Matches data) : check data = .ok () := by
  have hne : data ≠ [] := ne_nil_of_prefix (by decide) h
  have htext := (isPrefixOf_iff isScalar_acceptance).2 h
  rw [check, if_neg hne]
  exact if_pos htext

private theorem check_of_rejected (h : Kind.rejected.Matches data) :
    check data = .error (.versionMismatch ((Utf8.decodeLossless (Frame.payload data)).drop (rejection.length + 1))) := by
  have hne : data ≠ [] := ne_nil_of_prefix (by decide) h
  have haccepted : ¬Kind.accepted.Matches data := fun haccepted => not_rejected_of_accepted haccepted h
  have hnot := mt (isPrefixOf_iff isScalar_acceptance).1 haccepted
  have htext := (isPrefixOf_iff isScalar_rejection).2 h
  rw [check, if_neg hne]
  exact (if_neg hnot).trans (if_pos htext)

private theorem check_of_malformed (h : Kind.malformed.Matches data) :
    check data = .error (.malformedReply (Utf8.decodeLossless (Frame.payload data))) := by
  obtain ⟨hne, haccepted, hrejected⟩ := h
  have hnot := mt (isPrefixOf_iff isScalar_acceptance).1 haccepted
  have hnot' := mt (isPrefixOf_iff isScalar_rejection).1 hrejected
  rw [check, if_neg hne]
  exact (if_neg hnot).trans (if_neg hnot')

theorem Kind.Matches.checks (h : k.Matches data) : k.Checks (check data) := by
  cases k with
  | empty => exact if_pos h
  | accepted => exact check_of_accepted h
  | rejected => exact ⟨_, check_of_rejected h⟩
  | malformed => exact ⟨_, check_of_malformed h⟩

/-- The reason of a rejection is what stands after the word, without its first code point. -/
theorem check_of_payload_eq {rest : Bytes} (h : Frame.payload data = Utf8.encodeAll rejection ++ rest) :
    check data = .error (.versionMismatch ((Utf8.decodeLossless rest).drop 1)) := by
  have hmatches : Kind.rejected.Matches data := ⟨rest, h.symm⟩
  rw [check_of_rejected hmatches, h, Utf8.decodeLossless_encodeAll_append isScalar_rejection, ← List.drop_drop,
    List.drop_left]

/-! ### The reply of the bridge -/

theorem Kind.Matches.replies (h : k.Matches data) {frameHex : Text} (hframe : Hex.decode frameHex = .ok data) :
    k.Replies (Bridge.checkHandshakeReply frameHex).result := by
  have hchecks := h.checks
  rw [Bridge.checkHandshakeReply, Bridge.frameOfHex_of_ok hframe]
  dsimp only
  cases k with
  | empty =>
    rw [show check data = _ from hchecks]
    exact ⟨_, rfl⟩
  | accepted =>
    rw [show check data = _ from hchecks]
    rfl
  | rejected =>
    obtain ⟨reason, hreason⟩ := hchecks
    rw [hreason]
    exact ⟨reason, rfl⟩
  | malformed =>
    obtain ⟨answer, hanswer⟩ := hchecks
    rw [hanswer]
    exact ⟨_, answer, rfl⟩

/-- Every answer is of exactly one kind, which its bytes tell.  The check has the outcomes of this kind and no others,
and so has the reply of the bridge, in whatever hexadecimal text the answer comes.  The reason of a rejection is read
from the bytes after the word without the first of them: a whole character, or one byte that begins none. -/
theorem check_follows_kind (data : Bytes) :
    (∃! k : Kind, k.Matches data) ∧ (∀ k : Kind, k.Checks (check data) ↔ k.Matches data) ∧
    (∀ rest, Frame.payload data = Utf8.encodeAll rejection ++ rest → ∃ kept, Utf8.DropsFirst rest kept ∧
      (Utf8.decodeLossless rest).drop 1 = Utf8.decodeLossless kept ∧
      check data = .error (.versionMismatch (Utf8.decodeLossless kept))) ∧
    ∀ frameHex, Hex.decode frameHex = .ok data →
      ∀ k : Kind, k.Replies (Bridge.checkHandshakeReply frameHex).result ↔ k.Matches data := by
  obtain ⟨k₀, h₀⟩ := Kind.exists_matches data
  refine ⟨⟨k₀, h₀, fun k h => h.checks.unique h₀.checks⟩, fun k => ?_, fun rest hrest => ?_, fun frameHex hframe k => ?_⟩
  · refine ⟨fun h => ?_, Kind.Matches.checks⟩
    rwa [h.unique h₀.checks]
  · obtain ⟨kept, hkept, hdrop⟩ := Utf8.exists_dropsFirst rest
    exact ⟨kept, hkept, hdrop, by rw [check_of_payload_eq hrest, hdrop]⟩
  · refine ⟨fun h => ?_, fun h => h.replies hframe⟩
    rwa [h.unique (h₀.replies hframe)]

/-- A rejection with a letter of two bytes directly after the word, then a byte that is no UTF-8. -/
def unspacedRejection : Bytes := Utf8.encodeAll rejection ++ [0xC3, 0xA9, 0xFF, Frame.eot]

theorem check_unspacedRejection :
    Frame.payload unspacedRejection = Utf8.encodeAll rejection ++ [0xC3, 0xA9, 0xFF] ∧
      (∃ kept, Utf8.DropsFirst [0xC3, 0xA9, 0xFF] kept ∧
        check unspacedRejection = .error (.versionMismatch (Utf8.decodeLossless kept))) ∧
      Hex.decode (Hex.encode unspacedRejection) = .ok unspacedRejection ∧
      Kind.rejected.Replies (Bridge.checkHandshakeReply (Hex.encode unspacedRejection)).result := by
  have hpayload : Frame.payload unspacedRejection = Utf8.encodeAll rejection ++ [0xC3, 0xA9, 0xFF] := by decide
  have hmatches : Kind.rejected.Matches unspacedRejection := ⟨_, hpayload.symm⟩
  have hframe := Hex.decode_encode unspacedRejection
  obtain ⟨-, -, hreason, hreplies⟩ := check_follows_kind unspacedRejection
  obtain ⟨kept, hkept, -, hcheck⟩ := hreason _ hpayload
  exact ⟨hpayload, ⟨kept, hkept, hcheck⟩, hframe, (hreplies _ hframe .rejected).2 hmatches⟩

end WireCodec.Handshake
