import WireCodec.Proofs.Json.ReadBack
import WireCodec.Proofs.TransportError.Acceptance
import WireCodec.Proofs.TransportError.Documents

/-!
# Errors survive the wire

An error that is written and read back is the same error: code, message, details with the order of their names at
every level, and the flag, whether it follows from the code or not.  The details may be nested as deeply as there is room
for and may hold any numbers, with as many digits in an integer as are read.
-/

namespace WireCodec.TransportError

/-- What an error must be like to be read again with the given room for nested values, if not as the same error. -/
structure IsReadable (depth : Nat) (e : TransportError) : Prop where
  integers : (Json.obj e.details).Forall (Json.IsShortInt Text.maxIntegerDigits)
  nesting : e.toJson.depth ≤ depth

/-- What an error must be like to survive the wire.  Surrogates may stand in its texts, but not as a high one directly
before a low one. -/
structure IsPortable (depth : Nat) (e : TransportError) : Prop extends e.IsReadable depth where
  message : e.message.IsUnpaired
  details : (Json.obj e.details).Forall Json.HasUnpairedText
  names : (Json.obj e.details).HasUniqueNames

theorem isSaidBy_toMembers (e : TransportError) : e.IsSaidBy (Members.get? · e.toMembers) := by
  obtain ⟨code, message, details, retryable⟩ := e
  cases details with
  | nil => exact ⟨rfl, rfl, ⟨none, .absent, rfl⟩, ⟨some retryable, .value retryable, rfl⟩⟩
  | cons m details => exact ⟨rfl, rfl, ⟨some (m :: details), .value _, rfl⟩, ⟨some retryable, .value retryable, rfl⟩⟩

theorem mem_toMembers {e : TransportError} {m : Text × Json} (h : m ∈ e.toMembers) :
    m = (Text.ofString "code", .int e.code.value) ∨ m = (Text.ofString "message", .str e.message) ∨
      (e.details ≠ [] ∧ m = (Text.ofString "details", .obj e.details)) ∨
      m = (Text.ofString "isRetryable", .bool e.retryable) := by
  unfold toMembers at h
  split at h
  · simp only [List.append_nil, List.cons_append, List.nil_append, List.mem_cons, List.not_mem_nil, or_false] at h
    rcases h with h | h | h
    · exact .inl h
    · exact .inr (.inl h)
    · exact .inr (.inr (.inr h))
  · next hdetails =>
    simp only [List.cons_append, List.nil_append, List.mem_cons, List.not_mem_nil, or_false] at h
    exact h.imp_right (Or.imp_right (Or.imp_left (And.intro (mt List.isEmpty_iff.2 hdetails))))

theorem nodup_toMembers (e : TransportError) : (e.toMembers.map Prod.fst).Nodup := by
  unfold toMembers
  split
  · show [Text.ofString "code", Text.ofString "message", Text.ofString "isRetryable"].Nodup
    decide
  · show [Text.ofString "code", Text.ofString "message", Text.ofString "details", Text.ofString "isRetryable"].Nodup
    decide

theorem isUnpaired_of_mem_toMembers {e : TransportError} {m : Text × Json} (h : m ∈ e.toMembers) :
    m.1.IsUnpaired := by
  rcases mem_toMembers h with rfl | rfl | ⟨-, rfl⟩ | rfl <;> dsimp only <;> decide

variable {depth : Nat} {e : TransportError}

/-- Of the members only the details are nested, and they are there only if they are not empty. -/
theorem depth_toJson_le {bound : Nat} (h : e.details ≠ [] → (Json.obj e.details).depth ≤ bound) :
    e.toJson.depth ≤ bound + 1 := by
  refine Json.depth_obj_le fun m hm => ?_
  rcases mem_toMembers hm with rfl | rfl | ⟨hne, rfl⟩ | rfl
  · exact Nat.zero_le bound
  · exact Nat.zero_le bound
  · exact h hne
  · exact Nat.zero_le bound

/-- An error survives the wire if its details are short integers and texts without pairs of surrogates. -/
theorem isPortable_of_flat (hdepth : 2 ≤ depth) (hmessage : e.message.IsUnpaired)
    (hnodup : (e.details.map Prod.fst).Nodup) (hnames : ∀ m ∈ e.details, m.1.IsUnpaired)
    (hflat : ∀ m ∈ e.details, (∃ n, m.2 = .int n ∧ (Json.int n).IsShortInt Text.maxIntegerDigits) ∨
      ∃ t, m.2 = .str t ∧ t.IsUnpaired) : e.IsPortable depth where
  integers := by
    refine Json.forall_obj.2 ⟨trivial, fun m hm => ?_⟩
    rcases hflat m hm with ⟨n, hn, hshort⟩ | ⟨t, ht, -⟩
    · rw [hn]
      exact hshort
    · rw [ht]
      exact trivial
  nesting := by
    have hvalues : ∀ m ∈ e.details, m.2.depth ≤ 0 := by
      intro m hm
      rcases hflat m hm with ⟨n, hn, -⟩ | ⟨t, ht, -⟩
      · rw [hn]
        exact Nat.le_refl 0
      · rw [ht]
        exact Nat.le_refl 0
    exact Nat.le_trans (depth_toJson_le fun _ => Json.depth_obj_le hvalues) hdepth
  message := hmessage
  details := by
    refine Json.forall_obj.2 ⟨hnames, fun m hm => ?_⟩
    rcases hflat m hm with ⟨n, hn, -⟩ | ⟨t, ht, hunpaired⟩
    · rw [hn]
      exact trivial
    · rw [ht]
      exact hunpaired
  names := by
    refine Json.hasUniqueNames_obj.2 ⟨hnodup, fun m hm => ?_⟩
    rcases hflat m hm with ⟨n, hn, -⟩ | ⟨t, ht, -⟩
    · rw [hn]
      exact trivial
    · rw [ht]
      exact trivial

theorem isReadable_of_details_eq_nil (hdepth : 1 ≤ depth) (h : e.details = []) : e.IsReadable depth where
  integers := by
    rw [h]
    exact Json.forall_obj.2 ⟨trivial, nofun⟩
  nesting := Nat.le_trans (depth_toJson_le (absurd h)) hdepth

/-- Without details only the message matters. -/
theorem isPortable_of_details_eq_nil (hdepth : 1 ≤ depth) (hmessage : e.message.IsUnpaired)
    (hdetails : e.details = []) : e.IsPortable depth where
  toIsReadable := isReadable_of_details_eq_nil hdepth hdetails
  message := hmessage
  details := by
    rw [hdetails]
    exact Json.forall_obj.2 ⟨nofun, nofun⟩
  names := by
    rw [hdetails]
    exact Json.hasUniqueNames_obj.2 ⟨List.nodup_nil, nofun⟩

private theorem IsReadable.integers_toJson (h : e.IsReadable depth) :
    e.toJson.Forall (Json.IsShortInt Text.maxIntegerDigits) := by
  refine Json.forall_obj.2 ⟨trivial, fun m hm => ?_⟩
  rcases mem_toMembers hm with rfl | rfl | ⟨-, rfl⟩ | rfl
  · show (Text.ofNat e.code.value).length ≤ Text.maxIntegerDigits
    cases e.code <;> decide
  · exact trivial
  · exact h.integers
  · exact trivial

private theorem IsPortable.isWritable (h : e.IsPortable depth) : e.toJson.IsWritable (.lenient depth) where
  integers := h.integers_toJson
  floats := .inl rfl
  texts := by
    refine Json.forall_obj.2 ⟨fun m hm => isUnpaired_of_mem_toMembers hm, fun m hm => ?_⟩
    rcases mem_toMembers hm with rfl | rfl | ⟨-, rfl⟩ | rfl
    · exact trivial
    · exact h.message
    · exact h.details
    · exact trivial
  names := by
    refine Json.hasUniqueNames_obj.2 ⟨nodup_toMembers e, fun m hm => ?_⟩
    rcases mem_toMembers hm with rfl | rfl | ⟨-, rfl⟩ | rfl
    · exact trivial
    · exact trivial
    · exact h.names
    · exact trivial

/-- The line of an error begins with a brace and a quote. -/
private theorem serializeText_eq_cons (e : TransportError) :
    ∃ t, e.serializeText = .ofChar '\x7b' :: .ofChar '\x22' :: t := by
  have hmembers : ∃ rest, e.toMembers = (Text.ofString "code", .int e.code.value) :: rest := ⟨_, rfl⟩
  obtain ⟨rest, hrest⟩ := hmembers
  rw [serializeText, toJson, hrest, Json.write]
  exact ⟨_, rfl⟩

theorem read_serializeText_joined (h : e.IsReadable depth) :
    Json.read (.lenient depth) e.serializeText = .ok e.toJson.joined :=
  Json.read_write_joined Json.Spacing.isBlank_compact h.integers_toJson (.inl rfl) h.nesting

theorem readBytes_serialize_joined (h : e.IsReadable depth) :
    Json.readBytes (.lenient depth) e.serialize = .ok e.toJson.joined := by
  have hscalar : e.serializeText.IsScalar := Json.isScalar_write Json.Spacing.isBlank_compact e.toJson
  have hstart : e.serializeText.BeginsAscii := by
    obtain ⟨t, ht⟩ := serializeText_eq_cons e
    exact Text.beginsAscii_iff.2 ⟨_, _, t, ht, by decide, by decide⟩
  have hread : Json.readBytes (.lenient depth) e.serialize =
      (Json.read (.lenient depth) e.serializeText).mapError .text :=
    (Json.readBytes_encodeAll (.lenient depth) hscalar hstart .utf8).1
  rw [hread, read_serializeText_joined h]
  rfl

theorem readBytes_serialize (h : e.IsPortable depth) : Json.readBytes (.lenient depth) e.serialize = .ok e.toJson := by
  rw [readBytes_serialize_joined h.toIsReadable, Json.joined_eq_self h.isWritable.texts h.isWritable.names]

theorem deserialize_of_read {payload : Text} (h : Json.read (.lenient depth) payload = .ok e.toJson) :
    deserialize depth payload = .ok e :=
  deserialize_eq_ok_iff.2 ⟨e.toMembers, h, isSaidBy_toMembers e⟩

theorem deserializeBytes_of_readBytes {payload : Bytes} (h : Json.readBytes (.lenient depth) payload = .ok e.toJson) :
    deserializeBytes depth payload = .ok e :=
  deserializeBytes_eq_ok_iff.2 ⟨e.toMembers, h, isSaidBy_toMembers e⟩

/-- What is written for an error is read back as this error. -/
theorem deserializeBytes_serialize (h : e.IsPortable depth) : deserializeBytes depth e.serialize = .ok e :=
  deserializeBytes_of_readBytes (readBytes_serialize h)

/-- The object of an error can be written with other blanks, and is read from a text as this error. -/
theorem deserialize_write (h : e.IsPortable depth) {s : Json.Spacing} (hs : s.IsBlank) :
    deserialize depth (e.toJson.write s) = .ok e :=
  deserialize_of_read (Json.read_write hs h.isWritable h.nesting)

/-- An error whose flag contradicts its code, with a lone surrogate and a quote in its message, and with numbers
of all kinds and names out of order in its details. -/
def contradictory : TransportError :=
  ⟨.timeout, .highHalf (.ofChar '𐀀') :: Text.ofString "\"\n\u00e9",
    [(Text.ofString "z", .arr [.float .nan, .float (.ofDecimal ⟨true, 15, -1⟩), .int (-7), .obj []]),
      ([.ofChar '😀'], .obj [([], .str [.lowHalf (.ofChar '𐀀'), .highHalf (.ofChar '𐀀')])])], false⟩

theorem deserializeBytes_serialize_contradictory :
    contradictory.IsPortable 4 ∧ deserializeBytes 4 contradictory.serialize = .ok contradictory := by
  have hreadable : contradictory.IsReadable 4 := by
    constructor
    · simp only [contradictory, Json.Forall, Json.MembersForall, Json.ItemsForall, Json.IsShortInt]
      decide
    · refine depth_toJson_le fun _ => ?_
      simp only [contradictory, Json.depth, Json.itemsDepth, Json.membersDepth]
      decide
  have h : contradictory.IsPortable 4 := by
    refine ⟨hreadable, ?_, ?_, ?_⟩
    · decide
    · simp only [contradictory, Json.Forall, Json.MembersForall, Json.ItemsForall, Json.HasUnpairedText]
      decide
    · simp only [contradictory, Json.HasUniqueNames, Json.MembersHaveUniqueNames, Json.ItemsHaveUniqueNames]
      decide
  exact ⟨h, deserializeBytes_serialize h⟩

end WireCodec.TransportError
