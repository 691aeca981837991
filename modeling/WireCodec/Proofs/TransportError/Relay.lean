import WireCodec.Proofs.Json.Contents
import WireCodec.Proofs.Json.Joining
import WireCodec.Proofs.TransportError.Acceptance
import WireCodec.Proofs.TransportError.RoundTrip

/-!
# Errors on their way through several processes

An error that was read can be written and read again, as the error with the pairs of surrogates in its texts joined
(`deserializeBytes_serialize_joined`).  That is another error if there are such pairs, but both are written alike, as
long as no two names of an object become equal (`serialize_joined`).  So from the first writing on the bytes stay the
same, however often the error is passed on (`serialize_relayed`).
-/

namespace WireCodec.TransportError

/-! ### Joined errors -/

/-- The error with the pairs of surrogates in its texts joined. -/
def joined (e : TransportError) : TransportError :=
  { e with message := e.message.joinPairs, details := Members.ofPairs (Json.membersJoined e.details) }

private theorem nodup_joinPairs_toMembers (e : TransportError) :
    (e.toMembers.map fun m => m.1.joinPairs).Nodup := by
  have hnames : (e.toMembers.map fun m => m.1.joinPairs) = e.toMembers.map Prod.fst :=
    List.map_congr_left fun m hm => Text.joinPairs_of_isUnpaired (isUnpaired_of_mem_toMembers hm)
  rw [hnames]
  exact nodup_toMembers e

private theorem isEmpty_details_joined (e : TransportError) : e.joined.details.isEmpty = e.details.isEmpty := by
  obtain ⟨code, message, details, retryable⟩ := e
  cases details with
  | nil => rfl
  | cons m details =>
    obtain ⟨name, v⟩ := m
    have hne : Members.ofPairs (Json.membersJoined ((name, v) :: details)) ≠ [] :=
      Members.ofPairs_ne_nil (List.cons_ne_nil _ _)
    simpa [joined] using hne

/-- The object of the joined error is the joined object of the error. -/
theorem toJson_joined (e : TransportError) : e.joined.toJson = e.toJson.joined := by
  have hmembers : Json.membersJoined e.toMembers = e.joined.toMembers := by
    unfold toMembers
    rw [isEmpty_details_joined]
    split <;> rfl
  have hnodup : ((Json.membersJoined e.toMembers).map Prod.fst).Nodup := by
    rw [Json.names_membersJoined]
    exact nodup_joinPairs_toMembers e
  rw [toJson, toJson, Json.joined, Members.ofPairs_of_nodup hnodup, hmembers]

section Written

variable {depth : Nat} {e : TransportError}

/-- An error and the joined one are written alike. -/
theorem serialize_joined (h : (Json.obj e.details).Forall Json.KeepsNames) : e.joined.serialize = e.serialize := by
  have hobject : e.toJson.Forall Json.KeepsNames := by
    refine Json.forall_obj.2 ⟨nodup_joinPairs_toMembers e, fun m hm => ?_⟩
    rcases mem_toMembers hm with rfl | rfl | ⟨-, rfl⟩ | rfl
    · exact trivial
    · exact trivial
    · exact h
    · exact trivial
  rw [serialize, serializeText, toJson_joined, Json.write_joined hobject]
  rfl

theorem deserialize_serializeText_joined (h : e.IsReadable depth) :
    deserialize depth e.serializeText = .ok e.joined := by
  have hread := read_serializeText_joined h
  rw [← toJson_joined] at hread
  exact deserialize_of_read hread

theorem deserializeBytes_serialize_joined (h : e.IsReadable depth) :
    deserializeBytes depth e.serialize = .ok e.joined := by
  have hread := readBytes_serialize_joined h
  rw [← toJson_joined] at hread
  exact deserializeBytes_of_readBytes hread

end Written

/-! ### Payloads -/

/-- What an error is read from. -/
inductive Payload
  | text (t : Text)
  | bytes (data : Bytes)

namespace Payload

/-- The value of a payload, read with the given room for nested values. -/
def read (depth : Nat) : Payload → Except Json.DocumentError Json
  | .text t => (Json.read (.lenient depth) t).mapError .text
  | .bytes data => Json.readBytes (.lenient depth) data

/-- Reads an error from a payload. -/
def deserialize (depth : Nat) : Payload → Except Refusal TransportError
  | .text t => TransportError.deserialize depth t
  | .bytes data => deserializeBytes depth data

variable {depth : Nat} {p : Payload} {e : TransportError} {v : Json} {m : Members}

theorem exists_of_deserialize (h : p.deserialize depth = .ok e) :
    ∃ m, p.read depth = .ok (.obj m) ∧ e.IsSaidBy (Members.get? · m) := by
  cases p with
  | text t =>
    obtain ⟨m, hread, hm⟩ := deserialize_eq_ok_iff.1 h
    refine ⟨m, ?_, hm⟩
    rw [read, hread]
    rfl
  | bytes data => exact deserializeBytes_eq_ok_iff.1 h

theorem exists_isDocument_of_read (h : p.read depth = .ok v) : ∃ t, Json.IsDocument (.lenient depth) t v := by
  cases p with
  | text t => exact ⟨t, Json.isDocument_of_read (mapError_eq_ok_iff.1 h)⟩
  | bytes data =>
    change Json.readBytes (.lenient depth) data = .ok v at h
    unfold Json.readBytes at h
    cases hdecode : decodeDocument data with
    | error f =>
      rw [hdecode] at h
      cases h
    | ok t =>
      rw [hdecode] at h
      exact ⟨t, Json.isDocument_of_document (mapError_eq_ok_iff.1 h)⟩

end Payload

/-! ### Details that were read -/

section Said

variable {depth : Nat} {e : TransportError} {m : Members}

private theorem IsSaidBy.details_cases (h : e.IsSaidBy (Members.get? · m)) :
    e.details = [] ∨ (Text.ofString "details", .obj e.details) ∈ m := by
  obtain ⟨d, hd, hdetails⟩ := h.details
  change Members.Says .obj (Members.get? (Text.ofString "details") m) d at hd
  generalize hget : Members.get? (Text.ofString "details") m = o at hd
  cases hd with
  | absent => exact .inl hdetails
  | null => exact .inl hdetails
  | value d =>
    obtain rfl : e.details = d := hdetails
    exact .inr (Members.mem_of_get? hget)

/-- What holds of all values in an object, and of the empty object, holds of the details that it says. -/
private theorem IsSaidBy.forall_details {P : Json → Prop} (h : e.IsSaidBy (Members.get? · m))
    (hm : (Json.obj m).Forall P) (hempty : P (.obj [])) : (Json.obj e.details).Forall P := by
  rcases h.details_cases with hdetails | hmem
  · rw [hdetails]
    exact Json.forall_obj.2 ⟨hempty, nofun⟩
  · exact (Json.forall_obj.1 hm).2 _ hmem

/-- An error is nested no deeper than an object that says it. -/
private theorem IsSaidBy.depth_toJson (h : e.IsSaidBy (Members.get? · m)) (hm : (Json.obj m).depth ≤ depth) :
    e.toJson.depth ≤ depth := by
  have hcode := Json.depth_lt_of_mem_obj (Members.mem_of_get? h.code)
  have hdetails : e.details ≠ [] → (Json.obj e.details).depth ≤ depth - 1 := by
    intro hne
    rcases h.details_cases with hempty | hmem
    · exact absurd hempty hne
    · have hlt := Json.depth_lt_of_mem_obj hmem
      dsimp only at hlt
      omega
  have hle := depth_toJson_le hdetails
  omega

end Said

/-- An error that was read can be read again after it was written. -/
theorem Payload.isReadable_of_deserialize {depth : Nat} {p : Payload} {e : TransportError}
    (h : p.deserialize depth = .ok e) : e.IsReadable depth := by
  obtain ⟨m, hread, hm⟩ := p.exists_of_deserialize h
  obtain ⟨t, hdocument⟩ := p.exists_isDocument_of_read hread
  exact ⟨hm.forall_details hdocument.integers trivial, hm.depth_toJson hdocument.depth_le⟩

/-! ### Relays -/

/-- The error of a payload after so many relays: each one writes the error, and the next, with the same room for nested
values, reads what was written. -/
def relayed (depth : Nat) : Nat → Payload → Except Refusal TransportError
  | 0, p => p.deserialize depth
  | n + 1, p => do
    let e ← p.deserialize depth
    relayed depth n (.bytes e.serialize)

/-- What was written once is passed on as it is. -/
theorem relayed_serialize {depth : Nat} {e : TransportError} (h : e.IsReadable depth)
    (hnames : (Json.obj e.details).Forall Json.KeepsNames) (n : Nat) :
    relayed depth n (.bytes e.serialize) = .ok e.joined := by
  have hread : (Payload.bytes e.serialize).deserialize depth = .ok e.joined := deserializeBytes_serialize_joined h
  induction n with
  | zero => exact hread
  | succ n ih =>
    -- the joined error has the bytes of the error, and these are what is passed on
    rw [relayed, hread]
    show relayed depth n (.bytes e.joined.serialize) = .ok e.joined
    rw [serialize_joined hnames]
    exact ih

/-- An error that is read from a payload is written as bytes from which an error with the same bytes is read, and no
number of relays changes the bytes or the flag.  A flag that the payload gives is kept.  Only names of one object that
become equal when surrogates are joined would be lost on the way. -/
theorem serialize_relayed {depth : Nat} {p : Payload} {e : TransportError} (h : p.deserialize depth = .ok e)
    (hnames : ∀ v, p.read depth = .ok v → v.Forall Json.KeepsNames) :
    (∃ e', deserializeBytes depth e.serialize = .ok e' ∧ e'.serialize = e.serialize) ∧
    (∀ n, ∃ e', relayed depth n p = .ok e' ∧ e'.serialize = e.serialize ∧ e'.retryable = e.retryable) ∧
    ∀ m flag, p.read depth = .ok (.obj m) → Members.get? (Text.ofString "isRetryable") m = some (.bool flag) →
      e.retryable = flag := by
  obtain ⟨m, hread, hm⟩ := p.exists_of_deserialize h
  have hreadable := Payload.isReadable_of_deserialize h
  have hdetails : (Json.obj e.details).Forall Json.KeepsNames := hm.forall_details (hnames _ hread) List.nodup_nil
  have hbytes : e.joined.serialize = e.serialize := serialize_joined hdetails
  refine ⟨⟨e.joined, deserializeBytes_serialize_joined hreadable, hbytes⟩, fun n => ?_, fun m' flag hread' hflag => ?_⟩
  · cases n with
    | zero => exact ⟨e, h, rfl, rfl⟩
    | succ n =>
      refine ⟨e.joined, ?_, hbytes, rfl⟩
      rw [relayed, h]
      exact relayed_serialize hreadable hdetails n
  · obtain rfl : m = m' := Json.obj.inj (Except.ok.inj (hread.symm.trans hread'))
    obtain ⟨o, ho, hretryable⟩ := hm.retryable
    change Members.Says .bool (Members.get? (Text.ofString "isRetryable") m) o at ho
    rw [hflag] at ho
    cases ho with
    | value flag => exact hretryable

/-- A text with surrogates next to each other in its message and in a name, a repeated code, numbers that are not
finite, and a flag that contradicts the code. -/
def scattered : Payload :=
  .text (Text.ofString "\x7b\"code\":1001,\"code\":1002,\"message\":\"" ++ [⟨0xD83D, by decide⟩, ⟨0xDE00, by decide⟩] ++
    Text.ofString "\",\"extra\":1,\"details\":\x7b\"n\":[NaN,Infinity],\"" ++
    [.lowHalf (.ofChar '𐀀'), ⟨0xD83D, by decide⟩, ⟨0xDE00, by decide⟩] ++
    Text.ofString "\":\x7b\x7d\x7d,\"isRetryable\":false\x7d")

/-- The error in the text. -/
def scatteredError : TransportError :=
  ⟨.timeout, [⟨0xD83D, by decide⟩, ⟨0xDE00, by decide⟩],
    [(Text.ofString "n", .arr [.float .nan, .float (.infinite false)]),
      ([.lowHalf (.ofChar '𐀀'), ⟨0xD83D, by decide⟩, ⟨0xDE00, by decide⟩], .obj [])], false⟩

theorem serialize_relayed_scattered :
    scattered.deserialize 3 = .ok scatteredError ∧ (∀ v, scattered.read 3 = .ok v → v.Forall Json.KeepsNames) ∧
      ∀ n, ∃ e', relayed 3 n scattered = .ok e' ∧ e'.serialize = scatteredError.serialize ∧ e'.retryable = false := by
  have hdeserialize : scattered.deserialize 3 = .ok scatteredError := by cbv
  have hread : scattered.read 3 = .ok (.obj [(Text.ofString "code", .int 1002),
      (Text.ofString "message", .str scatteredError.message), (Text.ofString "extra", .int 1),
      (Text.ofString "details", .obj scatteredError.details), (Text.ofString "isRetryable", .bool false)]) := by cbv
  have hnames : ∀ v, scattered.read 3 = .ok v → v.Forall Json.KeepsNames := by
    intro v hv
    obtain rfl := Except.ok.inj (hread.symm.trans hv)
    simp only [scatteredError, Json.Forall, Json.MembersForall, Json.ItemsForall, Json.KeepsNames]
    decide
  exact ⟨hdeserialize, hnames, (serialize_relayed hdeserialize hnames).2.1⟩

end WireCodec.TransportError
