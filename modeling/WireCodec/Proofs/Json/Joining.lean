import WireCodec.Proofs.Json.Writing

/-!
# Joined values are written alike

A pair of surrogates and the code point that it stands for have the same escapes.  So a value is written as the value
with its pairs joined is, if no two names of an object become equal by it (`write_joined`).
-/

namespace WireCodec

/-! ### Halves -/

namespace CodePoint

variable {c d : CodePoint}

theorem highHalf_join (hc : c.IsHigh) : (join c d).highHalf = c := by
  unfold IsHigh at hc
  apply ext
  show 0xD800 + (0x10000 + c.val % 0x400 * 0x400 + d.val % 0x400 - 0x10000) / 0x400 = c.val
  omega

theorem lowHalf_join (hd : d.IsLow) : (join c d).lowHalf = d := by
  unfold IsLow at hd
  apply ext
  show 0xDC00 + (0x10000 + c.val % 0x400 * 0x400 + d.val % 0x400 - 0x10000) % 0x400 = d.val
  omega

theorem le_join (c d : CodePoint) : 0x10000 ≤ (join c d).val := by
  show 0x10000 ≤ 0x10000 + c.val % 0x400 * 0x400 + d.val % 0x400
  omega

end CodePoint

namespace Json

/-! ### Strings -/

private theorem escape_join {c d : CodePoint} (hc : c.IsHigh) (hd : d.IsLow) :
    escape (CodePoint.join c d) = escape c ++ escape d := by
  have hhigh := escape_of_isSurrogate (c.isSurrogate_iff.2 (.inl hc))
  have hlow := escape_of_isSurrogate (d.isSurrogate_iff.2 (.inr hd))
  rw [escape_of_le (CodePoint.le_join c d), CodePoint.highHalf_join hc, CodePoint.lowHalf_join hd, hhigh, hlow]

private theorem flatMap_escape_joinPairs (t : Text) : t.joinPairs.flatMap escape = t.flatMap escape := by
  induction t using Text.joinPairs.induct with
  | case1 => rfl
  | case2 c => rfl
  | case3 c d rest hpair ih =>
    rw [Text.joinPairs, if_pos hpair, List.flatMap_cons, escape_join hpair.1 hpair.2, ih, List.append_assoc]
    rfl
  | case4 c d rest hpair ih =>
    rw [Text.joinPairs, if_neg hpair, List.flatMap_cons, ih]
    rfl

theorem writeString_joinPairs (t : Text) : writeString t.joinPairs = writeString t := by
  rw [writeString, flatMap_escape_joinPairs, writeString]

/-! ### Values -/

/-- If the value is an object, its names stay different when the pairs of surrogates in them are joined. -/
def KeepsNames : Json → Prop
  | .obj members => (members.map fun m => m.1.joinPairs).Nodup
  | _ => True

theorem names_membersJoined (members : Members) :
    (membersJoined members).map Prod.fst = members.map fun m => m.1.joinPairs := by
  induction members with
  | nil => rfl
  | cons m rest ih =>
    obtain ⟨name, v⟩ := m
    rw [membersJoined, List.map_cons, List.map_cons, ih]

variable {s : Spacing}

private theorem writeItems_itemsJoined {items : List Json} (h : ∀ v ∈ items, write s v.joined = write s v) :
    writeItems s (itemsJoined items) = writeItems s items := by
  induction items with
  | nil => rfl
  | cons item rest ih =>
    rw [itemsJoined, writeItems, writeItems, h item List.mem_cons_self, ih fun v hv => h v (List.mem_cons_of_mem _ hv)]

private theorem writeMembers_membersJoined {members : Members} (h : ∀ m ∈ members, write s m.2.joined = write s m.2) :
    writeMembers s (membersJoined members) = writeMembers s members := by
  induction members with
  | nil => rfl
  | cons m rest ih =>
    obtain ⟨name, v⟩ := m
    have hv : write s v.joined = write s v := h (name, v) List.mem_cons_self
    rw [membersJoined, writeMembers, writeMembers, writeString_joinPairs, hv,
      ih fun p hp => h p (List.mem_cons_of_mem _ hp)]

/-- A value is written as it is with its pairs of surrogates joined. -/
theorem write_joined {v : Json} (h : v.Forall KeepsNames) : write s v.joined = write s v := by
  induction v using Json.induct with
  | null | bool | int | float => rfl
  | str t => exact writeString_joinPairs t
  | arr items ih =>
    have hitems : ∀ v ∈ items, write s v.joined = write s v := fun v hv => ih v hv ((forall_arr.1 h).2 v hv)
    cases items with
    | nil => rfl
    | cons item rest =>
      rw [joined, itemsJoined, write, write, hitems item List.mem_cons_self,
        writeItems_itemsJoined fun v hv => hitems v (List.mem_cons_of_mem _ hv)]
  | obj members ih =>
    obtain ⟨hnames, hvalues⟩ := forall_obj.1 h
    have hmembers : ∀ m ∈ members, write s m.2.joined = write s m.2 := fun m hm => ih m hm (hvalues m hm)
    -- no name is lost among the joined ones
    have hnodup : ((membersJoined members).map Prod.fst).Nodup := by
      rw [names_membersJoined]
      exact hnames
    rw [joined, Members.ofPairs_of_nodup hnodup]
    cases members with
    | nil => rfl
    | cons m rest =>
      obtain ⟨name, v⟩ := m
      have hv : write s v.joined = write s v := hmembers (name, v) List.mem_cons_self
      rw [membersJoined, write, write, writeString_joinPairs, hv,
        writeMembers_membersJoined fun p hp => hmembers p (List.mem_cons_of_mem _ hp)]

end Json

end WireCodec
