import WireCodec.Proofs.Frame.Survival
import WireCodec.Proofs.Json.Contents
import WireCodec.Proofs.Json.ReadBack

/-!
# The normal form of a response

What is shown of a response has unique names, and read again it is the response itself, empty details apart, which are
shown like absent ones (`ofMembers?_toMembers`).  All that is shown of a response that was received stands in its
payload, and so it can be written and sent back, and is received as the same response (`receive_write`).
-/

namespace WireCodec

namespace Response

/-! ### What is shown of a response -/

/-- The names that the members of a response can have, in their order. -/
def memberNames : List Text :=
  [Text.ofString "success", Text.ofString "data", Text.ofString "message", Text.ofString "error", Text.ofString "code",
    Text.ofString "details"]

private theorem sublist_dataMember (v : Json) : ((dataMember v).map Prod.fst).Sublist [Text.ofString "data"] := by
  cases v with
  | null => exact List.nil_sublist _
  | _ => exact List.Sublist.refl _

private theorem sublist_textMember (name : String) (o : Option Text) :
    ((textMember name o).map Prod.fst).Sublist [Text.ofString name] := by
  cases o with
  | none => exact List.nil_sublist _
  | some t => exact List.Sublist.refl _

private theorem sublist_detailsMember (o : Option Members) :
    ((detailsMember o).map Prod.fst).Sublist [Text.ofString "details"] := by
  match o with
  | none | some [] => exact List.nil_sublist _
  | some (_ :: _) => exact List.Sublist.refl _

theorem names_toMembers (r : Response) : (r.toMembers.map Prod.fst).Sublist memberNames := by
  simp only [toMembers, List.map_append, List.map_cons]
  have hdata := (sublist_dataMember r.data).cons_cons (Text.ofString "success")
  have hmessage := hdata.append (sublist_textMember "message" r.message)
  have herror := hmessage.append (sublist_textMember "error" r.error)
  have hcode := herror.append (sublist_textMember "code" r.code)
  exact hcode.append (sublist_detailsMember r.details)

theorem nodup_toMembers (r : Response) : (r.toMembers.map Prod.fst).Nodup :=
  r.names_toMembers.nodup (by decide)

/-- Details that are there and not empty. -/
def shownDetails : Option Members → Option Members
  | none | some [] => none
  | some m => some m

/-- A response without empty details. -/
def normal (r : Response) : Response := { r with details := shownDetails r.details }

theorem toMembers_normal (r : Response) : r.normal.toMembers = r.toMembers := by
  obtain ⟨data, success, message, error, code, details⟩ := r
  match details with
  | none | some [] | some (_ :: _) => rfl

/-! ### What is shown is the response -/

private theorem get?_dataMember (v : Json) : (Members.get? (Text.ofString "data") (dataMember v)).getD .null = v := by
  cases v <;> simp [dataMember, Members.get?]

private theorem get?_textMember (name : String) (o : Option Text) :
    Members.get? (Text.ofString name) (textMember name o) = o.map .str := by
  cases o <;> simp [textMember, Members.get?]

private theorem get?_detailsMember (o : Option Members) :
    Members.get? (Text.ofString "details") (detailsMember o) = (shownDetails o).map .obj := by
  match o with
  | none | some [] => rfl
  | some (_ :: _) => simp [detailsMember, shownDetails, Members.get?]

section Others

variable {name other : Text}

private theorem get?_of_sublist {m : Members} (hm : (m.map Prod.fst).Sublist [other]) (h : other ≠ name) :
    Members.get? name m = none :=
  Members.get?_eq_none fun hname => h (List.mem_singleton.1 (hm.subset hname)).symm

private theorem get?_dataMember_of_ne (h : Text.ofString "data" ≠ name) (v : Json) :
    Members.get? name (dataMember v) = none :=
  get?_of_sublist (sublist_dataMember v) h

private theorem get?_textMember_of_ne {other : String} (h : Text.ofString other ≠ name) (o : Option Text) :
    Members.get? name (textMember other o) = none :=
  get?_of_sublist (sublist_textMember other o) h

private theorem get?_detailsMember_of_ne (h : Text.ofString "details" ≠ name) (o : Option Members) :
    Members.get? name (detailsMember o) = none :=
  get?_of_sublist (sublist_detailsMember o) h

private theorem get?_cons_of_ne (h : other ≠ name) (v : Json) (m : Members) :
    Members.get? name ((other, v) :: m) = Members.get? name m := by
  rw [Members.get?, if_neg h]

end Others

private theorem says_map {α : Type} (kind : α → Json) (o : Option α) : Members.Says kind (o.map kind) o := by
  cases o with
  | none => exact .absent
  | some a => exact .value a

theorem get?_error_toMembers (r : Response) : Members.get? (Text.ofString "error") r.toMembers = r.error.map .str := by
  simp (disch := decide) only [toMembers, List.cons_append, Members.get?_append, get?_cons_of_ne, get?_dataMember_of_ne,
    get?_textMember_of_ne, get?_detailsMember_of_ne, get?_textMember, Option.or_none, Option.none_or]

/-- The members that are shown say the response without its empty details. -/
theorem isSaidBy_toMembers (r : Response) : r.normal.IsSaidBy r.toMembers := by
  have hlast := Members.lastValue?_of_nodup r.nodup_toMembers
  constructor
  case success =>
    rw [hlast]
    exact ⟨some r.success, .value r.success, rfl⟩
  -- of the other members only the one of the name counts
  all_goals
    rw [hlast]
    simp (disch := decide) only [toMembers, List.cons_append, Members.get?_append, get?_cons_of_ne,
      get?_dataMember_of_ne, get?_textMember_of_ne, get?_detailsMember_of_ne, get?_textMember, get?_detailsMember,
      Option.or_none, Option.none_or]
  case data => exact (get?_dataMember r.data).symm
  case message => exact says_map .str r.message
  case error => exact says_map .str r.error
  case code => exact says_map .str r.code
  case details => exact says_map .obj (shownDetails r.details)

theorem ofMembers?_toMembers (r : Response) : ofMembers? r.toMembers = some r.normal := by
  have h := (ofMembers?_eq_some_iff r.toMembers r.normal).2 r.isSaidBy_toMembers
  rwa [Members.ofPairs_of_nodup r.nodup_toMembers] at h

/-! ### What is shown stands in the payload -/

private theorem eq_of_mem_dataMember {v : Json} {p : Text × Json} (hp : p ∈ dataMember v) :
    v ≠ .null ∧ p = (Text.ofString "data", v) := by
  cases v with
  | null => exact absurd hp List.not_mem_nil
  | _ => exact ⟨nofun, List.mem_singleton.1 hp⟩

private theorem exists_of_mem_textMember {name : String} {o : Option Text} {p : Text × Json}
    (hp : p ∈ textMember name o) : ∃ t, o = some t ∧ p = (Text.ofString name, .str t) := by
  cases o with
  | none => exact absurd hp List.not_mem_nil
  | some t => exact ⟨t, rfl, List.mem_singleton.1 hp⟩

private theorem exists_of_mem_detailsMember {o : Option Members} {p : Text × Json} (hp : p ∈ detailsMember o) :
    ∃ m, o = some m ∧ p = (Text.ofString "details", .obj m) := by
  match o with
  | none | some [] => exact absurd hp List.not_mem_nil
  | some (q :: m) => exact ⟨q :: m, rfl, List.mem_singleton.1 hp⟩

/-- A member that is shown is success, data that are not null, a text that is there, or details that are there. -/
theorem mem_toMembers {r : Response} {p : Text × Json} (hp : p ∈ r.toMembers) :
    p = (Text.ofString "success", .bool r.success) ∨
    (r.data ≠ .null ∧ p = (Text.ofString "data", r.data)) ∨
    (∃ t, r.message = some t ∧ p = (Text.ofString "message", .str t)) ∨
    (∃ t, r.error = some t ∧ p = (Text.ofString "error", .str t)) ∨
    (∃ t, r.code = some t ∧ p = (Text.ofString "code", .str t)) ∨
    ∃ m, r.details = some m ∧ p = (Text.ofString "details", .obj m) := by
  simp only [toMembers, List.cons_append, List.mem_cons, List.mem_append] at hp
  rcases hp with hp | (((hp | hp) | hp) | hp) | hp
  · exact .inl hp
  · exact .inr (.inl (eq_of_mem_dataMember hp))
  · exact .inr (.inr (.inl (exists_of_mem_textMember hp)))
  · exact .inr (.inr (.inr (.inl (exists_of_mem_textMember hp))))
  · exact .inr (.inr (.inr (.inr (.inl (exists_of_mem_textMember hp)))))
  · exact .inr (.inr (.inr (.inr (.inr (exists_of_mem_detailsMember hp)))))

private theorem mem_of_said {α : Type} {kind : α → Json} {name : Text} {pairs : List (Text × Json)} {a : α}
    (h : Members.Says kind (Members.lastValue? name pairs) (some a)) : (name, kind a) ∈ pairs := by
  generalize hv : Members.lastValue? name pairs = v at h
  cases h with
  | value => exact Members.mem_of_lastValue? hv

variable {pairs : List (Text × Json)} {r : Response}

theorem IsSaidBy.data_mem (h : r.IsSaidBy pairs) (hdata : r.data ≠ .null) :
    (Text.ofString "data", r.data) ∈ pairs := by
  have hlast := h.data
  cases hv : Members.lastValue? (Text.ofString "data") pairs with
  | none =>
    rw [hv] at hlast
    exact absurd hlast hdata
  | some v =>
    rw [hv, Option.getD_some] at hlast
    rw [hlast]
    exact Members.mem_of_lastValue? hv

theorem IsSaidBy.details_mem (h : r.IsSaidBy pairs) {m : Members} (hm : r.details = some m) :
    (Text.ofString "details", .obj m) ∈ pairs :=
  mem_of_said (hm ▸ h.details)

/-- What is shown of a response that an object says, success apart, is a member of the object. -/
theorem IsSaidBy.mem_of_mem_toMembers (h : r.IsSaidBy pairs) {p : Text × Json} (hp : p ∈ r.toMembers) :
    p = (Text.ofString "success", .bool r.success) ∨ p ∈ pairs := by
  rcases mem_toMembers hp with hp | ⟨hdata, rfl⟩ | ⟨t, ht, rfl⟩ | ⟨t, ht, rfl⟩ | ⟨t, ht, rfl⟩ | ⟨m, hm, rfl⟩
  · exact .inl hp
  · exact .inr (h.data_mem hdata)
  · exact .inr (mem_of_said (ht ▸ h.message))
  · exact .inr (mem_of_said (ht ▸ h.error))
  · exact .inr (mem_of_said (ht ▸ h.code))
  · exact .inr (h.details_mem hm)

private theorem exists_of_ofText? {depth : Nat} {t : Text} {r : Response} (h : ofText? depth t = .ok (some r)) :
    ∃ m, Json.read (.strict depth) t = .ok (.obj m) ∧ ofMembers? m = some r := by
  unfold ofText? at h
  split at h
  · next v hread =>
    obtain ⟨m, rfl, hm⟩ := ofJson?_eq_some_iff.1 (Except.ok.inj h)
    exact ⟨m, hread, hm⟩
  · split at h <;> cases h

/-- A response that is received is said by the object in its payload, or is the payload as plain text. -/
theorem receive_cases {depth : Nat} {data : Bytes} {r : Response} {log : List Log.Record}
    (h : receive depth data = .ok (r, log)) :
    (∃ m, Json.read (.strict depth) (payloadText data) = .ok (.obj m) ∧ (m.map Prod.fst).Nodup ∧ r.IsSaidBy m) ∨
      r = plain (payloadText data) := by
  obtain ⟨-, o, hread, hsettle⟩ := exists_of_receive h
  cases o with
  | none => exact .inr (Prod.mk.inj hsettle).1.symm
  | some r' =>
    obtain rfl : r' = r := (Prod.mk.inj hsettle).1
    obtain ⟨m, hm, hr⟩ := exists_of_ofText? hread
    have hnames : (m.map Prod.fst).Nodup := (Json.hasUniqueNames_obj.1 (Json.names_of_read hm)).1
    refine .inl ⟨m, hm, hnames, (ofMembers?_eq_some_iff m r').1 ?_⟩
    rwa [Members.ofPairs_of_nodup hnames]

section Received

variable {depth : Nat} {data : Bytes} {log : List Log.Record}

/-- A property of truth values, of texts and of the members of the object that was read holds of all members that are
shown of a response that was received. -/
theorem forall_mem_toMembers {p : Json → Prop} (h : receive depth data = .ok (r, log)) (hbool : ∀ b, p (.bool b))
    (hstr : ∀ t, p (.str t))
    (hread : ∀ m, Json.read (.strict depth) (payloadText data) = .ok (.obj m) → ∀ q ∈ m, p q.2) :
    ∀ q ∈ r.toMembers, p q.2 := by
  intro q hq
  rcases receive_cases h with ⟨m, hm, -, hsaid⟩ | rfl
  · rcases hsaid.mem_of_mem_toMembers hq with rfl | hq
    · exact hbool _
    · exact hread m hm q hq
  · rcases mem_toMembers hq with rfl | ⟨hdata, -⟩ | ⟨t, -, rfl⟩ | ⟨t, -, rfl⟩ | ⟨t, -, rfl⟩ | ⟨m, hm, -⟩
    · exact hbool _
    · exact absurd rfl hdata
    · exact hstr t
    · exact hstr t
    · exact hstr t
    · cases hm

theorem integers_toJson (h : receive depth data = .ok (r, log)) :
    r.toJson.Forall (Json.IsShortInt Text.maxIntegerDigits) := by
  have hmembers := forall_mem_toMembers h (fun _ => trivial) (fun _ => trivial) fun m hm =>
    (Json.forall_obj.1 (Json.integers_of_read hm)).2
  exact Json.forall_obj.2 ⟨trivial, hmembers⟩

theorem names_toJson (h : receive depth data = .ok (r, log)) : r.toJson.HasUniqueNames := by
  have hmembers := forall_mem_toMembers h (fun _ => trivial) (fun _ => trivial) fun m hm =>
    (Json.hasUniqueNames_obj.1 (Json.names_of_read hm)).2
  exact Json.hasUniqueNames_obj.2 ⟨r.nodup_toMembers, hmembers⟩

/-- What is shown of a response is an object, and nested no deeper than there was room for when it was received. -/
theorem depth_toJson_le (h : receive depth data = .ok (r, log)) : r.toJson.depth ≤ max depth 1 := by
  have hinside : ∀ m, Json.read (.strict depth) (payloadText data) = .ok (.obj m) → ∀ q ∈ m, q.2.depth ≤ depth - 1 := by
    intro m hm q hq
    have hlt := Json.depth_lt_of_mem_obj hq
    have hle : (Json.obj m).depth ≤ depth := Json.depth_of_read hm
    omega
  have hmembers := forall_mem_toMembers (p := fun v => v.depth ≤ depth - 1) h (fun _ => Nat.zero_le _)
    (fun _ => Nat.zero_le _) hinside
  have hle : r.toJson.depth ≤ depth - 1 + 1 := Json.depth_obj_le hmembers
  omega

/-- A response that was received can be written if its numbers are finite and no pairs of surrogates are in it. -/
theorem isWritable_toJson (h : receive depth data = .ok (r, log)) (hfloats : r.toJson.Forall Json.IsFiniteFloat)
    (htexts : r.toJson.Forall Json.HasUnpairedText) (again : Nat) : r.toJson.IsWritable (.strict again) where
  integers := integers_toJson h
  floats := .inr hfloats
  texts := htexts
  names := names_toJson h

end Received

/-! ### Received again -/

/-- An object in a frame, with or without EOT, is received as the response that its members say. -/
theorem receive_of_read {depth : Nat} {t : Text} (ht : t.IsScalar) {m : Members}
    (hread : Json.read (.strict depth) t = .ok (.obj m)) {r : Response} (hr : ofMembers? m = some r) {data : Bytes}
    (hdata : data = Utf8.encodeAll t ∨ data = Utf8.encodeAll t ++ [Frame.eot]) : receive depth data = .ok (r, []) := by
  have htext : Utf8.decodeLossless (Utf8.encodeAll t) = t := Utf8.decodeLossless_encodeAll ht
  obtain ⟨pairs, hpairs, -⟩ := (Json.isDocument_of_read hread).exists_isObjectText
  rw [← htext] at hpairs
  obtain ⟨hne, hpayload⟩ := Frame.payload_of_object hpairs hdata
  have hresponse : ofText? depth (payloadText data) = .ok (some r) := by
    rw [payloadText, hpayload, htext, ofText?, hread]
    exact congrArg Except.ok hr
  exact receive_of_ofText? hne hresponse

/-- What is written for a response, with or without EOT, is received as the response without its empty details. -/
theorem receive_write {depth : Nat} {s : Json.Spacing} (hs : s.IsBlank) {r : Response}
    (h : r.toJson.IsWritable (.strict depth)) (hdepth : r.toJson.depth ≤ depth) {data : Bytes}
    (hdata : data = Utf8.encodeAll (r.toJson.write s) ∨ data = Utf8.encodeAll (r.toJson.write s) ++ [Frame.eot]) :
    receive depth data = .ok (r.normal, []) :=
  receive_of_read (Json.isScalar_write hs r.toJson) (Json.read_write hs h hdepth) (ofMembers?_toMembers r) hdata

end Response

end WireCodec
