import Mathlib.Data.List.Permutation
import WireCodec.Proofs.Json.Objects
import WireCodec.Response.Inbound

/-!
# Which payloads are response objects

The text of a payload is a response object if it is one object whose members are of the right kinds, a repeated name
counting by its last value (`IsSaidBy`).  As long as there is room for its nesting, exactly such a text is read
member by member, and every other payload is the message of a success (`receive_iff`).
-/

namespace WireCodec.Response

/-! ### Response objects -/

/-- A response is what the last values of the names in an object say.  Other names say nothing. -/
structure IsSaidBy (pairs : List (Text × Json)) (r : Response) : Prop where
  data : r.data = (Members.lastValue? (Text.ofString "data") pairs).getD .null
  success : ∃ s, Members.Says .bool (Members.lastValue? (Text.ofString "success") pairs) s ∧ r.success = s.getD false
  message : Members.Says .str (Members.lastValue? (Text.ofString "message") pairs) r.message
  error : Members.Says .str (Members.lastValue? (Text.ofString "error") pairs) r.error
  code : Members.Says .str (Members.lastValue? (Text.ofString "code") pairs) r.code
  details : Members.Says .obj (Members.lastValue? (Text.ofString "details") pairs) r.details

theorem ofMembers?_eq_some_iff (pairs : List (Text × Json)) (r : Response) :
    ofMembers? (Members.ofPairs pairs) = some r ↔ r.IsSaidBy pairs := by
  have hbool := Members.optional?_eq_some_iff Json.toBool?_eq_some_iff rfl
  have htext := Members.optional?_eq_some_iff Json.toText?_eq_some_iff rfl
  have hobject := Members.optional?_eq_some_iff Json.toMembers?_eq_some_iff rfl
  simp only [ofMembers?, Option.bind_eq_bind, Option.bind_eq_some_iff, hbool, htext, hobject, Members.get?_ofPairs,
    Option.some.injEq]
  constructor
  · rintro ⟨success, hsuccess, message, hmessage, error, herror, code, hcode, details, hdetails, rfl⟩
    exact ⟨rfl, ⟨success, hsuccess, rfl⟩, hmessage, herror, hcode, hdetails⟩
  · rintro ⟨hdata, ⟨success, hsuccess, hsuccess'⟩, hmessage, herror, hcode, hdetails⟩
    refine ⟨success, hsuccess, _, hmessage, _, herror, _, hcode, _, hdetails, ?_⟩
    rw [← hdata, ← hsuccess']

/-- A text that is one object whose members say a response. -/
def IsResponseObject (t : Text) (r : Response) : Prop :=
  ∃ pairs, Json.IsObjectDocument Text.maxIntegerDigits t pairs ∧ r.IsSaidBy pairs

variable {depth : Nat}

theorem ofJson?_eq_some_iff {v : Json} {r : Response} :
    ofJson? v = some r ↔ ∃ m, v = .obj m ∧ ofMembers? m = some r := by
  constructor
  · intro h
    unfold ofJson? at h
    split at h
    · exact ⟨_, rfl, h⟩
    · cases h
  · rintro ⟨m, rfl, h⟩
    exact h

/-- With room for its nesting, reading a text succeeds and finds a response exactly in a response object. -/
theorem exists_ofText? {t : Text} (h : Json.nesting (Json.readablePart (.strict depth) t) ≤ depth) :
    ∃ o, ofText? depth t = .ok o ∧ ∀ r, o = some r ↔ IsResponseObject t r := by
  unfold ofText? IsResponseObject
  have hobject : ∀ m, Json.read (.strict depth) t = .ok (.obj m) ↔
      ∃ pairs, Json.IsObjectDocument Text.maxIntegerDigits t pairs ∧ m = Members.ofPairs pairs := fun m =>
    Json.read_eq_obj_iff h
  cases hread : Json.read (.strict depth) t with
  | ok v =>
    refine ⟨ofJson? v, rfl, fun r => ofJson?_eq_some_iff.trans ⟨?_, ?_⟩⟩
    · rintro ⟨m, rfl, hr⟩
      obtain ⟨pairs, hpairs, rfl⟩ := (hobject m).1 hread
      exact ⟨pairs, hpairs, (ofMembers?_eq_some_iff pairs r).1 hr⟩
    · rintro ⟨pairs, hpairs, hr⟩
      have hok := (hobject (Members.ofPairs pairs)).2 ⟨pairs, hpairs, rfl⟩
      rw [hread] at hok
      exact ⟨_, Except.ok.inj hok, (ofMembers?_eq_some_iff pairs r).2 hr⟩
  | error e =>
    -- only a text without enough room is refused for its depth
    have hfault : e.fault ≠ .tooDeep := fun hdeep =>
      absurd h (Nat.not_le.2 ((Json.read_tooDeep_iff (.strict depth) t).1 ⟨e, hread, hdeep⟩))
    refine ⟨none, if_neg hfault, fun r => ⟨nofun, ?_⟩⟩
    rintro ⟨pairs, hpairs, -⟩
    -- a response object would have been read
    have hok := (hobject (Members.ofPairs pairs)).2 ⟨pairs, hpairs, rfl⟩
    rw [hread] at hok
    cases hok

/-! ### Payloads -/

/-- The text of the payload in an inbound frame. -/
def payloadText (data : Bytes) : Text := Utf8.decodeLossless (Frame.payload data)

/-- What is made of a payload, by the response that is found in its text. -/
def settle (payload : Text) : Option Response → Response × List Log.Record
  | some r => (r, [])
  | none => (plain payload, [fallbackRecord payload])

theorem receive_of_ofText? {data : Bytes} (hdata : data ≠ []) {o : Option Response}
    (h : ofText? depth (payloadText data) = .ok o) : receive depth data = .ok (settle (payloadText data) o) := by
  unfold payloadText at h
  rw [receive, if_neg hdata]
  simp only [h]
  cases o <;> rfl

theorem exists_of_receive {data : Bytes} {r : Response} {log : List Log.Record}
    (h : receive depth data = .ok (r, log)) :
    data ≠ [] ∧ ∃ o, ofText? depth (payloadText data) = .ok o ∧ settle (payloadText data) o = (r, log) := by
  by_cases hdata : data = []
  · rw [receive, if_pos hdata] at h
    cases h
  · refine ⟨hdata, ?_⟩
    cases hread : ofText? depth (payloadText data) with
    | error e =>
      unfold payloadText at hread
      rw [receive, if_neg hdata] at h
      simp only [hread] at h
      cases h
    | ok o => exact ⟨o, rfl, Except.ok.inj ((receive_of_ofText? hdata hread).symm.trans h)⟩

theorem eq_nil_of_receive {data : Bytes} (h : receive depth data = .error .empty) : data = [] := by
  by_contra hdata
  rw [receive, if_neg hdata] at h
  dsimp only at h
  unfold ofText? at h
  split at h
  · cases h
  · split at h <;> cases h

/-- With room for its nesting, a payload is read member by member exactly if it is a response object.  Every other
payload is the message of a success that has no other content. -/
theorem receive_iff {data : Bytes} (hdata : data ≠ [])
    (hdepth : Json.nesting (Json.readablePart (.strict depth) (payloadText data)) ≤ depth) :
    (∀ r, receive depth data = .ok (r, []) ↔ IsResponseObject (payloadText data) r) ∧
      ((∀ r, ¬IsResponseObject (payloadText data) r) →
        receive depth data = .ok (⟨.null, true, some (payloadText data), none, none, none⟩,
          [fallbackRecord (payloadText data)])) := by
  obtain ⟨o, hread, hobject⟩ := exists_ofText? hdepth
  rw [receive_of_ofText? hdata hread]
  cases o with
  | some r' =>
    refine ⟨fun r => ?_, fun hnone => absurd ((hobject r').1 rfl) (hnone r')⟩
    rw [← hobject]
    simp [settle]
  | none =>
    refine ⟨fun r => ?_, fun _ => rfl⟩
    rw [← hobject]
    simp [settle]

/-- An object whose first error is an array and whose last error is a byte that is no UTF-8. -/
def repeatedError : Bytes :=
  Utf8.encodeAll (Text.ofString "\x7b\"error\":[], \"success\":true,\"error\":\"") ++
    0xFF :: Utf8.encodeAll (Text.ofString "\"\x7d\n") ++ [Frame.eot]

theorem isResponseObject_repeatedError :
    receive 2 repeatedError = .ok (⟨.null, true, none, some [.ofByte 0xFF], none, none⟩, []) ∧
      IsResponseObject (payloadText repeatedError) ⟨.null, true, none, some [.ofByte 0xFF], none, none⟩ := by
  have hread : receive 2 repeatedError = .ok (⟨.null, true, none, some [.ofByte 0xFF], none, none⟩, []) := by cbv
  have hnesting : Json.nesting (payloadText repeatedError) ≤ 2 := by decide +kernel
  have hdepth := Nat.le_trans (Json.nesting_readablePart_le (.strict 2) _) hnesting
  exact ⟨hread, ((receive_iff (by decide) hdepth).1 _).1 hread⟩

end WireCodec.Response
