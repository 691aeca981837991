import WireCodec.Proofs.Json.DepthLimit
import WireCodec.Proofs.Json.Objects
import WireCodec.Proofs.TransportError.Acceptance

/-!
# Which texts are read as transport errors, and why the others are refused

A text is an error object if it is one object whose pairs say an error, a repeated name counting by its last value
(`IsErrorObject`).  As long as there is room for its nesting, exactly such a text is read as an error, and every other
text is refused as a payload that is none; if it is an object, then with a message about the first of its members, in
the order code, message, details, flag, that is not as it should be (`FirstFault`, `deserialize_iff`).
-/

namespace WireCodec.TransportError

/-! ### The first fault -/

section Faults

variable (value? : Text → Option Json)

/-- The first of the checks that an object fails, after those that it passes, and the message about it. -/
inductive FirstFault : PayloadFault → Text → Prop
  | codeNotInteger {v : Json} : (∀ n, value? (Text.ofString "code") ≠ some (.int n)) →
      (value? (Text.ofString "code")).getD .null = v →
      FirstFault (.codeNotInteger v) (Text.ofString "error code must be an integer, got " ++ v.display)
  | unknownCode {n : Int} : value? (Text.ofString "code") = some (.int n) →
      (∀ c : ErrorCode, (c.value : Int) ≠ n) →
      FirstFault (.unknownCode n) (Text.ofString "unknown error code " ++ Text.ofInt n)
  | messageNotText {c : ErrorCode} : CodeIs value? c → (∀ m, ¬MessageIs value? m) →
      FirstFault .messageNotText (Text.ofString "error message must be a string")
  | detailsNotObject {c : ErrorCode} {m : Text} : CodeIs value? c → MessageIs value? m →
      (∀ d, ¬DetailsAre value? d) → FirstFault .detailsNotObject (Text.ofString "error details must be an object")
  | flagNotBoolean {c : ErrorCode} {m : Text} {d : Option Members} : CodeIs value? c → MessageIs value? m →
      DetailsAre value? d → (∀ b, ¬FlagIs value? b) →
      FirstFault .flagNotBoolean (Text.ofString "isRetryable must be a boolean")

end Faults

theorem FirstFault.message_eq {value? : Text → Option Json} {fault : PayloadFault} {message : Text}
    (h : FirstFault value? fault message) : fault.message = message := by
  cases h <;> rfl

theorem exists_firstFault {value? : Text → Option Json} (h : ∀ e, ¬IsSaidBy value? e) :
    ∃ fault message, FirstFault value? fault message := by
  by_cases hint : ∃ n, value? (Text.ofString "code") = some (.int n)
  swap
  · exact ⟨_, _, .codeNotInteger (not_exists.1 hint) rfl⟩
  obtain ⟨n, hcode⟩ := hint
  by_cases hknown : ∃ c : ErrorCode, (c.value : Int) = n
  swap
  · exact ⟨_, _, .unknownCode hcode (not_exists.1 hknown)⟩
  obtain ⟨c, rfl⟩ := hknown
  by_cases hmessage : ∃ m, MessageIs value? m
  swap
  · exact ⟨_, _, .messageNotText hcode (not_exists.1 hmessage)⟩
  obtain ⟨m, hmessage⟩ := hmessage
  by_cases hdetails : ∃ d, DetailsAre value? d
  swap
  · exact ⟨_, _, .detailsNotObject hcode hmessage (not_exists.1 hdetails)⟩
  obtain ⟨d, hdetails⟩ := hdetails
  by_cases hflag : ∃ b, FlagIs value? b
  swap
  · exact ⟨_, _, .flagNotBoolean hcode hmessage hdetails (not_exists.1 hflag)⟩
  -- all checks are passed, and so an error is said
  obtain ⟨b, hflag⟩ := hflag
  exact absurd ⟨hcode, hmessage, ⟨d, hdetails, rfl⟩, ⟨b, hflag, rfl⟩⟩ (h ⟨c, m, d.getD [], b.getD c.isRetryable⟩)

section Members

variable {m : Members} {fault : PayloadFault} {message : Text}

theorem FirstFault.ofMembers_eq (h : FirstFault (Members.get? · m) fault message) : ofMembers m = .error fault := by
  unfold ofMembers
  cases h with
  | codeNotInteger hc hv =>
    rw [codeOf_of_not_int hc, hv]
    rfl
  | unknownCode hc hunknown =>
    rw [codeOf_of_unknown hc hunknown]
    rfl
  | messageNotText hc hm =>
    rw [codeOf_eq_ok_iff.2 hc, Option.eq_none_iff_forall_ne_some.2 fun t h => hm t (message?_eq_some_iff.1 h)]
    rfl
  | detailsNotObject hc hm hd =>
    rw [codeOf_eq_ok_iff.2 hc, message?_eq_some_iff.2 hm,
      Option.eq_none_iff_forall_ne_some.2 fun d h => hd d (details?_eq_some_iff.1 h)]
    rfl
  | flagNotBoolean hc hm hd hb =>
    rw [codeOf_eq_ok_iff.2 hc, message?_eq_some_iff.2 hm, details?_eq_some_iff.2 hd,
      Option.eq_none_iff_forall_ne_some.2 fun b h => hb b (flag?_eq_some_iff.1 h)]
    rfl

/-- Members are refused for a fault, in the wording of a message, exactly if it is the first fault with its message. -/
theorem ofMembers_eq_error_iff : ofMembers m = .error fault ∧ fault.message = message ↔
    FirstFault (Members.get? · m) fault message := by
  refine ⟨?_, fun h => ⟨h.ofMembers_eq, h.message_eq⟩⟩
  rintro ⟨h, rfl⟩
  -- an error that the members say would have been read
  have hnone : ∀ e, ¬IsSaidBy (Members.get? · m) e := fun e he => by
    rw [ofMembers_eq_ok_iff.2 he] at h
    cases h
  obtain ⟨fault', message, hfault⟩ := exists_firstFault hnone
  obtain rfl := Except.error.inj (hfault.ofMembers_eq.symm.trans h)
  rwa [hfault.message_eq]

end Members

/-! ### Texts -/

/-- A text that is one object, in the grammar with words for numbers that are not finite, whose pairs say an error. -/
def IsErrorObject (t : Text) (e : TransportError) : Prop :=
  ∃ pairs, Json.IsObjectText true Text.maxIntegerDigits t pairs ∧ e.IsSaidBy (Members.lastValue? · pairs)

/-- In the members of an object the last value of each name is looked up. -/
theorem get?_ofPairs_eq_lastValue? (pairs : List (Text × Json)) :
    (Members.get? · (Members.ofPairs pairs)) = (Members.lastValue? · pairs) :=
  funext fun name => Members.get?_ofPairs name pairs

variable {depth : Nat} {t : Text}

/-- A text is refused for its depth exactly if, up to its first fault of another kind, it is nested more deeply than
there is room for. -/
theorem deserialize_tooDeep_iff : deserialize depth t = .error .tooDeep ↔
    depth < Json.nesting (Json.readablePart (.lenient depth) t) := by
  refine Iff.trans ?_ (Json.read_tooDeep_iff (.lenient depth) t)
  unfold deserialize
  cases Json.read (.lenient depth) t with
  | ok v =>
    have hne : (ofJson v).mapError Refusal.payload ≠ .error .tooDeep := by
      cases ofJson v <;> simp [Except.mapError]
    simp [hne]
  | error f => simp [refusalOf, Json.DocumentError.isTooDeep]

section Texts

variable (h : Json.nesting (Json.readablePart (.lenient depth) t) ≤ depth)
include h

theorem deserialize_of_isObjectText {pairs : List (Text × Json)}
    (hpairs : Json.IsObjectText true Text.maxIntegerDigits t pairs) :
    deserialize depth t = (ofMembers (Members.ofPairs pairs)).mapError .payload := by
  rw [deserialize, (Json.read_eq_obj_iff h).2 ⟨pairs, hpairs, rfl⟩]
  rfl

theorem deserialize_eq_ok_iff_isErrorObject {e : TransportError} : deserialize depth t = .ok e ↔ IsErrorObject t e := by
  rw [deserialize_eq_ok_iff]
  constructor
  · rintro ⟨m, hm, he⟩
    obtain ⟨pairs, hpairs, rfl⟩ := (Json.read_eq_obj_iff h).1 hm
    exact ⟨pairs, hpairs, get?_ofPairs_eq_lastValue? pairs ▸ he⟩
  · rintro ⟨pairs, hpairs, he⟩
    exact ⟨_, (Json.read_eq_obj_iff h).2 ⟨pairs, hpairs, rfl⟩, get?_ofPairs_eq_lastValue? pairs ▸ he⟩

/-- As long as there is room for the nesting, exactly the error objects are read as errors, and every other text is
refused as a payload.  An object is refused for the first check that it fails, with the message about it. -/
theorem deserialize_iff :
    (∀ e, deserialize depth t = .ok e ↔ IsErrorObject t e) ∧
      ((∀ e, ¬IsErrorObject t e) → ∃ fault, deserialize depth t = .error (.payload fault)) ∧
      ∀ pairs, Json.IsObjectText true Text.maxIntegerDigits t pairs → ∀ fault message,
        deserialize depth t = .error (.payload fault) ∧ fault.message = message ↔
          FirstFault (Members.lastValue? · pairs) fault message := by
  refine ⟨fun e => deserialize_eq_ok_iff_isErrorObject h, fun hnone => ?_, fun pairs hpairs fault message => ?_⟩
  · cases hresult : deserialize depth t with
    | ok e => exact absurd ((deserialize_eq_ok_iff_isErrorObject h).1 hresult) (hnone e)
    | error r =>
      cases r with
      | payload fault => exact ⟨fault, rfl⟩
      | tooDeep => exact absurd (deserialize_tooDeep_iff.1 hresult) (Nat.not_lt.2 h)
  · rw [deserialize_of_isObjectText h hpairs, ← get?_ofPairs_eq_lastValue?, ← ofMembers_eq_error_iff]
    cases ofMembers (Members.ofPairs pairs) <;> simp [Except.mapError]

end Texts

/-- An error whose code is first a string and then a number, with words for numbers among its other members. -/
def overwrittenString : Text :=
  Text.ofString " \x7b\"code\":\"1002\", \"message\":\"late\",\"other\":[NaN,-Infinity],\"details\":null," ++
    Text.ofString "\"isRetryable\":false,\"code\":1002\x7d\n"

/-- An object whose code is first a number and then a Boolean, and whose message is none. -/
def overwrittenNumber : Text := Text.ofString "\x7b\"code\":1002,\"message\":7,\"code\":true\x7d"

theorem deserialize_overwritten :
    IsErrorObject overwrittenString ⟨.timeout, Text.ofString "late", [], false⟩ ∧
      ∃ pairs, Json.IsObjectText true Text.maxIntegerDigits overwrittenNumber pairs ∧
        FirstFault (Members.lastValue? · pairs) (.codeNotInteger (.bool true))
          (Text.ofString "error code must be an integer, got True") := by
  have hstring : Json.nesting (Json.readablePart (.lenient 2) overwrittenString) ≤ 2 :=
    (Json.nesting_readablePart_le (.lenient 2) overwrittenString).trans (by decide +kernel)
  have hnumber : Json.nesting (Json.readablePart (.lenient 1) overwrittenNumber) ≤ 1 :=
    (Json.nesting_readablePart_le (.lenient 1) overwrittenNumber).trans (by decide +kernel)
  constructor
  · have hread : deserialize 2 overwrittenString = .ok ⟨.timeout, Text.ofString "late", [], false⟩ := by cbv
    exact ((deserialize_iff hstring).1 _).1 hread
  · have hobject : Json.read (.lenient 1) overwrittenNumber =
        .ok (.obj [(Text.ofString "code", .bool true), (Text.ofString "message", .int 7)]) := by cbv
    have hrefused : deserialize 1 overwrittenNumber = .error (.payload (.codeNotInteger (.bool true))) := by cbv
    have hmessage : (PayloadFault.codeNotInteger (.bool true)).message =
        Text.ofString "error code must be an integer, got True" := by decide
    obtain ⟨pairs, hpairs, -⟩ := (Json.read_eq_obj_iff hnumber).1 hobject
    exact ⟨pairs, hpairs, ((deserialize_iff hnumber).2.2 pairs hpairs _ _).1 ⟨hrefused, hmessage⟩⟩

end WireCodec.TransportError
