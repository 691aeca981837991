import WireCodec.Proofs.Response.Acceptance
import WireCodec.TransportError.Wire

/-!
# Which objects are transport errors

The members of an object are an error if the code and the message are there, of their kinds, and the details and the
flag are of their kinds as far as they are there (`IsSaidBy`).  Exactly then an error is read from them, and it is the
one that they say (`ofMembers_eq_ok_iff`); so are errors read from texts and bytes (`deserialize_eq_ok_iff`,
`deserializeBytes_eq_ok_iff`).
-/

namespace WireCodec.TransportError

/-! ### What the members of an object say -/

section Said

/- An object tells the values of its names, in whatever way they are looked up. -/
variable (value? : Text → Option Json)

/-- The code is there, as the number of one of the codes. -/
def CodeIs (c : ErrorCode) : Prop := value? (Text.ofString "code") = some (.int c.value)

/-- The message is there, as a text. -/
def MessageIs (t : Text) : Prop := value? (Text.ofString "message") = some (.str t)

/-- The details are an object, or are none if they are absent or null. -/
def DetailsAre (d : Option Members) : Prop := Members.Says .obj (value? (Text.ofString "details")) d

/-- The flag is a truth value, or is none if it is absent or null. -/
def FlagIs (b : Option Bool) : Prop := Members.Says .bool (value? (Text.ofString "isRetryable")) b

/-- An error is what the values of the four names say.  Other names say nothing. -/
structure IsSaidBy (e : TransportError) : Prop where
  code : CodeIs value? e.code
  message : MessageIs value? e.message
  details : ∃ d, DetailsAre value? d ∧ e.details = d.getD []
  retryable : ∃ b, FlagIs value? b ∧ e.retryable = b.getD e.code.isRetryable

end Said

variable {m : Members} {e : TransportError}

/-- Null stands for an absent member, and so an integer is never there by default. -/
private theorem getD_null_eq_int_iff {o : Option Json} {n : Int} : o.getD .null = .int n ↔ o = some (.int n) := by
  cases o <;> simp

theorem codeOf_eq_ok_iff {c : ErrorCode} : codeOf m = .ok c ↔ CodeIs (Members.get? · m) c := by
  show _ ↔ Members.get? (Text.ofString "code") m = some (.int c.value)
  unfold codeOf
  constructor
  · intro h
    split at h
    · next n hn =>
      split at h
      · next c' hc' =>
        obtain rfl := Except.ok.inj h
        rw [getD_null_eq_int_iff.1 hn, ErrorCode.ofInt?_eq_some_iff.1 hc']
      · cases h
    · cases h
  · intro h
    have hcode : ErrorCode.ofInt? c.value = some c := ErrorCode.ofInt?_eq_some_iff.2 rfl
    simp only [h, Option.getD_some, hcode]

theorem codeOf_of_not_int (h : ∀ n, Members.get? (Text.ofString "code") m ≠ some (.int n)) :
    codeOf m = .error (.codeNotInteger ((Members.get? (Text.ofString "code") m).getD .null)) := by
  unfold codeOf
  split
  · next n hn => exact absurd (getD_null_eq_int_iff.1 hn) (h n)
  · rfl

theorem codeOf_of_unknown {n : Int} (h : Members.get? (Text.ofString "code") m = some (.int n))
    (hn : ∀ c : ErrorCode, (c.value : Int) ≠ n) : codeOf m = .error (.unknownCode n) := by
  have hnone : ErrorCode.ofInt? n = none :=
    Option.eq_none_iff_forall_ne_some.2 fun c hc => hn c (ErrorCode.ofInt?_eq_some_iff.1 hc)
  simp only [codeOf, h, Option.getD_some, hnone]

theorem message?_eq_some_iff {t : Text} :
    (Members.get? (Text.ofString "message") m).bind Json.toText? = some t ↔ MessageIs (Members.get? · m) t := by
  simp [MessageIs, Option.bind_eq_some_iff, Json.toText?_eq_some_iff]

theorem details?_eq_some_iff {d : Option Members} :
    Members.optional? Json.toMembers? (Text.ofString "details") m = some d ↔ DetailsAre (Members.get? · m) d :=
  Members.optional?_eq_some_iff Json.toMembers?_eq_some_iff rfl _ m d

theorem flag?_eq_some_iff {b : Option Bool} :
    Members.optional? Json.toBool? (Text.ofString "isRetryable") m = some b ↔ FlagIs (Members.get? · m) b :=
  Members.optional?_eq_some_iff Json.toBool?_eq_some_iff rfl _ m b

/-- An error is read from members exactly if they say it. -/
theorem ofMembers_eq_ok_iff : ofMembers m = .ok e ↔ e.IsSaidBy (Members.get? · m) := by
  unfold ofMembers
  constructor
  · intro h
    -- the checks in their order, each of which has passed
    cases hcode : codeOf m with
    | error f =>
      rw [hcode] at h
      cases h
    | ok code =>
    cases hmessage : (Members.get? (Text.ofString "message") m).bind Json.toText? with
    | none =>
      rw [hcode, hmessage] at h
      cases h
    | some message =>
    cases hdetails : Members.optional? Json.toMembers? (Text.ofString "details") m with
    | none =>
      rw [hcode, hmessage, hdetails] at h
      cases h
    | some details =>
    cases hflag : Members.optional? Json.toBool? (Text.ofString "isRetryable") m with
    | none =>
      rw [hcode, hmessage, hdetails, hflag] at h
      cases h
    | some flag =>
      rw [hcode, hmessage, hdetails, hflag] at h
      obtain rfl := Except.ok.inj h
      exact ⟨codeOf_eq_ok_iff.1 hcode, message?_eq_some_iff.1 hmessage, ⟨details, details?_eq_some_iff.1 hdetails, rfl⟩,
        ⟨flag, flag?_eq_some_iff.1 hflag, rfl⟩⟩
  · rintro ⟨hcode, hmessage, ⟨details, hdetails, hdetails'⟩, ⟨flag, hflag, hflag'⟩⟩
    rw [codeOf_eq_ok_iff.2 hcode, message?_eq_some_iff.2 hmessage, details?_eq_some_iff.2 hdetails,
      flag?_eq_some_iff.2 hflag]
    show Except.ok _ = Except.ok e
    rw [← hdetails', ← hflag']

theorem ofJson_eq_ok_iff {v : Json} : ofJson v = .ok e ↔ ∃ m, v = .obj m ∧ e.IsSaidBy (Members.get? · m) := by
  constructor
  · intro h
    unfold ofJson at h
    split at h
    · exact ⟨_, rfl, ofMembers_eq_ok_iff.1 h⟩
    · cases h
  · rintro ⟨m, rfl, h⟩
    exact ofMembers_eq_ok_iff.2 h

/-! ### Payloads -/

theorem mapError_eq_ok_iff {α ε ε' : Type} {x : Except ε α} {f : ε → ε'} {a : α} :
    x.mapError f = .ok a ↔ x = .ok a := by
  cases x <;> simp [Except.mapError]

section Payloads

variable {depth : Nat}

/-- An error is read from a text exactly if the text is read as an object whose members say it. -/
theorem deserialize_eq_ok_iff {t : Text} : deserialize depth t = .ok e ↔
    ∃ m, Json.read (.lenient depth) t = .ok (.obj m) ∧ e.IsSaidBy (Members.get? · m) := by
  unfold deserialize
  cases Json.read (.lenient depth) t with
  | error f => simp
  | ok v => simp [mapError_eq_ok_iff, ofJson_eq_ok_iff]

theorem deserializeBytes_eq_ok_iff {data : Bytes} : deserializeBytes depth data = .ok e ↔
    ∃ m, Json.readBytes (.lenient depth) data = .ok (.obj m) ∧ e.IsSaidBy (Members.get? · m) := by
  unfold deserializeBytes
  cases Json.readBytes (.lenient depth) data with
  | error f => simp
  | ok v => simp [mapError_eq_ok_iff, ofJson_eq_ok_iff]

end Payloads

end WireCodec.TransportError
