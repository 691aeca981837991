import WireCodec.Proofs.Frame.Survival
import WireCodec.Proofs.Json.Contents
import WireCodec.Proofs.Json.ReadBack

/-!
# Which failures are reported

A payload can say a failure as an object of the grammar, with members of the right kinds (`SaysFailure`).  Whatever
ends its frame, it is reported as a failure exactly if its integers have no more digits than are read
(`failed_iff`).  With one longer integer, in whatever member, the object is taken for plain text, and this is a success
(`not_forall_failed`).
-/

namespace WireCodec.Response

/-- A payload that is an object with integers of any length, for whose nesting there is room, and whose members are of
the right kinds and say a failure. -/
structure SaysFailure (depth : Nat) (payload : Bytes) (pairs : List (Text × Json)) : Prop where
  object : ∃ digits, Json.IsObjectDocument digits (Utf8.decodeLossless payload) pairs
  nesting : Json.nesting (Utf8.decodeLossless payload) ≤ depth
  kinds : ∃ r : Response, r.IsSaidBy pairs
  failure : Members.lastValue? (Text.ofString "success") pairs ≠ some (.bool true) ∨
    ∃ e, Members.lastValue? (Text.ofString "error") pairs = some (.str e)

variable {depth : Nat} {payload data : Bytes} {pairs : List (Text × Json)}

/-! ### Failures -/

private theorem success_eq_false {v : Option Json} {s : Option Bool} (h : Members.Says .bool v s)
    (hv : v ≠ some (.bool true)) : s.getD false = false := by
  cases h with
  | absent => rfl
  | null => rfl
  | value b =>
    cases b with
    | false => rfl
    | true => exact absurd rfl hv

private theorem error_eq_some {v : Option Json} {o : Option Text} (h : Members.Says .str v o) {e : Text}
    (hv : v = some (.str e)) : o = some e := by
  subst hv
  cases h with
  | value => rfl

private theorem SaysFailure.failed (h : SaysFailure depth payload pairs) {r : Response} (hr : r.IsSaidBy pairs) :
    r.failed = true := by
  unfold Response.failed
  rcases h.failure with hsuccess | ⟨e, he⟩
  · obtain ⟨s, hs, hrs⟩ := hr.success
    rw [hrs, success_eq_false hs hsuccess]
    rfl
  · rw [error_eq_some hr.error he]
    exact Bool.or_true _

/-- A payload that says a failure is read, whatever ends its frame, and gives what the object says if one is found. -/
private theorem SaysFailure.exists_receive (h : SaysFailure depth payload pairs)
    (hdata : data = payload ∨ data = payload ++ [Frame.eot]) :
    ∃ o, receive depth data = .ok (settle (payloadText data) o) ∧ ∀ r, o = some r ↔
      r.IsSaidBy pairs ∧ Json.IsObjectDocument Text.maxIntegerDigits (Utf8.decodeLossless payload) pairs := by
  obtain ⟨digits, hobject⟩ := h.object
  obtain ⟨hne, hpayload⟩ := Frame.payload_of_object hobject hdata
  have htext : payloadText data = Utf8.decodeLossless payload := by rw [payloadText, hpayload]
  have hdepth := Nat.le_trans (Json.nesting_readablePart_le (.strict depth) _) h.nesting
  obtain ⟨o, hread, hresponse⟩ := exists_ofText? hdepth
  refine ⟨o, receive_of_ofText? hne (htext ▸ hread), fun r => (hresponse r).trans ⟨?_, ?_⟩⟩
  · -- the text has no other pairs
    rintro ⟨pairs', hpairs', hr⟩
    obtain rfl := hobject.unique hpairs'
    exact ⟨hr, hpairs'⟩
  · rintro ⟨hr, hpairs⟩
    exact ⟨pairs, hpairs, hr⟩

/-- A payload that says a failure has a response, and the response is a failure exactly if all integers of the payload
are short enough to be read. -/
theorem failed_iff (h : SaysFailure depth payload pairs) (hdata : data = payload ∨ data = payload ++ [Frame.eot]) :
    ∃ r log, receive depth data = .ok (r, log) ∧
      (r.failed = true ↔ Json.IsObjectDocument Text.maxIntegerDigits (Utf8.decodeLossless payload) pairs) := by
  obtain ⟨o, hreceive, hobject⟩ := h.exists_receive hdata
  cases o with
  | some r =>
    obtain ⟨hr, hpairs⟩ := (hobject r).1 rfl
    exact ⟨r, [], hreceive, fun _ => hpairs, fun _ => h.failed hr⟩
  | none =>
    refine ⟨_, _, hreceive, nofun, fun hpairs => ?_⟩
    obtain ⟨r, hr⟩ := h.kinds
    exact nomatch (hobject r).2 ⟨hr, hpairs⟩

/-! ### A failure with a number -/

/-- An object that says a failure and has a natural number as its data. -/
def numberedValue (n : Nat) : Json :=
  .obj [(Text.ofString "success", .bool false), (Text.ofString "data", .int n)]

/-- The payload that is written for it. -/
def numberedFailure (n : Nat) : Bytes := Utf8.encodeAll (Json.write .compact (numberedValue n))

private theorem isWritable_numberedValue {n digits : Nat} (h : (Text.ofNat n).length ≤ digits) :
    (numberedValue n).IsWritable ⟨false, depth, digits⟩ := by
  constructor
  · simp only [numberedValue, Json.Forall, Json.MembersForall, Json.IsShortInt, Int.natAbs_natCast]
    simp [h]
  · simp only [numberedValue, Json.Forall, Json.MembersForall, Json.IsFiniteFloat]
    simp
  · have hnames : (Text.ofString "success").IsUnpaired ∧ (Text.ofString "data").IsUnpaired := by decide
    simp only [numberedValue, Json.Forall, Json.MembersForall, Json.HasUnpairedText]
    simp [hnames]
  · have hnames : [Text.ofString "success", Text.ofString "data"].Nodup := by decide
    simp only [numberedValue, Json.HasUniqueNames, Json.MembersHaveUniqueNames]
    exact ⟨hnames, trivial, trivial, trivial⟩

/-- It says a failure, whatever the number, and is read with this number if its digits are allowed. -/
private theorem exists_numberedFailure (hdepth : 1 ≤ depth) {n digits : Nat} (h : (Text.ofNat n).length ≤ digits) :
    ∃ pairs, SaysFailure depth (numberedFailure n) pairs ∧
      Json.IsObjectDocument digits (Utf8.decodeLossless (numberedFailure n)) pairs ∧
      Members.lastValue? (Text.ofString "data") pairs = some (.int n) := by
  have htext : Utf8.decodeLossless (numberedFailure n) = Json.write .compact (numberedValue n) :=
    Utf8.decodeLossless_encodeAll (Json.isScalar_write Json.Spacing.isBlank_compact _)
  have hvalue : (numberedValue n).depth ≤ depth := by
    simpa [numberedValue, Json.depth, Json.membersDepth] using hdepth
  have hread := Json.read_write Json.Spacing.isBlank_compact (isWritable_numberedValue h) hvalue
  obtain ⟨pairs, hpairs, hmembers⟩ := (Json.isDocument_of_read hread).exists_isObjectText
  have hnesting := Json.nesting_le_of_read hread
  -- what the pairs say is what the written object says, whichever pairs they are
  have hlast : ∀ name, Members.lastValue? name pairs =
      Members.get? name [(Text.ofString "success", .bool false), (Text.ofString "data", .int n)] := fun name => by
    rw [← Members.get?_ofPairs, ← hmembers]
  rw [← htext] at hpairs hnesting
  refine ⟨pairs, ⟨⟨_, hpairs⟩, hnesting, ?_, .inl fun hsuccess => ?_⟩, hpairs, ?_⟩
  · refine ⟨⟨.int n, false, none, none, none, none⟩, (ofMembers?_eq_some_iff pairs _).1 ?_⟩
    rw [← hmembers]
    rfl
  · rw [hlast] at hsuccess
    cases Option.some.inj hsuccess
  · rw [hlast]
    rfl

theorem failed_numberedFailure : ∃ pairs r log, SaysFailure 1 (numberedFailure 7) pairs ∧
    receive 1 (numberedFailure 7 ++ [Frame.eot]) = .ok (r, log) ∧ r.failed = true := by
  obtain ⟨pairs, hfailure, hpairs, -⟩ :=
    exists_numberedFailure (Nat.le_refl 1) (show (Text.ofNat 7).length ≤ Text.maxIntegerDigits by decide)
  obtain ⟨r, log, hreceive, hfailed⟩ := failed_iff hfailure (.inr rfl)
  exact ⟨pairs, r, log, hfailure, hreceive, hfailed.2 hpairs⟩

/-- With whatever room for objects, not every payload that says a failure is reported as one: the power of ten with one
digit more than is read is too long an integer. -/
theorem not_forall_failed : ¬∃ depth, 1 ≤ depth ∧ ∀ (payload data : Bytes) (pairs : List (Text × Json)),
    SaysFailure depth payload pairs → (data = payload ∨ data = payload ++ [Frame.eot]) →
      ∃ r log, receive depth data = .ok (r, log) ∧ r.failed = true := by
  rintro ⟨depth, hdepth, h⟩
  obtain ⟨pairs, hfailure, -, hnumber⟩ :=
    exists_numberedFailure hdepth (Nat.le_refl (Text.ofNat (10 ^ Text.maxIntegerDigits)).length)
  obtain ⟨r, log, hreceive, hfailed⟩ := h _ _ pairs hfailure (.inl rfl)
  obtain ⟨o, hreceive', hobject⟩ := hfailure.exists_receive (.inl rfl)
  rw [hreceive] at hreceive'
  cases o with
  | some r' =>
    -- the number would have to be less than itself
    have hlt := ((hobject r').1 rfl).2.natAbs_lt (Members.mem_of_lastValue? hnumber)
    rw [Int.natAbs_natCast] at hlt
    exact absurd hlt (Nat.lt_irrefl _)
  | none =>
    -- plain text is a success
    obtain rfl := (Prod.mk.inj (Except.ok.inj hreceive')).1
    cases hfailed

end WireCodec.Response
