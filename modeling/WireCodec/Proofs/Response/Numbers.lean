import WireCodec.Proofs.Binary64.Overflow
import WireCodec.Proofs.Response.Normal
import WireCodec.Proofs.Text.Scalars

/-!
# Numbers in responses

The words for numbers that are not finite are no JSON and are not read.  Still a response can hold an infinity: a
numeral that overflows is read as one.  There is no other way, and a response without such numerals can be written as
JSON (`floats_of_receive`).
-/

namespace WireCodec

/-- A floating-point number, if the value is one, is read from a numeral in the text, is no not-a-number, and is finite
exactly if the numeral does not overflow. -/
def Json.IsReadFrom (t : Text) : Json → Prop
  | .float x => x ≠ .nan ∧ ∃ (n : Numeral) (s : Text), s <:+: t ∧ n.Spells s ∧ n.isInteger = false ∧
      x = Binary64.ofDecimal n.toDecimal ∧ (x.IsFinite ↔ n.toDecimal.magnitude < Binary64.overflow)
  | _ => True

/-- Floating-point numbers come from numerals only. -/
theorem Json.isReadFrom_of_read {depth : Nat} {t : Text} {v : Json} (h : read (.strict depth) t = .ok v) :
    v.Forall (IsReadFrom t) := by
  obtain ⟨s, hs, hvalue⟩ := exists_isValue_of_read h
  refine hvalue.forall_of_scalar (fun {s w} hinfix hscalar => ?_) (fun _ => trivial) (fun _ => trivial) hs
  cases hscalar with
  | word hword =>
    simp only [words, List.mem_cons, Prod.mk.injEq, List.not_mem_nil, or_false] at hword
    rcases hword with ⟨-, rfl⟩ | ⟨-, rfl⟩ | ⟨-, rfl⟩ <;> exact trivial
  -- NaN and the infinities are words of the lenient reader only
  | nonFinite hwords => cases hwords
  | integer => exact trivial
  | @float n _ hspells hinteger =>
    have hfinite := Binary64.isFinite_ofDecimal_iff n.toDecimal
    exact ⟨Binary64.ofDecimal_ne_nan n.toDecimal, n, s, hinfix, hspells, hinteger, rfl, hfinite⟩
  | string => exact trivial

namespace Response

variable {depth : Nat} {data : Bytes} {r : Response} {log : List Log.Record}

theorem forall_of_receive {p : Json → Prop} (h : receive depth data = .ok (r, log)) (hnull : p .null)
    (hread : ∀ v, Json.read (.strict depth) (payloadText data) = .ok v → v.Forall p) :
    r.data.Forall p ∧ ∀ m ∈ r.details, (Json.obj m).Forall p := by
  rcases receive_cases h with ⟨members, hmembers, -, hsaid⟩ | rfl
  · have hall := (Json.forall_obj.1 (hread _ hmembers)).2
    -- data that are null need no member
    constructor
    · cases hdata : r.data with
      | null => exact hnull
      | _ => exact hdata ▸ hall _ (hsaid.data_mem (by rw [hdata]; nofun))
    · exact fun m hm => hall _ (hsaid.details_mem hm)
  · exact ⟨hnull, nofun⟩

theorem finite_toJson (hdata : r.data.Forall Json.IsFiniteFloat)
    (hdetails : ∀ m ∈ r.details, (Json.obj m).Forall Json.IsFiniteFloat) : r.toJson.Forall Json.IsFiniteFloat := by
  refine Json.forall_obj.2 ⟨trivial, fun p hp => ?_⟩
  rcases mem_toMembers hp with rfl | ⟨-, rfl⟩ | ⟨t, -, rfl⟩ | ⟨t, -, rfl⟩ | ⟨t, -, rfl⟩ | ⟨m, hm, rfl⟩
  · exact trivial
  · exact hdata
  · exact trivial
  · exact trivial
  · exact trivial
  · exact hdetails m hm

/-! ### Numerals as data -/

/-- The object that has a numeral as its data. -/
def numberText (t : Text) : Text := .ofChar '\x7b' :: (Text.ofString "\"data\":" ++ (t ++ [.ofChar '\x7d']))

section Numerals

variable {n : Numeral} {t : Text}

private theorem isScalar_numberText (h : n.Spells t) : (numberText t).IsScalar := by
  have ht : t.IsScalar := by
    refine Text.isScalar_of_val_lt fun c hc => ?_
    rcases h.val_of_mem hc with hdigit | hval
    · have hdigit := CodePoint.isDigit_iff.1 hdigit
      omega
    · omega
  have htext : numberText t = Text.ofString "\x7b\"data\":" ++ (t ++ Text.ofString "\x7d") := rfl
  rw [htext]
  simp only [Text.isScalar_append, Text.isScalar_ofString, ht, and_self]

private theorem read_numberText (hdepth : 1 ≤ depth) (h : n.Spells t) (hinteger : n.isInteger = false) :
    Json.read (.strict depth) (numberText t) =
      .ok (.obj [(Text.ofString "data", .float (Binary64.ofDecimal n.toDecimal))]) := by
  obtain ⟨inside, rfl⟩ := Nat.exists_eq_add_of_le' hdepth
  have hname : Json.IsName (Text.ofString "\"data\":") (Text.ofString "data") :=
    .intro (Json.isString_writeString (Text.ofString "data")) Json.isBlanks_nil Json.isBlanks_nil
  have hnumber : Json.IsValue (.strict (inside + 1)) inside t (.float (Binary64.ofDecimal n.toDecimal)) :=
    (Json.IsScalar.float h hinteger).isValue inside
  have hvalue : Json.IsValue (.strict (inside + 1)) (inside + 1) (numberText t)
      (.obj [(Text.ofString "data", .float (Binary64.ofDecimal n.toDecimal))]) :=
    .inr (.object Json.isBlanks_nil (.last hname hnumber Json.isBlanks_nil))
  have hdocument := Json.IsDocument.intro Json.isBlanks_nil hvalue Json.isBlanks_nil
  rw [List.nil_append, List.append_nil] at hdocument
  have hmark : Json.startsWithMark (numberText t) = false := rfl
  rw [Json.read_of_no_mark (Bool.not_eq_true _ ▸ hmark), Json.document_of_isDocument hdocument]
  rfl

theorem receive_numberText (hdepth : 1 ≤ depth) (h : n.Spells t) (hinteger : n.isInteger = false) :
    receive depth (Utf8.encodeAll (numberText t)) =
      .ok (⟨.float (Binary64.ofDecimal n.toDecimal), false, none, none, none, none⟩, []) :=
  receive_of_read (isScalar_numberText h) (read_numberText hdepth h hinteger) rfl (.inl rfl)

/-- A numeral that overflows makes a response with an infinity. -/
theorem receive_overflow (hdepth : 1 ≤ depth) (h : n.Spells t) (hinteger : n.isInteger = false)
    (hoverflow : Binary64.overflow ≤ n.toDecimal.magnitude) :
    receive depth (Utf8.encodeAll (numberText t)) =
      .ok (⟨.float (.infinite n.negative), false, none, none, none, none⟩, []) := by
  have hinfinite : Binary64.ofDecimal n.toDecimal = .infinite n.negative := Binary64.ofDecimal_of_overflow_le hoverflow
  rw [receive_numberText hdepth h hinteger, hinfinite]

end Numerals

/-! ### All responses -/

theorem exists_isDocument_write (h : receive depth data = .ok (r, log)) (hdata : r.data.Forall Json.IsFiniteFloat)
    (hdetails : ∀ m ∈ r.details, (Json.obj m).Forall Json.IsFiniteFloat) {s : Json.Spacing} (hs : s.IsBlank) :
    ∃ v, Json.IsDocument (.strict (max depth 1)) (r.toJson.write s) v := by
  have hfinite := finite_toJson hdata hdetails
  exact ⟨_, Json.isDocument_write_joined hs (integers_toJson h) (.inr hfinite) (depth_toJson_le h)⟩

/-- Every floating-point number in a response is read from a numeral of its payload: it is no not-a-number, and it is
an infinity exactly if this numeral overflows.  If none does, the response can be written as JSON, nested no deeper than
there was room for. -/
theorem floats_of_receive (h : receive depth data = .ok (r, log)) :
    r.data.Forall (Json.IsReadFrom (payloadText data)) ∧
    (∀ m ∈ r.details, (Json.obj m).Forall (Json.IsReadFrom (payloadText data))) ∧
    (r.data.Forall Json.IsFiniteFloat → (∀ m ∈ r.details, (Json.obj m).Forall Json.IsFiniteFloat) →
      ∀ s : Json.Spacing, s.IsBlank → ∃ v, Json.IsDocument (.strict (max depth 1)) (r.toJson.write s) v) := by
  obtain ⟨hdata, hdetails⟩ := forall_of_receive h trivial fun v hv => Json.isReadFrom_of_read hv
  exact ⟨hdata, hdetails, fun hfinite hfinite' s hs => exists_isDocument_write h hfinite hfinite' hs⟩

/-! ### A numeral that overflows -/

/-- The numeral `1e999`. -/
def large : Numeral := ⟨false, Text.ofString "1", [], some (false, Text.ofString "999")⟩

/-- The payload that has it as its data. -/
def largePayload : Bytes := Utf8.encodeAll (numberText (Text.ofString "1e999"))

private theorem receive_largePayload (hdepth : 1 ≤ depth) :
    receive depth largePayload = .ok (⟨.float (.infinite false), false, none, none, none, none⟩, []) := by
  have hspells : large.Spells (Text.ofString "1e999") :=
    ⟨Text.ofString "e999", rfl, .inr ⟨_, _, rfl, by decide, by decide⟩, nofun,
      .present (.inl rfl) .absent (by decide) (by decide)⟩
  have hfinite : ¬(Binary64.ofDecimal large.toDecimal).IsFinite := by
    rw [show Binary64.ofDecimal large.toDecimal = .infinite false from rfl]
    exact id
  have hoverflow : Binary64.overflow ≤ large.toDecimal.magnitude :=
    not_lt.1 fun hlt => hfinite ((Binary64.isFinite_ofDecimal_iff _).2 hlt)
  exact receive_overflow hdepth hspells rfl hoverflow

theorem floats_of_receive_large :
    receive 1 largePayload = .ok (⟨.float (.infinite false), false, none, none, none, none⟩, []) ∧
      ∃ (n : Numeral) (s : Text), s <:+: payloadText largePayload ∧ n.Spells s ∧
        Binary64.overflow ≤ n.toDecimal.magnitude := by
  obtain ⟨-, n, s, hs, hspells, -, -, hfinite⟩ := (floats_of_receive (receive_largePayload (Nat.le_refl 1))).1
  exact ⟨receive_largePayload (Nat.le_refl 1), n, s, hs, hspells, not_lt.1 fun hlt => hfinite.2 hlt⟩

/-- With whatever room for objects, not every response holds finite numbers only. -/
theorem not_forall_finite : ¬∃ depth, 1 ≤ depth ∧ ∀ data r log, receive depth data = .ok (r, log) →
    r.data.Forall Json.IsFiniteFloat ∧ ∀ m ∈ r.details, (Json.obj m).Forall Json.IsFiniteFloat := by
  rintro ⟨depth, hdepth, h⟩
  exact (h _ _ _ (receive_largePayload hdepth)).1

end Response

end WireCodec
