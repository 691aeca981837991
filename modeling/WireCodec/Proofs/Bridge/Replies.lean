import WireCodec.Bridge.Basic
import WireCodec.Proofs.Response.Acceptance

/-!
# Which calls have a reply

A call has no reply exactly if it reads a text as JSON in which more arrays and objects are open at once than there is
room for, before any other fault of the text.  Every other call has an object as its reply, and this object is the one
of a failed call exactly if the call cannot be processed (`reply_cases`).  However much room calls are given, some call
needs more (`not_forall_reply`).
-/

namespace WireCodec.Bridge

/-! ### What a call needs -/

/-- The text that a call reads as JSON, and the limits of reading it with the given room for nested values. -/
def Call.document? (depth : Nat) : Call → Option (Json.Limits × Text)
  | .decodeResponse frameHex =>
    match Hex.decode frameHex with
    | .ok data => if data = [] then none else some (.strict depth, Utf8.decodeLossless (Frame.payload data))
    | .error _ => none
  | .describeError payload => some (.lenient depth, payload)
  | _ => none

/-- In the text that a call reads as JSON, up to its first fault, more arrays and objects are open at once than there
is room for. -/
def Call.IsTooDeep (depth : Nat) (k : Call) : Prop :=
  ∃ d ∈ k.document? depth, d.1.depth < Json.nesting (Json.readablePart d.1 d.2)

private theorem isTooDeep_iff {depth : Nat} {k : Call} {limits : Json.Limits} {t : Text}
    (h : k.document? depth = some (limits, t)) :
    k.IsTooDeep depth ↔ ∃ e, Json.read limits t = .error e ∧ e.fault = .tooDeep := by
  rw [Json.read_tooDeep_iff]
  refine ⟨?_, fun hdeep => ⟨_, h, hdeep⟩⟩
  rintro ⟨d, hd, hdeep⟩
  obtain rfl := Option.some.inj (h.symm.trans hd)
  exact hdeep

private theorem not_isTooDeep {depth : Nat} {k : Call} (h : k.document? depth = none) : ¬k.IsTooDeep depth := by
  rintro ⟨d, hd, -⟩
  rw [h] at hd
  cases hd

/-- What a call must be like to be processed: not too many parameters, a frame with any bytes in it, an answer of
acceptance, a payload that stands for an error. -/
def Call.IsProcessable (depth : Nat) (c : Config) : Call → Prop
  | .encodeCommand _ parameters => parameters.length ≤ c.maxParameters
  | .decodeResponse frameHex => ∃ data, Hex.decode frameHex = .ok data ∧ data ≠ []
  | .handshakeFrame => True
  | .checkHandshakeReply frameHex => ∃ data, Hex.decode frameHex = .ok data ∧ data ≠ [] ∧
      Handshake.acceptance <+: Utf8.decodeLossless (Frame.payload data)
  | .describeError payload => ∃ e, TransportError.deserialize depth payload = .ok e

/-- The members of the object that answers a failed call. -/
def IsFailure (m : Members) : Prop := ∃ e : TransportError, m = [(Text.ofString "error", e.toJson)]

/-- A reply is an object, and the one of a failed call exactly if the call cannot be processed. -/
def Answers (processable : Prop) (r : Reply) : Prop := ∃ m, r.result = .obj m ∧ (IsFailure m ↔ ¬processable)

private theorem answers_rejected {p : Prop} (h : ¬p) (e : TransportError) : Answers p (rejected e) :=
  ⟨_, rfl, iff_of_true ⟨e, rfl⟩ h⟩

private theorem answers_of_ne {p : Prop} (h : p) {r : Reply} {name : Text} {v : Json} {m : Members}
    (hr : r.result = .obj ((name, v) :: m)) (hname : name ≠ Text.ofString "error") : Answers p r := by
  refine ⟨_, hr, iff_of_false ?_ (not_not_intro h)⟩
  rintro ⟨e, he⟩
  exact hname (Prod.mk.inj (List.cons.inj he).1).1

/-! ### The calls -/

variable (depth : Nat) (c : Config)

private theorem answers_encodeCommand (command : Text) (parameters : List Text) :
    Answers ((Call.encodeCommand command parameters).IsProcessable depth c) (encodeCommand c command parameters) := by
  unfold encodeCommand
  split
  · next h => exact answers_rejected (by show ¬(_ ≤ _); omega) _
  · next h => exact answers_of_ne (by show _ ≤ _; omega) rfl (by decide)

theorem frameOfHex_of_ok {t : Text} {data : Bytes} (h : Hex.decode t = .ok data) :
    frameOfHex t = .ok data := by
  rw [frameOfHex, h]
  rfl

theorem frameOfHex_of_error {t : Text} {position : Nat} (h : Hex.decode t = .error position) :
    ∃ e, frameOfHex t = .error e := by
  rw [frameOfHex, h]
  exact ⟨_, rfl⟩

private theorem verdict_ok_iff (answer : Text) :
    Handshake.verdict answer = .ok () ↔ Handshake.acceptance <+: answer := by
  unfold Handshake.verdict
  split
  · next h => exact iff_of_true rfl (List.isPrefixOf_iff_prefix.1 h)
  · next h =>
    refine iff_of_false ?_ (mt List.isPrefixOf_iff_prefix.2 h)
    split <;> nofun

private theorem answers_checkHandshakeReply (frameHex : Text) :
    Answers ((Call.checkHandshakeReply frameHex).IsProcessable depth c) (checkHandshakeReply frameHex) := by
  unfold checkHandshakeReply
  cases hhex : Hex.decode frameHex with
  | error position =>
    obtain ⟨e, he⟩ := frameOfHex_of_error hhex
    rw [he]
    refine answers_rejected ?_ e
    rintro ⟨data, hdata, -⟩
    rw [hhex] at hdata
    cases hdata
  | ok data =>
    have hcheck : Handshake.check data = .ok () ↔ (Call.checkHandshakeReply frameHex).IsProcessable depth c := by
      show _ ↔ ∃ data', _ ∧ _
      simp only [hhex, Except.ok.injEq, exists_eq_left', Handshake.check]
      split
      · next h => exact iff_of_false nofun fun h' => h'.1 h
      · next h => rw [verdict_ok_iff, and_iff_right h]
    rw [frameOfHex_of_ok hhex]
    dsimp only
    cases hresult : Handshake.check data with
    | ok u => exact answers_of_ne (hcheck.1 hresult) rfl (by decide)
    | error e => exact answers_rejected (mt hcheck.2 (by rw [hresult]; nofun)) _

private theorem answers_response {p : Prop} (h : p) (r : Response) (log : List Log.Record) :
    Answers p ⟨r.toJson, log⟩ :=
  answers_of_ne h rfl (by decide)

private theorem decodeResponse_cases (frameHex : Text) :
    ((Call.decodeResponse frameHex).IsTooDeep depth ∧ decodeResponse depth frameHex = .error .tooDeep) ∨
    (¬(Call.decodeResponse frameHex).IsTooDeep depth ∧ ∃ r, decodeResponse depth frameHex = .ok r ∧
      Answers ((Call.decodeResponse frameHex).IsProcessable depth c) r) := by
  unfold decodeResponse
  cases hhex : Hex.decode frameHex with
  | error position =>
    have hdocument : (Call.decodeResponse frameHex).document? depth = none := by simp only [Call.document?, hhex]
    obtain ⟨e, he⟩ := frameOfHex_of_error hhex
    rw [he]
    refine .inr ⟨not_isTooDeep hdocument, _, rfl, answers_rejected ?_ e⟩
    rintro ⟨data, hdata, -⟩
    rw [hhex] at hdata
    cases hdata
  | ok data =>
    rw [frameOfHex_of_ok hhex]
    dsimp only
    by_cases hempty : data = []
    · have hdocument : (Call.decodeResponse frameHex).document? depth = none := by
        simp only [Call.document?, hhex, if_pos hempty]
      rw [Response.receive, if_pos hempty]
      refine .inr ⟨not_isTooDeep hdocument, _, rfl, answers_rejected ?_ _⟩
      rintro ⟨data', hdata, hne⟩
      rw [hhex] at hdata
      exact hne (Except.ok.inj hdata ▸ hempty)
    · have hdocument : (Call.decodeResponse frameHex).document? depth =
          some (.strict depth, Utf8.decodeLossless (Frame.payload data)) := by
        simp only [Call.document?, hhex, if_neg hempty]
      have hprocessable : (Call.decodeResponse frameHex).IsProcessable depth c := ⟨data, hhex, hempty⟩
      rw [isTooDeep_iff hdocument, Response.receive, if_neg hempty]
      dsimp only
      unfold Response.ofText?
      cases Json.read (.strict depth) (Utf8.decodeLossless (Frame.payload data)) with
      | ok v =>
        refine .inr ⟨by simp, ?_⟩
        cases Response.ofJson? v <;> exact ⟨_, rfl, answers_response hprocessable _ _⟩
      | error e =>
        by_cases hdeep : e.fault = .tooDeep
        · exact .inl ⟨⟨e, rfl, hdeep⟩, by simp only [if_pos hdeep]; rfl⟩
        · refine .inr ⟨?_, _, by simp only [if_neg hdeep]; rfl, answers_response hprocessable _ _⟩
          rintro ⟨e', he, hdeep'⟩
          exact hdeep (Except.error.inj he ▸ hdeep')

/-- A frame that was decoded is refused as hexadecimal, is refused as empty, or is received as a response. -/
theorem decodeResponse_eq_ok {depth : Nat} {frameHex : Text} {r : Reply} (h : decodeResponse depth frameHex = .ok r) :
    (∃ e, frameOfHex frameHex = .error e ∧ r = rejected e) ∨
    (Hex.decode frameHex = .ok [] ∧
      r = rejected (.protocol (CodecError.emptyFrame CodecError.response).message [])) ∨
    ∃ data x log, Hex.decode frameHex = .ok data ∧ Response.receive depth data = .ok (x, log) ∧
      r = ⟨x.toJson, log⟩ := by
  unfold decodeResponse at h
  cases hhex : Hex.decode frameHex with
  | error position =>
    obtain ⟨e, he⟩ := frameOfHex_of_error hhex
    rw [he] at h
    exact .inl ⟨e, he, (Except.ok.inj h).symm⟩
  | ok data =>
    rw [frameOfHex_of_ok hhex] at h
    dsimp only at h
    split at h
    · next x log hreceive => exact .inr (.inr ⟨data, x, log, rfl, hreceive, (Except.ok.inj h).symm⟩)
    · next hempty => exact .inr (.inl ⟨by rw [Response.eq_nil_of_receive hempty], (Except.ok.inj h).symm⟩)
    · cases h

private theorem describeError_cases (payload : Text) :
    ((Call.describeError payload).IsTooDeep depth ∧ describeError depth payload = .error .tooDeep) ∨
    (¬(Call.describeError payload).IsTooDeep depth ∧ ∃ r, describeError depth payload = .ok r ∧
      Answers ((Call.describeError payload).IsProcessable depth c) r) := by
  have hdocument : (Call.describeError payload).document? depth = some (.lenient depth, payload) := rfl
  rw [isTooDeep_iff hdocument]
  show _ ∨ _ ∧ ∃ r, _ ∧ Answers (∃ e, TransportError.deserialize depth payload = .ok e) r
  unfold describeError TransportError.deserialize
  cases Json.read (.lenient depth) payload with
  | ok v =>
    refine .inr ⟨nofun, ?_⟩
    dsimp only
    cases TransportError.ofJson v with
    | ok e => exact ⟨_, rfl, answers_of_ne ⟨e, rfl⟩ rfl (by decide)⟩
    | error fault => exact ⟨_, rfl, answers_rejected (by nofun) _⟩
  | error e =>
    dsimp only [TransportError.refusalOf]
    by_cases hdeep : e.fault = .tooDeep
    · have htooDeep : (Json.DocumentError.text e).isTooDeep = true := decide_eq_true hdeep
      rw [if_pos htooDeep]
      exact .inl ⟨⟨e, rfl, hdeep⟩, rfl⟩
    · have htooDeep : ¬(Json.DocumentError.text e).isTooDeep = true := mt of_decide_eq_true hdeep
      rw [if_neg htooDeep]
      refine .inr ⟨?_, _, rfl, answers_rejected (by nofun) _⟩
      rintro ⟨e', he, hdeep'⟩
      exact hdeep (Except.error.inj he ▸ hdeep')

theorem answers_of_reply {depth : Nat} {c : Config} {k : Call} {r : Reply} (h : reply depth c k = .ok r) :
    Answers (k.IsProcessable depth c) r := by
  cases k with
  | encodeCommand command parameters =>
    obtain rfl := Except.ok.inj h
    exact answers_encodeCommand depth c command parameters
  | decodeResponse frameHex =>
    rcases decodeResponse_cases depth c frameHex with ⟨-, hnone⟩ | ⟨-, r', hr', hanswers⟩
    · exact nomatch hnone.symm.trans h
    · rwa [← Except.ok.inj (hr'.symm.trans h)]
  | handshakeFrame =>
    obtain rfl := Except.ok.inj h
    exact answers_of_ne trivial rfl (by decide)
  | checkHandshakeReply frameHex =>
    obtain rfl := Except.ok.inj h
    exact answers_checkHandshakeReply depth c frameHex
  | describeError payload =>
    rcases describeError_cases depth c payload with ⟨-, hnone⟩ | ⟨-, r', hr', hanswers⟩
    · exact nomatch hnone.symm.trans h
    · rwa [← Except.ok.inj (hr'.symm.trans h)]

theorem reply_eq_error_iff (k : Call) : reply depth c k = .error .tooDeep ↔ k.IsTooDeep depth := by
  cases k with
  | encodeCommand command parameters => exact iff_of_false nofun (not_isTooDeep rfl)
  | decodeResponse frameHex =>
    rcases decodeResponse_cases depth c frameHex with ⟨hdeep, hnone⟩ | ⟨hnot, r, hr, -⟩
    · exact iff_of_true hnone hdeep
    · exact iff_of_false (fun hnone => nomatch hr.symm.trans hnone) hnot
  | handshakeFrame => exact iff_of_false nofun (not_isTooDeep rfl)
  | checkHandshakeReply frameHex => exact iff_of_false nofun (not_isTooDeep rfl)
  | describeError payload =>
    rcases describeError_cases depth c payload with ⟨hdeep, hnone⟩ | ⟨hnot, r, hr, -⟩
    · exact iff_of_true hnone hdeep
    · exact iff_of_false (fun hnone => nomatch hr.symm.trans hnone) hnot

/-- A call has no reply exactly if its text is nested too deeply; every other call has an object as its reply, and
this is the one of a failed call, with a transport error as its only member, exactly if the call cannot be
processed. -/
theorem reply_cases (k : Call) :
    (k.IsTooDeep depth ∧ reply depth c k = .error .tooDeep) ∨
    (¬k.IsTooDeep depth ∧ ∃ r, reply depth c k = .ok r ∧ Answers (k.IsProcessable depth c) r) := by
  have hdeep := reply_eq_error_iff depth c k
  cases hreply : reply depth c k with
  | error o =>
    cases o with
    | tooDeep => exact .inl ⟨hdeep.1 hreply, rfl⟩
  | ok r =>
    refine .inr ⟨fun h => ?_, r, rfl, answers_of_reply hreply⟩
    exact nomatch hreply.symm.trans (hdeep.2 h)

/-- Not every call has a reply, whatever room each call is given, as long as there is a bound to it: a text of
brackets, all opened, can be longer than that. -/
theorem not_forall_reply : ¬∃ (bound : Nat) (depth : Call → Nat), (∀ k, depth k ≤ bound) ∧
    ∀ (c : Config) (k : Call), ∃ r, reply (depth k) c k = .ok r := by
  rintro ⟨bound, depth, hbound, h⟩
  let payload : Text := List.replicate (bound + 1) (.ofChar '[')
  obtain ⟨r, hr⟩ := h .default (.describeError payload)
  have hle := hbound (.describeError payload)
  generalize depth (.describeError payload) = room at hr hle
  have hsplit : payload = List.replicate (room + 1) (.ofChar '[') ++ List.replicate (bound - room) (.ofChar '[') := by
    rw [List.replicate_append_replicate, show room + 1 + (bound - room) = bound + 1 by omega]
  have hread := Json.read_brackets (.lenient room) (List.replicate (bound - room) (.ofChar '['))
  have hdeep : (Call.describeError payload).IsTooDeep room := (isTooDeep_iff rfl).2 (hsplit ▸ hread)
  exact nomatch ((reply_eq_error_iff room .default _).2 hdeep).symm.trans hr

end WireCodec.Bridge
