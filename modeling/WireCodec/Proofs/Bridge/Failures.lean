import WireCodec.Proofs.Bridge.Replies
import WireCodec.Proofs.Bridge.Settings
import WireCodec.Proofs.Response.Normal
import WireCodec.Proofs.TransportError.RoundTrip
import WireCodec.Proofs.TransportError.Wording

/-!
# What failed calls report

A call that fails reports an error of the protocol or of its version, which is not to be tried again, and which the
bridge itself describes when it is given back to it.  No answer of a server looks like such a report
(`reply_report`).
-/

namespace WireCodec

namespace Bridge

/-! ### Reports -/

/-- A call whose number of parameters is read back when it is written.  It has no more digits than are read, as the
length of any list has that a memory can hold. -/
def Call.IsCountable : Call → Prop
  | .encodeCommand _ parameters => (Text.ofNat parameters.length).length ≤ Text.maxIntegerDigits
  | _ => True

/-- What a failed call reports: an error of the protocol or of its version that is not to be tried again and survives
the wire, as an object with at most its details inside. -/
structure IsReport (k : Call) (e : TransportError) : Prop where
  code : e.code = .protocolVersionMismatch ∨ e.code = .protocolError
  retryable : e.retryable = false
  portable : k.IsCountable → ∀ depth, 2 ≤ depth → e.IsPortable depth

variable {depth : Nat} {c : Config} {k : Call} {r : Reply}

private theorem isReport_protocol {message : Text} (h : message.HasNoHigh) : IsReport k (.protocol message []) where
  code := .inr rfl
  retryable := rfl
  portable _ _ hdepth := TransportError.isPortable_of_details_eq_nil (Nat.le_of_succ_le hdepth) h.isUnpaired rfl

private theorem isReport_of_frameOfHex {frameHex : Text} {e : TransportError} (h : frameOfHex frameHex = .error e) :
    IsReport k e := by
  unfold frameOfHex at h
  cases hhex : Hex.decode frameHex with
  | ok data =>
    rw [hhex] at h
    cases h
  | error position =>
    rw [hhex] at h
    obtain rfl := Except.error.inj h
    -- the message names the place of the fault and nothing of the frame
    refine isReport_protocol (Text.IsScalar.hasNoHigh ?_)
    simp [Hex.refusal]

private theorem isReport_tooMany (hc : 1 ≤ c.maxParameters) {command : Text} {parameters : List Text}
    (h : c.maxParameters < parameters.length) :
    IsReport (.encodeCommand command parameters) (.protocol (Text.ofString "too many parameters")
      [(Text.ofString "paramCount", .int parameters.length), (Text.ofString "max", .int c.maxParameters)]) where
  code := .inr rfl
  retryable := rfl
  portable hcount depth hdepth := by
    have hcount : (Text.ofNat parameters.length).length ≤ Text.maxIntegerDigits := hcount
    -- the maximum is positive, so it has no more digits than the number that exceeds it
    have hmax : (Text.ofNat c.maxParameters.natAbs).length ≤ Text.maxIntegerDigits :=
      Text.length_ofNat_le (by omega) hcount
    have hnames : ∀ name ∈ [Text.ofString "paramCount", Text.ofString "max"], name.IsUnpaired := by decide
    have hnodup : [Text.ofString "paramCount", Text.ofString "max"].Nodup := by decide
    refine TransportError.isPortable_of_flat hdepth (Text.isScalar_ofString _).hasNoHigh.isUnpaired hnodup
      (fun m hm => hnames m.1 (List.mem_map_of_mem hm)) fun m hm => ?_
    rcases List.mem_cons.1 hm with rfl | hm
    · exact .inl ⟨_, rfl, hcount⟩
    · obtain rfl := List.mem_singleton.1 hm
      exact .inl ⟨_, rfl, hmax⟩

private theorem isReport_of_check {data : Bytes} {e : CodecError} (h : Handshake.check data = .error e) :
    IsReport k (handshakeError e) := by
  -- what is said of an answer holds parts of its text, which was read from bytes
  have htext := Utf8.hasNoHigh_decodeLossless (Frame.payload data)
  rcases Handshake.check_eq_error h with rfl | rfl | rfl
  · exact isReport_protocol (Text.isScalar_ofString "empty version response data").hasNoHigh
  · refine ⟨.inl rfl, rfl, fun _ depth hdepth => ?_⟩
    exact TransportError.isPortable_of_details_eq_nil (Nat.le_of_succ_le hdepth) (htext.drop _).isUnpaired rfl
  · have hmessage := (Text.isScalar_ofString "unexpected version response: ").hasNoHigh.append htext
    have hname : (Text.ofString "reply").IsUnpaired := by decide
    refine ⟨.inr rfl, rfl, fun _ depth hdepth => ?_⟩
    refine TransportError.isPortable_of_flat hdepth hmessage.isUnpaired (List.nodup_singleton _) (fun m hm => ?_)
      fun m hm => ?_
    · rwa [List.mem_singleton.1 hm]
    · exact .inr ⟨_, by rw [List.mem_singleton.1 hm], htext.isUnpaired⟩

/-! ### Answers of a server -/

/-- What a decoded response says: whether the call succeeded, and its error, if there is one, as a text. -/
structure IsServerAnswer (m : Members) : Prop where
  success : ∃ b, Members.get? (Text.ofString "success") m = some (.bool b)
  error : ∀ v, Members.get? (Text.ofString "error") m = some v → ∃ t, v = .str t

theorem isServerAnswer_toMembers (x : Response) : IsServerAnswer x.toMembers where
  success := ⟨x.success, rfl⟩
  error _ hv := by
    rw [x.get?_error_toMembers] at hv
    obtain ⟨t, -, rfl⟩ := Option.map_eq_some_iff.1 hv
    exact ⟨t, rfl⟩

/-! ### All calls -/

/-- A reply reports an error, or has no error that is an object. -/
def IsSettled (k : Call) (r : Reply) : Prop :=
  (∃ e, r = rejected e ∧ IsReport k e) ∨
    ∃ m, r.result = .obj m ∧ ∀ e, Members.get? (Text.ofString "error") m ≠ some (.obj e)

private theorem isSettled_of_get? {m : Members} (hr : r.result = .obj m)
    (hm : Members.get? (Text.ofString "error") m = none) : IsSettled k r :=
  .inr ⟨m, hr, fun _ he => nomatch hm.symm.trans he⟩

private theorem get?_error_description (e : TransportError) (v v' : Json) :
    Members.get? (Text.ofString "error")
      (e.toMembers ++ [(Text.ofString "name", v), (Text.ofString "category", v')]) = none := by
  unfold TransportError.toMembers
  split <;> rfl

theorem isSettled_decodeResponse {frameHex : Text} (h : decodeResponse depth frameHex = .ok r) :
    IsSettled (.decodeResponse frameHex) r := by
  rcases decodeResponse_eq_ok h with ⟨e, he, rfl⟩ | ⟨-, rfl⟩ | ⟨data, x, log, -, -, rfl⟩
  · exact .inl ⟨e, rfl, isReport_of_frameOfHex he⟩
  · exact .inl ⟨_, rfl, isReport_protocol (Text.isScalar_ofString "empty response data").hasNoHigh⟩
  · refine .inr ⟨x.toMembers, rfl, fun e he => ?_⟩
    obtain ⟨t, ht⟩ := (isServerAnswer_toMembers x).error _ he
    cases ht

theorem isSettled_checkHandshakeReply (frameHex : Text) :
    IsSettled (.checkHandshakeReply frameHex) (checkHandshakeReply frameHex) := by
  unfold checkHandshakeReply
  cases hframe : frameOfHex frameHex with
  | error e => exact .inl ⟨e, rfl, isReport_of_frameOfHex hframe⟩
  | ok data =>
    dsimp only
    cases hcheck : Handshake.check data with
    | ok u => exact isSettled_of_get? rfl rfl
    | error e => exact .inl ⟨_, rfl, isReport_of_check hcheck⟩

theorem isSettled_describeError {payload : Text} (h : describeError depth payload = .ok r) :
    IsSettled (.describeError payload) r := by
  unfold describeError at h
  split at h
  · next e _ =>
    obtain rfl := Except.ok.inj h
    exact isSettled_of_get? rfl (get?_error_description e _ _)
  · next fault _ =>
    obtain rfl := Except.ok.inj h
    exact .inl ⟨_, rfl, isReport_protocol fault.isScalar_message.hasNoHigh⟩
  · cases h

theorem isSettled_reply (hc : 1 ≤ c.maxParameters) (h : reply depth c k = .ok r) : IsSettled k r := by
  cases k with
  | encodeCommand command parameters =>
    obtain rfl := Except.ok.inj h
    unfold encodeCommand
    split
    · next hmany => exact .inl ⟨_, rfl, isReport_tooMany hc hmany⟩
    · exact isSettled_of_get? rfl rfl
  | decodeResponse frameHex => exact isSettled_decodeResponse h
  | handshakeFrame =>
    obtain rfl := Except.ok.inj h
    exact isSettled_of_get? rfl rfl
  | checkHandshakeReply frameHex =>
    obtain rfl := Except.ok.inj h
    exact isSettled_checkHandshakeReply frameHex
  | describeError payload => exact isSettled_describeError h

/-- An error that is an object is that of a report, and is alone. -/
theorem IsSettled.exists_report (h : IsSettled k r) {m e : Members} (hm : r.result = .obj m)
    (he : Members.get? (Text.ofString "error") m = some (.obj e)) :
    ∃ report, IsReport k report ∧ e = report.toMembers ∧ m = [(Text.ofString "error", .obj e)] := by
  rcases h with ⟨report, rfl, hreport⟩ | ⟨m', hm', hnone⟩
  · obtain rfl : [(Text.ofString "error", report.toJson)] = m := Json.obj.inj hm
    obtain rfl : report.toMembers = e := Json.obj.inj (Option.some.inj he)
    exact ⟨report, hreport, rfl, rfl⟩
  · obtain rfl : m' = m := Json.obj.inj (hm'.symm.trans hm)
    exact absurd he (hnone e)

/-- The bridge describes a report that is given back to it: the name and the concern of the code follow its members. -/
theorem IsReport.describeError {e : TransportError} (h : IsReport k e) (hcount : k.IsCountable) (hdepth : 2 ≤ depth)
    {s : Json.Spacing} (hs : s.IsBlank) : Bridge.describeError depth (e.toJson.write s) =
      .ok (.quiet (.obj (e.toMembers ++ [(Text.ofString "name", .str (Text.ofString e.code.name)),
        (Text.ofString "category", .str (Text.ofString e.code.category.name))]))) := by
  rw [Bridge.describeError, TransportError.deserialize_write (h.portable hcount depth hdepth) hs]
  rfl

theorem isServerAnswer_of_decodeResponse {frameHex : Text} (h : decodeResponse depth frameHex = .ok r) {data : Bytes}
    (hdata : Hex.decode frameHex = .ok data) (hne : data ≠ []) : ∃ m, r.result = .obj m ∧ IsServerAnswer m := by
  rcases decodeResponse_eq_ok h with ⟨e, he, -⟩ | ⟨hempty, -⟩ | ⟨data', x, log, -, -, rfl⟩
  · exact nomatch (frameOfHex_of_ok hdata).symm.trans he
  · exact absurd (Except.ok.inj (hdata.symm.trans hempty)) hne
  · exact ⟨x.toMembers, rfl, isServerAnswer_toMembers x⟩

/-- Whatever has happened to a bridge, the reply to a call is an object.  It has an error that is an object exactly if the
call cannot be processed.  This error is then the only member, has the code of the protocol or of its version, is not to
be tried again, and is described by the bridge when it is given back to it with room for it.  A response is refused
exactly if its frame is no hexadecimal or has no bytes, and any other frame is answered by what the server says. -/
theorem reply_report {events : List Event} (h : reply depth (run .default events) k = .ok r) :
    ∃ m, r.result = .obj m ∧
      ((∃ e, Members.get? (Text.ofString "error") m = some (.obj e)) ↔
        ¬k.IsProcessable depth (run .default events)) ∧
      (∀ e, Members.get? (Text.ofString "error") m = some (.obj e) → m = [(Text.ofString "error", .obj e)] ∧
        ∃ report : TransportError, e = report.toMembers ∧ report.retryable = false ∧
          (report.code = .protocolVersionMismatch ∨ report.code = .protocolError) ∧
          (k.IsCountable → ∀ again, 2 ≤ again → ∀ s : Json.Spacing, s.IsBlank →
            describeError again ((Json.obj e).write s) = .ok (.quiet (.obj (e ++
              [(Text.ofString "name", .str (Text.ofString report.code.name)),
                (Text.ofString "category", .str (Text.ofString report.code.category.name))]))))) ∧
      (∀ frameHex, k = .decodeResponse frameHex →
        (¬k.IsProcessable depth (run .default events) ↔ ∀ data, Hex.decode frameHex = .ok data → data = []) ∧
        ∀ data, Hex.decode frameHex = .ok data → data ≠ [] → IsServerAnswer m) := by
  obtain ⟨m, hm, hfailure⟩ := answers_of_reply h
  have hsettled := isSettled_reply (isLastAccepted_run events).one_le h
  refine ⟨m, hm, ?_, ?_, ?_⟩
  · rw [← hfailure]
    constructor
    · rintro ⟨e, he⟩
      obtain ⟨report, -, rfl, hm'⟩ := hsettled.exists_report hm he
      exact ⟨report, hm'⟩
    · rintro ⟨report, rfl⟩
      exact ⟨report.toMembers, rfl⟩
  · intro e he
    obtain ⟨report, hreport, rfl, hm'⟩ := hsettled.exists_report hm he
    exact ⟨hm', report, rfl, hreport.retryable, hreport.code, fun hcount again hagain s hs =>
      hreport.describeError hcount hagain hs⟩
  · rintro frameHex rfl
    constructor
    · simp [Call.IsProcessable]
    · intro data hdata hne
      obtain ⟨m', hm', hanswer⟩ := isServerAnswer_of_decodeResponse h hdata hne
      rwa [← Json.obj.inj (hm'.symm.trans hm)]

/-- A call with one parameter more than a bridge accepts that is told nothing. -/
def crowded : Call := .encodeCommand [] (List.replicate 1025 [])

theorem reply_report_crowded : ∃ r e name category, reply 0 (run .default []) crowded = .ok r ∧
    r.result = .obj [(Text.ofString "error", .obj e)] ∧
    describeError 2 ((Json.obj e).write .wide) =
      .ok (.quiet (.obj (e ++ [(Text.ofString "name", name), (Text.ofString "category", category)]))) := by
  have hreply : reply 0 (run .default []) crowded = .ok (encodeCommand .default [] (List.replicate 1025 [])) := rfl
  have hcount : crowded.IsCountable := by
    show (Text.ofNat (List.replicate 1025 _).length).length ≤ Text.maxIntegerDigits
    rw [List.length_replicate]
    decide
  have hmany : ¬crowded.IsProcessable 0 (run .default []) := by
    show ¬((List.replicate 1025 _).length : Int) ≤ 1024
    rw [List.length_replicate]
    decide
  obtain ⟨m, hm, hfailure, hreport, -⟩ := reply_report hreply
  obtain ⟨e, he⟩ := hfailure.2 hmany
  obtain ⟨rfl, report, -, -, -, hdescribe⟩ := hreport e he
  exact ⟨_, e, _, _, hreply, hm, hdescribe hcount 2 (Nat.le_refl 2) .wide Json.Spacing.isBlank_wide⟩

end Bridge

end WireCodec
