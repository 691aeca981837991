import WireCodec.Handshake
import WireCodec.Proofs.Response.Acceptance
import WireCodec.Proofs.Text.Carriers

/-!
# Payloads and texts that survive

A payload that is not understood is kept as a text: a plain response has it as its message, and a refused answer to
the handshake has it as its cause.  Sending this text as a command gives the bytes of the payload again, whatever
they are (`build_kept_payload`).

In the other direction not every text survives.  One is read back from its bytes exactly if it has no stray surrogates
and hides no character among its carried bytes; any command without surrogates is received as it was sent, unless it
is a response object (`decodeLossless_toWire_iff`).
-/

namespace WireCodec

/-- A frame without parameters gives back the bytes that its command was read from. -/
theorem Frame.build_decodeLossless (data : Bytes) :
    Frame.build (Utf8.decodeLossless data) [] = data ++ [Frame.eot] := by
  rw [Frame.build, Utf8.toWire_decodeLossless, List.flatMap_nil, List.append_nil]

/-- An object does not end with EOT, so only the byte that ends its frame is taken off. -/
theorem Frame.payload_of_object {payload data : Bytes} {digits : Nat} {pairs : List (Text × Json)}
    (h : Json.IsObjectDocument digits (Utf8.decodeLossless payload) pairs)
    (hdata : data = payload ∨ data = payload ++ [eot]) : data ≠ [] ∧ Frame.payload data = payload := by
  obtain ⟨t, c, ht, hc⟩ := h.exists_last
  -- the last character is a brace or a blank, so its byte is the last byte and is not EOT
  have hval : c.val ≠ 0x04 ∧ c.val < 0x80 := by
    simp only [CodePoint.isJsonBlank, Bool.or_eq_true, beq_iff_eq] at hc
    omega
  have hlast : payload.getLast? = some (UInt8.ofNat c.val) := by
    rw [← Utf8.toWire_decodeLossless payload, ht, Utf8.getLast?_toWire_append t hval.2]
  have hbyte : UInt8.ofNat c.val ≠ eot := by
    intro heot
    have hnat := congrArg UInt8.toNat heot
    rw [UInt8.toNat_ofNat_of_lt' (show c.val < 2 ^ 8 by omega)] at hnat
    exact hval.1 hnat
  rcases hdata with rfl | rfl
  · constructor
    · rintro rfl
      cases hlast
    · rw [Frame.payload, hlast, if_neg fun heq => hbyte (Option.some.inj heq)]
  · exact ⟨List.append_ne_nil_of_right_ne_nil _ (List.cons_ne_nil _ _), payload_append_eot payload⟩

/-- A response of which the log speaks is the payload as plain text. -/
theorem Response.eq_plain_of_log {depth : Nat} {data : Bytes} {r : Response} {log : List Log.Record}
    (h : receive depth data = .ok (r, log)) (hlog : log ≠ []) : r = plain (payloadText data) := by
  obtain ⟨-, o, -, hsettle⟩ := exists_of_receive h
  cases o with
  | some r' =>
    -- a response object leaves no record
    have hnil : [] = log := (Prod.mk.inj hsettle).2
    exact absurd hnil.symm hlog
  | none => exact (Prod.mk.inj hsettle).1.symm

/-- The payload of a plain response and that of a malformed answer are kept: sent as a command, their text gives the
same bytes. -/
theorem Frame.build_kept_payload (depth : Nat) (data : Bytes) :
    (∀ r log, Response.receive depth data = .ok (r, log) → log ≠ [] →
      ∃ message, r.message = some message ∧ Frame.build message [] = Frame.payload data ++ [Frame.eot]) ∧
    (∀ reply, Handshake.check data = .error (.malformedReply reply) →
      Frame.build reply [] = Frame.payload data ++ [Frame.eot]) := by
  constructor
  · intro r log hreceive hlog
    rw [Response.eq_plain_of_log hreceive hlog]
    exact ⟨_, rfl, build_decodeLossless (Frame.payload data)⟩
  · intro reply hcheck
    rw [Handshake.eq_of_malformedReply hcheck]
    exact build_decodeLossless (Frame.payload data)

/-- A letter, an overlong form, the form of a surrogate, a sequence without its end, a stray byte, and EOT twice. -/
def Frame.illFormed : Bytes := [0xC3, 0xA9, 0xC0, 0x80, 0xED, 0xA0, 0x80, 0xE2, 0x82, 0xFF, Frame.eot, Frame.eot]

theorem Frame.build_illFormed :
    ∃ r log message, Response.receive 1 Frame.illFormed = .ok (r, log) ∧ log ≠ [] ∧ r.message = some message ∧
      Handshake.check Frame.illFormed = .error (.malformedReply message) ∧
      Frame.build message [] = Frame.illFormed := by
  have hdata : Frame.illFormed ≠ [] := by decide
  have hread : Response.ofText? 1 (Response.payloadText Frame.illFormed) = .ok none := by cbv
  have hreceive := Response.receive_of_ofText? hdata hread
  have haccepted : ¬Handshake.acceptance.isPrefixOf (Response.payloadText Frame.illFormed) = true := by
    decide +kernel
  have hrejected : ¬Handshake.rejection.isPrefixOf (Response.payloadText Frame.illFormed) = true := by
    decide +kernel
  have hcheck : Handshake.check Frame.illFormed = .error (.malformedReply (Response.payloadText Frame.illFormed)) := by
    rw [Handshake.check, if_neg hdata]
    exact (if_neg haccepted).trans (if_neg hrejected)
  obtain ⟨message, hmessage, hframe⟩ := (build_kept_payload 1 Frame.illFormed).1 _ _ hreceive (List.cons_ne_nil _ _)
  have hsame : message = Response.payloadText Frame.illFormed := (Option.some.inj hmessage).symm
  rw [hsame] at hmessage hframe
  exact ⟨_, _, _, hreceive, List.cons_ne_nil _ _, hmessage, hcheck, hframe⟩

/-! ### Texts -/

/-- A command without surrogates is the text of its frame. -/
theorem Response.payloadText_build {t : Text} (h : t.IsScalar) : payloadText (Frame.build t []) = t := by
  rw [payloadText, Frame.build, List.flatMap_nil, List.append_nil, Frame.payload_append_eot,
    Utf8.toWire_of_isScalar h, Utf8.decodeLossless_encodeAll h]

/-- A text is read back from its bytes exactly if it has no stray surrogates and hides no character.  A command
without surrogates is received as a plain message, unless it is a response object. -/
theorem Frame.decodeLossless_toWire_iff (t : Text) :
    (Utf8.decodeLossless (Utf8.toWire t) = t ↔ ¬t.HasStray ∧ ¬t.HidesCharacter) ∧
      ∀ depth, t.IsScalar → Json.nesting (Json.readablePart (.strict depth) t) ≤ depth →
        (∀ r, ¬Response.IsResponseObject t r) →
        Response.receive depth (Frame.build t []) =
          .ok (⟨.null, true, some t, none, none, none⟩, [Response.fallbackRecord t]) := by
  constructor
  · constructor
    · intro h
      rw [← h]
      exact ⟨Utf8.not_hasStray_decodeLossless _, Utf8.not_hidesCharacter_decodeLossless _⟩
    · rintro ⟨hstray, hhides⟩
      rw [Utf8.toWire_of_not_hasStray hstray, Utf8.decodeLossless_flatMap_restore hstray hhides]
  · intro depth hscalar hdepth hnone
    have htext := Response.payloadText_build hscalar
    have hframe : Frame.build t [] ≠ [] := List.append_ne_nil_of_right_ne_nil _ (List.cons_ne_nil _ _)
    have hreceive := (Response.receive_iff hframe (by rwa [htext])).2 (by rwa [htext])
    rwa [htext] at hreceive

/-- A lead byte before a character that could not continue it. -/
def Frame.loneLead : Text := [.ofByte 0xC3, .ofChar 'é']

/-- An object that says its success by a number. -/
def Frame.numberedSuccess : Text := Text.ofString "\x7b\"success\":1,\"message\":\"é😀\"\x7d"

theorem Frame.decodeLossless_toWire_numberedSuccess :
    (¬Frame.loneLead.HasStray ∧ ¬Frame.loneLead.HidesCharacter) ∧
      Frame.numberedSuccess.IsScalar ∧
      Json.nesting (Json.readablePart (.strict 1) Frame.numberedSuccess) ≤ 1 ∧
      (∀ r, ¬Response.IsResponseObject Frame.numberedSuccess r) ∧
      Response.receive 1 (Frame.build Frame.numberedSuccess []) =
        .ok (⟨.null, true, some Frame.numberedSuccess, none, none, none⟩,
          [Response.fallbackRecord Frame.numberedSuccess]) := by
  have hscalar : Frame.numberedSuccess.IsScalar := by decide +kernel
  have hnesting : Json.nesting Frame.numberedSuccess ≤ 1 := by decide +kernel
  have hdepth := Nat.le_trans (Json.nesting_readablePart_le (.strict 1) _) hnesting
  have hnone : ∀ r, ¬Response.IsResponseObject Frame.numberedSuccess r := by
    obtain ⟨o, hread, hobject⟩ := Response.exists_ofText? hdepth
    have hother : Response.ofText? 1 Frame.numberedSuccess = .ok none := by cbv
    rw [hother] at hread
    intro r hr
    cases (Except.ok.inj hread).trans ((hobject r).2 hr)
  exact ⟨(decodeLossless_toWire_iff Frame.loneLead).1.1 (by decide), hscalar, hdepth, hnone,
    (decodeLossless_toWire_iff Frame.numberedSuccess).2 1 hscalar hdepth hnone⟩

end WireCodec
