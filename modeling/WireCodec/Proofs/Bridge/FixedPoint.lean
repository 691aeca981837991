import WireCodec.Proofs.Bridge.Replies
import WireCodec.Proofs.Response.Normal
import WireCodec.Proofs.Text.Hexadecimal

/-!
# Decoding twice

A response that the bridge decodes is normal: absent, null and empty members are gone, repeated names count once, and
bytes that are no UTF-8 are carried in the texts.  Written as JSON and sent in a frame, it is decoded to itself
(`decodeResponse_write`).
-/

namespace WireCodec.Bridge

theorem decodeResponse_encode {depth : Nat} (data : Bytes) {x : Response} {log : List Log.Record}
    (h : Response.receive depth data = .ok (x, log)) :
    decodeResponse depth (Hex.encode data) = .ok ⟨x.toJson, log⟩ := by
  rw [decodeResponse, frameOfHex_of_ok (Hex.decode_encode data)]
  simp only [h]

/-- What is written for a decoded response, in a frame with or without EOT, is decoded to the same response, and leaves
no record, if there is no less room than before, and room for an object.  The numbers in it must be finite, and no text
or name may hold a pair of surrogates. -/
theorem decodeResponse_write {depth again : Nat} {frameHex : Text} {r : Reply}
    (h : decodeResponse depth frameHex = .ok r) (hagain : max depth 1 ≤ again)
    (hserver : ∀ m, r.result = .obj m → ¬IsFailure m) (hfloats : r.result.Forall Json.IsFiniteFloat)
    (htexts : r.result.Forall Json.HasUnpairedText) {s : Json.Spacing} (hs : s.IsBlank) {frame : Bytes}
    (hframe : frame = Utf8.encodeAll (r.result.write s) ∨ frame = Utf8.encodeAll (r.result.write s) ++ [Frame.eot]) :
    decodeResponse again (Hex.encode frame) = .ok (.quiet r.result) := by
  rcases decodeResponse_eq_ok h with ⟨e, -, rfl⟩ | ⟨-, rfl⟩ | ⟨data, x, log, -, hreceive, rfl⟩
  · exact absurd ⟨e, rfl⟩ (hserver _ rfl)
  · exact absurd ⟨_, rfl⟩ (hserver _ rfl)
  · have hwritable := Response.isWritable_toJson hreceive hfloats htexts again
    have hdepth : x.toJson.depth ≤ again := Nat.le_trans (Response.depth_toJson_le hreceive) hagain
    have hreceived := Response.receive_write hs hwritable hdepth hframe
    -- what is read back is normal, and is written like the response before it was
    have hsame : x.normal.toJson = x.toJson := congrArg Json.obj x.toMembers_normal
    rw [decodeResponse_encode frame hreceived, hsame]
    rfl

/-- An object with empty details, a null message, an error that is said twice, the second time as a byte that is no
UTF-8, and data with a negative zero, names out of order and a lone surrogate. -/
def repetitive : Bytes :=
  Utf8.encodeAll (Text.ofString "\x7b\"details\":\x7b\x7d,\"error\":1,\"message\":null,\"error\":\"") ++
    0xFF :: Utf8.encodeAll (Text.ofString "\",\"data\":[-0.0,\x7b\"b\":null,\"a\":\"\\ud800\"\x7d]\x7d")

/-- The response that it says. -/
def repetitiveResponse : Response :=
  ⟨.arr [.float (.zero true),
    .obj [(Text.ofString "b", .null), (Text.ofString "a", .str [⟨0xD800, by decide⟩])]],
    false, none, some [.ofByte 0xFF], none, some []⟩

/-- The members that are shown of it. -/
def repetitiveMembers : Members :=
  [(Text.ofString "success", .bool false),
    (Text.ofString "data", .arr [.float (.zero true),
      .obj [(Text.ofString "b", .null), (Text.ofString "a", .str [⟨0xD800, by decide⟩])]]),
    (Text.ofString "error", .str [.ofByte 0xFF])]

theorem decodeResponse_repetitive :
    decodeResponse 3 (Hex.encode repetitive) = .ok (.quiet (.obj repetitiveMembers)) ∧
      decodeResponse 3 (Hex.encode (Utf8.encodeAll ((Json.obj repetitiveMembers).write .wide) ++ [Frame.eot])) =
        .ok (.quiet (.obj repetitiveMembers)) := by
  have hreceive : Response.receive 3 repetitive = .ok (repetitiveResponse, []) := by cbv
  have h : decodeResponse 3 (Hex.encode repetitive) = .ok (.quiet (.obj repetitiveMembers)) :=
    decodeResponse_encode repetitive hreceive
  have hserver : ∀ m, Json.obj repetitiveMembers = .obj m → ¬IsFailure m := by
    rintro m hm ⟨e, rfl⟩
    have hlength : 3 = 1 := congrArg List.length (Json.obj.inj hm)
    exact absurd hlength (by decide)
  have hfloats : (Json.obj repetitiveMembers).Forall Json.IsFiniteFloat := by
    simp only [repetitiveMembers, Json.Forall, Json.MembersForall, Json.ItemsForall, Json.IsFiniteFloat]
    decide
  have htexts : (Json.obj repetitiveMembers).Forall Json.HasUnpairedText := by
    simp only [repetitiveMembers, Json.Forall, Json.MembersForall, Json.ItemsForall, Json.HasUnpairedText]
    decide
  exact ⟨h, decodeResponse_write h (by decide) hserver hfloats htexts Json.Spacing.isBlank_wide (.inr rfl)⟩

end WireCodec.Bridge
