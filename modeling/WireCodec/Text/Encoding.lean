import WireCodec.Text.Utf8
import WireCodec.Text.Wide

/-!
# Encodings of a document

A document of unknown encoding that starts with an ASCII character tells its encoding by its first bytes: by a
byte-order mark, or else by where the zero bytes are (`Encoding.detect`).  `decodeDocument` reads it, with
encoded surrogates passed.
-/

namespace WireCodec

/-- The byte-order mark of an encoding. -/
def Encoding.mark : Encoding → Bytes
  | .utf8 => [0xEF, 0xBB, 0xBF]
  | .utf16 .little => [0xFF, 0xFE]
  | .utf16 .big => [0xFE, 0xFF]
  | .utf32 .little => [0xFF, 0xFE, 0x00, 0x00]
  | .utf32 .big => [0x00, 0x00, 0xFE, 0xFF]

/-- The encodings in the order in which their marks are looked for: one mark of UTF-32 begins with one of UTF-16. -/
def Encoding.all : List Encoding := [.utf32 .big, .utf32 .little, .utf16 .big, .utf16 .little, .utf8]

/-- The encoding of a document without a mark, by the places of the zero bytes. -/
def Encoding.ofZeros : Bytes → Encoding
  | a :: b :: c :: d :: _ =>
    if a = 0 then (if b ≠ 0 then .utf16 .big else .utf32 .big)
    else if b = 0 then (if c ≠ 0 ∨ d ≠ 0 then .utf16 .little else .utf32 .little)
    else .utf8
  | [a, b] => if a = 0 then .utf16 .big else if b = 0 then .utf16 .little else .utf8
  | _ => .utf8

/-- The encoding of a document and the number of bytes that its byte-order mark takes. -/
def Encoding.detect (data : Bytes) : Encoding × Nat :=
  match Encoding.all.find? fun e => e.mark.isPrefixOf data with
  | some e => (e, e.mark.length)
  | none => (ofZeros data, 0)

/-- Reads a document in the encoding that its first bytes tell.  The mark is no part of the text; error
positions count it in UTF-16 and UTF-32 and not in UTF-8. -/
def decodeDocument (data : Bytes) : Except DecodeError Text :=
  match Encoding.detect data with
  | (.utf8, mark) => Utf8.decodeStrict true (data.drop mark)
  | (.utf16 order, mark) => Utf16.decode order mark (data.drop mark)
  | (.utf32 order, mark) => Utf32.decode order mark (data.drop mark)

end WireCodec
