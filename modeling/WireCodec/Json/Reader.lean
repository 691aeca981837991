import WireCodec.Json.Basic
import WireCodec.Json.Error
import WireCodec.Text.Blank
import WireCodec.Text.Encoding

/-!
# Reading JSON

A text is read from left to right.  Every reader takes the rest of the text and gives a value and what follows
it, or a failure that remembers the text from the faulty place on.  Containers are read by a loop that is
given the reader of the values in them (`items`, `members`), and `value` closes the knot by recursion on the
depth that is still allowed.  A loop runs at most once for every code point that is left, since every item
takes at least one.

`Limits` says what is read beyond the grammar of RFC 8259 and what is refused within it.
-/

namespace WireCodec.Json

/-- What a reader accepts. -/
structure Limits where
  /-- Whether the words `NaN`, `Infinity` and `-Infinity` are read as numbers. -/
  nonFinite : Bool
  /-- The number of arrays and objects that may be open at once.  It is not fixed by the format: every reading has as
  much room as its caller leaves it, less what is taken up at the place of a fault or of a word inside of them. -/
  depth : Nat
  /-- The number of digits that an integer may have. -/
  digits : Nat

/-- What reads a value of some kind from the start of a text, and gives what follows it. -/
abbrev Reader (α : Type) := Text → Except Failure (α × Text)

/-- The limits of strict reading, with the given room for nested values. -/
def Limits.strict (depth : Nat) : Limits := ⟨false, depth, Text.maxIntegerDigits⟩

/-- The limits of lenient reading, which differs in the words for numbers that are not finite. -/
def Limits.lenient (depth : Nat) : Limits := ⟨true, depth, Text.maxIntegerDigits⟩

/-! ### Strings -/

/-- The code point that an escape of one letter stands for. -/
def shortEscape? (c : CodePoint) : Option CodePoint :=
  if c.val = 0x22 ∨ c.val = 0x5C ∨ c.val = 0x2F then some c
  else if c.val = 0x62 then some (.ofChar '\x08')
  else if c.val = 0x66 then some (.ofChar '\x0c')
  else if c.val = 0x6E then some (.ofChar '\n')
  else if c.val = 0x72 then some (.ofChar '\r')
  else if c.val = 0x74 then some (.ofChar '\t')
  else none

/-- The code point of four hexadecimal digits. -/
def codePoint? (a b c d : CodePoint) : Option CodePoint :=
  match a.hex?, b.hex?, c.hex?, d.hex? with
  | some a, some b, some c, some d =>
    some ⟨(a * 0x1000 + b * 0x100 + c * 0x10 + d) % 0x10000, by omega⟩
  | _, _, _, _ => none

/-- Reads the inside of a string to its closing quote.  Each code point comes with a mark that tells whether
it was written by its number.  An escape by number has to be followed by something. -/
def stringUnits (opening : Text) : Reader (List (CodePoint × Bool))
  | [] => .error ⟨.unterminatedString, opening⟩
  | c :: rest =>
    if c.val = 0x22 then .ok ([], rest)
    else if c.val = 0x5C then
      match rest with
      | [] => .error ⟨.unterminatedString, opening⟩
      | e :: after =>
        if e.val = 0x75 then
          match after with
          | h₁ :: h₂ :: h₃ :: h₄ :: next :: more =>
            match codePoint? h₁ h₂ h₃ h₄ with
            | some u => (stringUnits opening (next :: more)).map fun (us, t) => ((u, true) :: us, t)
            | none => .error ⟨.invalidCodeEscape, e :: after⟩
          | _ => .error ⟨.invalidCodeEscape, e :: after⟩
        else
          match shortEscape? e with
          | some u => (stringUnits opening after).map fun (us, t) => ((u, false) :: us, t)
          | none => .error ⟨.invalidEscape, c :: rest⟩
    else if c.val < 0x20 then .error ⟨.controlCharacter, c :: rest⟩
    else (stringUnits opening rest).map fun (us, t) => ((c, false) :: us, t)

/-- The text of marked code points: a high and a low surrogate written by their numbers next to each other are
one code point. -/
def joinUnits : List (CodePoint × Bool) → Text
  | [] => []
  | [(c, _)] => [c]
  | (c, m) :: (d, n) :: rest =>
    if m ∧ n ∧ c.IsHigh ∧ d.IsLow then CodePoint.join c d :: joinUnits rest
    else c :: joinUnits ((d, n) :: rest)

/-- Reads a string of which the opening quote has been taken; the text from that quote on is given too. -/
def string (opening rest : Text) : Except Failure (Text × Text) :=
  (stringUnits opening rest).map fun (us, t) => (joinUnits us, t)

/-! ### Numbers and words -/

/-- Takes a word from a table at the start of a text. -/
def findWord (table : List (Text × Json)) (t : Text) : Option (Json × Text) :=
  table.findSome? fun (word, value) => (word.isPrefixOf? t).map (value, ·)

/-- The words of the grammar. -/
def words : List (Text × Json) :=
  [(Text.ofString "null", .null), (Text.ofString "true", .bool true), (Text.ofString "false", .bool false)]

/-- The words for numbers that are not finite. -/
def nonFiniteWords : List (Text × Json) :=
  [(Text.ofString "NaN", .float .nan), (Text.ofString "Infinity", .float (.infinite false)),
    (Text.ofString "-Infinity", .float (.infinite true))]

/-- Reads a number: an exact integer if it has neither fraction nor power of ten. -/
def number (limits : Limits) (t : Text) : Except Failure (Json × Text) :=
  match Numeral.scan? t with
  | none => .error ⟨.expectedValue, t⟩
  | some (n, rest) =>
    if n.isInteger then
      if limits.digits < n.whole.length then .error ⟨.tooManyDigits n.whole.length, t⟩
      else .ok (.int n.toInt, rest)
    else .ok (.float (Binary64.ofDecimal n.toDecimal), rest)

/-- Reads a word or a number. -/
def wordOrNumber (limits : Limits) (t : Text) : Except Failure (Json × Text) :=
  match findWord words t, findWord nonFiniteWords t with
  | some found, _ => .ok found
  | none, some found => if limits.nonFinite then .ok found else .error ⟨.nonFiniteWord, t⟩
  | none, none => number limits t

/-! ### Containers -/

/-- After a value in a container: a comma, and true, or the closing bracket, and false. -/
def separator (close : Nat) (t : Text) : Except Failure (Bool × Text) :=
  match Text.skipJsonBlanks t with
  | [] => .error ⟨.expectedComma, []⟩
  | c :: rest =>
    if c.val = close then .ok (false, rest)
    else if c.val = 0x2C then .ok (true, Text.skipJsonBlanks rest)
    else .error ⟨.expectedComma, c :: rest⟩

/-- The colon after a name, and the blanks around it. -/
def colon (t : Text) : Except Failure Text :=
  match Text.skipJsonBlanks t with
  | [] => .error ⟨.expectedColon, []⟩
  | c :: rest => if c.val = 0x3A then .ok (Text.skipJsonBlanks rest) else .error ⟨.expectedColon, c :: rest⟩

/-- The items of an array from the first one on. -/
def items (item : Reader Json) : (fuel : Nat) → Reader (List Json)
  | 0, t => .error ⟨.expectedValue, t⟩
  | fuel + 1, t => do
    let (value, t) ← item t
    let (more, t) ← separator 0x5D t
    if more then
      let (values, t) ← items item fuel t
      .ok (value :: values, t)
    else .ok ([value], t)

/-- A name with its colon. -/
def name (t : Text) : Except Failure (Text × Text) :=
  match t with
  | [] => .error ⟨.expectedName, []⟩
  | c :: rest =>
    if c.val = 0x22 then do
      let (name, rest) ← string t rest
      let rest ← colon rest
      .ok (name, rest)
    else .error ⟨.expectedName, t⟩

/-- The members of an object from the first one on, repeated names included. -/
def members (item : Reader Json) : (fuel : Nat) → Reader (List (Text × Json))
  | 0, t => .error ⟨.expectedName, t⟩
  | fuel + 1, t => do
    let (name, t) ← name t
    let (value, t) ← item t
    let (more, t) ← separator 0x7D t
    if more then
      let (pairs, t) ← members item fuel t
      .ok ((name, value) :: pairs, t)
    else .ok ([(name, value)], t)

/-- The text after a closing bracket, if it comes first. -/
def closes? (close : Nat) : Text → Option Text
  | [] => none
  | c :: rest => if c.val = close then some rest else none

/-- Reads an array of which the opening bracket has been taken. -/
def array (item : Reader Json) (t : Text) : Except Failure (Json × Text) :=
  let t := Text.skipJsonBlanks t
  match closes? 0x5D t with
  | some rest => .ok (.arr [], rest)
  | none => (items item (t.length + 1) t).map fun (values, rest) => (.arr values, rest)

/-- Reads an object of which the opening brace has been taken. -/
def object (item : Reader Json) (t : Text) : Except Failure (Json × Text) :=
  let t := Text.skipJsonBlanks t
  match closes? 0x7D t with
  | some rest => .ok (.obj [], rest)
  | none => (members item (t.length + 1) t).map fun (pairs, rest) => (.obj (Members.ofPairs pairs), rest)

/-! ### Values and documents -/

/-- Reads a value, given the reader of the values inside it; there is none at the limit of the depth. -/
def valueWith (limits : Limits) (inner : Option (Reader Json)) (t : Text) : Except Failure (Json × Text) :=
  match t with
  | [] => .error ⟨.expectedValue, []⟩
  | c :: rest =>
    if c.val = 0x22 then (string t rest).map fun (s, rest) => (.str s, rest)
    else if c.val = 0x7B then
      match inner with
      | some item => object item rest
      | none => .error ⟨.tooDeep, t⟩
    else if c.val = 0x5B then
      match inner with
      | some item => array item rest
      | none => .error ⟨.tooDeep, t⟩
    else wordOrNumber limits t

/-- Reads a value in which arrays and objects are nested no deeper than the given depth. -/
def value (limits : Limits) : (depth : Nat) → Reader Json
  | 0, t => valueWith limits none t
  | depth + 1, t => valueWith limits (some (value limits depth)) t

/-- Reads a text that is one value between blanks. -/
def document (limits : Limits) (t : Text) : Except Failure Json := do
  let (v, rest) ← value limits limits.depth (Text.skipJsonBlanks t)
  match Text.skipJsonBlanks rest with
  | [] => .ok v
  | extra => .error ⟨.extraData, extra⟩

/-- Whether a text starts with a byte-order mark. -/
def startsWithMark : Text → Bool
  | c :: _ => c.val == 0xFEFF
  | [] => false

/-- Reads a text as JSON.  A byte-order mark is no part of a text. -/
def read (limits : Limits) (t : Text) : Except ReadError Json :=
  if startsWithMark t then .error (Failure.locate t ⟨.byteOrderMark, t⟩)
  else (document limits t).mapError (Failure.locate t)

/-- The reasons for which bytes are no JSON document. -/
inductive DocumentError
  | encoding (error : DecodeError)
  | text (error : ReadError)
  deriving DecidableEq

/-- Whether arrays and objects are nested too deeply. -/
def DocumentError.isTooDeep : DocumentError → Bool
  | .text e => e.fault = .tooDeep
  | .encoding _ => false

/-- The wording of an error. -/
def DocumentError.message : DocumentError → Text
  | .encoding e => e.message
  | .text e => e.message

/-- Reads bytes as JSON, in the encoding that they tell. -/
def readBytes (limits : Limits) (data : Bytes) : Except DocumentError Json := do
  let t ← (decodeDocument data).mapError DocumentError.encoding
  (document limits t).mapError fun f => .text (f.locate t)

end WireCodec.Json
