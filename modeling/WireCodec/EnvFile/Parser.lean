import WireCodec.Text.Blank

/-!
# Files of variables

A file of variables is a sequence of statements, each on a line of its own.

    export NAME = value   # comment

The name may stand between single quotes.  A value between quotes may go on over several lines and has
escapes; any other value is the rest of the line up to a comment.  A name without an equals sign has no value.
A statement that is not of this form is dropped: reading goes on after the end of the line in which it went
wrong.

Each reader below takes the rest of the text and gives what it read and what follows it, or the text from the
place on at which reading went wrong.  Only the program itself reads files; settings are loaded from assignments, in
whatever way they were found (`Config.load`).
-/

namespace WireCodec.EnvFile

/-- A name with its value, if it has one. -/
abbrev Binding := Text × Option Text

/-! ### Lines -/

/-- A carriage return with the line feed after it, or alone, is read as a line feed. -/
def unifyLines : Text → Text
  | [] => []
  | c :: rest =>
    if c.val = 0x0D then
      match rest with
      | [] => [.ofChar '\n']
      | d :: more => if d.val = 0x0A then unifyLines (d :: more) else .ofChar '\n' :: unifyLines (d :: more)
    else c :: unifyLines rest

/-- The text without a byte-order mark at its start. -/
def dropMark : Text → Text
  | c :: rest => if c.val = 0xFEFF then rest else c :: rest
  | [] => []

/-- The text after blanks that do not end the line. -/
def skipInline (t : Text) : Text := t.dropWhile CodePoint.isInlineBlank

/-- What is left of the line, and the text from its end on. -/
def restOfLine (t : Text) : Text × Text := t.span fun c => !c.isLineEnd

/-- The text after the end of the line. -/
def dropLine (t : Text) : Text := (restOfLine t).2.drop 1

/-! ### Parts of a statement -/

/-- The text after the word `export` and the blanks that have to follow it, if a statement starts so. -/
def skipExport (t : Text) : Text :=
  match (Text.ofString "export").isPrefixOf? t with
  | some (c :: rest) => if c.isInlineBlank then skipInline rest else t
  | _ => t

/-- A code point of a name without quotes. -/
def isNamePart (c : CodePoint) : Bool := !(c.val == 0x3D || c.val == 0x23 || c.isBlank)

/-- The name of a statement; a comment has none. -/
def scanName (t : Text) : Except Text (Option Text × Text) :=
  match t with
  | [] => .error []
  | c :: rest =>
    if c.val = 0x23 then .ok (none, t)
    else if c.val = 0x27 then
      match rest.span (·.val != 0x27) with
      | (name, _ :: after) => if name = [] then .error t else .ok (some name, after)
      | (_, []) => .error t
    else
      let name := t.takeWhile isNamePart
      if name = [] then .error t else .ok (some name, t.dropWhile isNamePart)

/-- The code point that a backslash with another after it stands for between single quotes. -/
def singleEscape? (c : CodePoint) : Option CodePoint := if c.val = 0x5C ∨ c.val = 0x27 then some c else none

/-- The code point that a backslash with another after it stands for between double quotes. -/
def doubleEscape? (c : CodePoint) : Option CodePoint :=
  if c.val = 0x5C ∨ c.val = 0x27 ∨ c.val = 0x22 then some c
  else if c.val = 0x61 then some (.ofChar '\x07')
  else if c.val = 0x62 then some (.ofChar '\x08')
  else if c.val = 0x66 then some (.ofChar '\x0c')
  else if c.val = 0x6E then some (.ofChar '\n')
  else if c.val = 0x72 then some (.ofChar '\r')
  else if c.val = 0x74 then some (.ofChar '\t')
  else if c.val = 0x76 then some (.ofChar '\x0b')
  else none

/-- The value up to the closing quote.  A backslash keeps the code point after it from closing the value, and
stays where the two are no escape. -/
def scanQuoted (quote : Nat) (escape? : CodePoint → Option CodePoint) : Text → Option (Text × Text)
  | [] => none
  | c :: rest =>
    if c.val = quote then some ([], rest)
    else if c.val = 0x5C then
      match rest with
      | [] => none
      | d :: rest => (scanQuoted quote escape? rest).map fun (value, after) =>
        match escape? d with
        | some e => (e :: value, after)
        | none => (c :: d :: value, after)
    else (scanQuoted quote escape? rest).map fun (value, after) => (c :: value, after)

/-- A line up to the first number sign that has a blank before it. -/
def cutComment : (afterBlank : Bool) → Text → Text
  | _, [] => []
  | afterBlank, c :: rest => if afterBlank ∧ c.val = 0x23 then [] else c :: cutComment c.isBlank rest

/-- The value of a statement. -/
def scanValue (t : Text) : Except Text (Text × Text) :=
  match t with
  | [] => .ok ([], [])
  | c :: rest =>
    if c.val = 0x27 then (scanQuoted 0x27 singleEscape? rest).elim (.error t) .ok
    else if c.val = 0x22 then (scanQuoted 0x22 doubleEscape? rest).elim (.error t) .ok
    else
      let (line, after) := restOfLine t
      .ok (Text.trimEnd (cutComment false line), after)

/-- The equals sign with the value after it, if the sign is there.  A number sign after blanks starts a
comment, so that the value is empty. -/
def scanAssignment (t : Text) : Except Text (Option Text × Text) :=
  match t with
  | [] => .ok (none, [])
  | c :: rest =>
    if c.val = 0x3D then
      let start := skipInline rest
      if start.length < rest.length ∧ (start.head?.any fun d => d.val == 0x23) then .ok (some [], start)
      else (scanValue start).map fun (value, after) => (some value, after)
    else .ok (none, t)

/-- The text after a comment, if there is one. -/
def skipComment (t : Text) : Text :=
  match skipInline t with
  | c :: rest => if c.val = 0x23 then (restOfLine rest).2 else t
  | [] => t

/-- The end of the line, with blanks before it, or the end of the text. -/
def scanLineEnd (t : Text) : Except Text Text :=
  match skipInline t with
  | [] => .ok []
  | c :: rest => if c.isLineEnd then .ok rest else .error t

/-! ### Statements -/

/-- A statement from its first code point on; a comment binds nothing. -/
def scanStatement (t : Text) : Except Text (Option Binding × Text) := do
  let (name, t) ← scanName (skipExport t)
  let (value, t) ← scanAssignment (skipInline t)
  let t ← scanLineEnd (skipComment t)
  .ok (name.map (·, value), t)

/-- The bindings of statements; there are no more statements than code points. -/
def statements : (fuel : Nat) → Text → List Binding
  | 0, _ => []
  | fuel + 1, t =>
    match t.dropWhile CodePoint.isBlank with
    | [] => []
    | start =>
      match scanStatement start with
      | .ok (some b, rest) => b :: statements fuel rest
      | .ok (none, rest) => statements fuel rest
      | .error rest => statements fuel (dropLine rest)

/-- The bindings of a file in their order. -/
def parse (file : Text) : List Binding :=
  let t := unifyLines (dropMark file)
  statements t.length t

end WireCodec.EnvFile
