import WireCodec.Json.Reader
import WireCodec.Proofs.Numeral.Spelling

/-!
# The grammar of JSON

The relations of this file say which texts stand for which values, without reading them.  `IsScalar` gives the
words, numbers and strings, `IsContainer` the arrays and objects over a relation for the values in them, and
`IsValue` closes the knot by recursion on the depth.  `Limits` only adds the words for numbers that are not finite,
and bounds the depth and the digits of an integer.
-/

namespace WireCodec.Json

/-! ### The grammar -/

/-- Blanks between the parts of a document. -/
def IsBlanks (t : Text) : Prop := ∀ c ∈ t, c.isJsonBlank = true

theorem isBlanks_nil : IsBlanks [] := List.forall_mem_nil _

/-- The writings of one code point inside a string, with the mark that tells whether it is written by its
number. -/
inductive IsUnit : Text → CodePoint × Bool → Prop
  | plain {c : CodePoint} : 0x20 ≤ c.val → c.val ≠ 0x22 → c.val ≠ 0x5C → IsUnit [c] (c, false)
  | short {e c : CodePoint} : shortEscape? e = some c → IsUnit [.ofChar '\\', e] (c, false)
  | code {h₁ h₂ h₃ h₄ c : CodePoint} : codePoint? h₁ h₂ h₃ h₄ = some c →
      IsUnit [.ofChar '\\', .ofChar 'u', h₁, h₂, h₃, h₄] (c, true)

/-- The inside of a string. -/
inductive IsBody : Text → List (CodePoint × Bool) → Prop
  | nil : IsBody [] []
  | cons {s t : Text} {u : CodePoint × Bool} {us : List (CodePoint × Bool)} : IsUnit s u → IsBody t us →
      IsBody (s ++ t) (u :: us)

/-- A string with its quotes, and the text that it stands for. -/
inductive IsString : Text → Text → Prop
  | intro {body : Text} {us : List (CodePoint × Bool)} : IsBody body us →
      IsString (.ofChar '\x22' :: (body ++ [.ofChar '\x22'])) (joinUnits us)

/-- The words, numbers and strings. -/
inductive IsScalar (limits : Limits) : Text → Json → Prop
  | word {t : Text} {v : Json} : (t, v) ∈ words → IsScalar limits t v
  | nonFinite {t : Text} {v : Json} : limits.nonFinite = true → (t, v) ∈ nonFiniteWords → IsScalar limits t v
  | integer {n : Numeral} {t : Text} : n.Spells t → n.isInteger = true → n.whole.length ≤ limits.digits →
      IsScalar limits t (.int n.toInt)
  | float {n : Numeral} {t : Text} : n.Spells t → n.isInteger = false →
      IsScalar limits t (.float (Binary64.ofDecimal n.toDecimal))
  | string {t s : Text} : IsString t s → IsScalar limits t (.str s)

/-- The items of an array from the first one on, and its closing bracket. -/
inductive IsItems (V : Text → Json → Prop) : Text → List Json → Prop
  | last {s b : Text} {v : Json} : V s v → IsBlanks b → IsItems V (s ++ (b ++ [.ofChar ']'])) [v]
  | cons {s b b' t : Text} {v : Json} {vs : List Json} : V s v → IsBlanks b → IsBlanks b' → IsItems V t vs →
      IsItems V (s ++ (b ++ .ofChar ',' :: (b' ++ t))) (v :: vs)

/-- A name with its colon. -/
inductive IsName : Text → Text → Prop
  | intro {s b b' name : Text} : IsString s name → IsBlanks b → IsBlanks b' →
      IsName (s ++ (b ++ .ofChar ':' :: b')) name

/-- The members of an object from the first one on, repeated names included, and its closing brace. -/
inductive IsMembers (V : Text → Json → Prop) : Text → List (Text × Json) → Prop
  | last {n name s b : Text} {v : Json} : IsName n name → V s v → IsBlanks b →
      IsMembers V (n ++ (s ++ (b ++ [.ofChar '\x7d']))) [(name, v)]
  | cons {n name s b b' t : Text} {v : Json} {pairs : List (Text × Json)} : IsName n name → V s v →
      IsBlanks b → IsBlanks b' → IsMembers V t pairs →
      IsMembers V (n ++ (s ++ (b ++ .ofChar ',' :: (b' ++ t)))) ((name, v) :: pairs)

/-- The arrays and objects over a relation for the values in them. -/
inductive IsContainer (V : Text → Json → Prop) : Text → Json → Prop
  | emptyArray {b : Text} : IsBlanks b → IsContainer V (.ofChar '[' :: (b ++ [.ofChar ']'])) (.arr [])
  | array {b t : Text} {vs : List Json} : IsBlanks b → IsItems V t vs →
      IsContainer V (.ofChar '[' :: (b ++ t)) (.arr vs)
  | emptyObject {b : Text} : IsBlanks b →
      IsContainer V (.ofChar '\x7b' :: (b ++ [.ofChar '\x7d'])) (.obj [])
  | object {b t : Text} {pairs : List (Text × Json)} : IsBlanks b → IsMembers V t pairs →
      IsContainer V (.ofChar '\x7b' :: (b ++ t)) (.obj (Members.ofPairs pairs))

/-- The values in which arrays and objects are nested no deeper than the given depth. -/
def IsValue (limits : Limits) : (depth : Nat) → Text → Json → Prop
  | 0, t, v => IsScalar limits t v
  | depth + 1, t, v => IsScalar limits t v ∨ IsContainer (IsValue limits depth) t v

/-- One value between blanks. -/
inductive IsDocument (limits : Limits) : Text → Json → Prop
  | intro {b s b' : Text} {v : Json} : IsBlanks b → IsValue limits limits.depth s v → IsBlanks b' →
      IsDocument limits (b ++ (s ++ b')) v

theorem IsScalar.isValue {limits : Limits} {t : Text} {v : Json} (h : IsScalar limits t v) (depth : Nat) :
    IsValue limits depth t v := by
  cases depth with
  | zero => exact h
  | succ depth => exact .inl h

end WireCodec.Json
