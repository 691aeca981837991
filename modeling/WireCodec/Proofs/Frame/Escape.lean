import WireCodec.Frame
import WireCodec.Proofs.Text.Wire

/-!
# Escaping code points and escaping bytes

Code points and bytes are escaped alike: those that are reserved are doubled, and every pair can be taken for one again
(`undouble_flatMap_double`).  Escaping keeps the set of code points of a parameter, so the escaped value is written in the
same form as the value itself, and doubling its reserved code points doubles the reserved bytes and no others
(`toWire_escape`).
-/

namespace WireCodec.Frame

/-! ### Doubled elements of a list -/

section Doubling

variable {α : Type} (marked : α → Prop) [DecidablePred marked]

theorem head?_flatMap_double (l : List α) :
    (l.flatMap fun a => if marked a then [a, a] else [a]).head? = l.head? := by
  cases l with
  | nil => rfl
  | cons a l =>
    rw [List.flatMap_cons]
    split <;> rfl

variable {marked} in
theorem flatMap_double_of_not {l : List α} (h : ∀ a ∈ l, ¬marked a) :
    (l.flatMap fun a => if marked a then [a, a] else [a]) = l := by
  rw [List.flatMap_congr fun a ha => if_neg (h a ha), List.flatMap_singleton']

variable [DecidableEq α]

/-- Takes every two equal marked elements that stand together, from left to right, for one. -/
def undouble : List α → List α
  | a :: b :: l => if a = b ∧ marked a then a :: undouble l else a :: undouble (b :: l)
  | l => l

private theorem undouble_cons_of_not {a : α} (h : ¬marked a) (l : List α) :
    undouble marked (a :: l) = a :: undouble marked l := by
  cases l with
  | nil => rfl
  | cons b l => rw [undouble, if_neg fun hab => h hab.2]

/-- A list is found again after its marked elements have been doubled. -/
theorem undouble_flatMap_double (l : List α) :
    undouble marked (l.flatMap fun a => if marked a then [a, a] else [a]) = l := by
  induction l with
  | nil => rfl
  | cons a l ih =>
    rw [List.flatMap_cons]
    by_cases ha : marked a
    · rw [if_pos ha, List.cons_append, List.singleton_append, undouble, if_pos ⟨rfl, ha⟩, ih]
    · rw [if_neg ha, List.singleton_append, undouble_cons_of_not marked ha, ih]

end Doubling

/-! ### Escaped parameters -/

/-- Leaving a parameter as it is and doubling its reserved code points agree where both may be done. -/
theorem escape_eq_doubleReserved (p : Text) : escape p = doubleReserved p := by
  unfold escape
  split
  · rfl
  · next h => exact (flatMap_double_of_not fun c hc hres => h ⟨c, hc, hres⟩).symm

theorem escape_of_not_isReserved {p : Text} (h : ∀ c ∈ p, ¬IsReserved c) : escape p = p :=
  if_neg fun ⟨c, hc, hres⟩ => h c hc hres

theorem escape_cons (c : CodePoint) (p : Text) :
    escape (c :: p) = (if IsReserved c then [c, c] else [c]) ++ escape p := by
  rw [escape_eq_doubleReserved, escape_eq_doubleReserved]
  rfl

theorem mem_escape {c : CodePoint} {p : Text} : c ∈ escape p ↔ c ∈ p := by
  rw [escape_eq_doubleReserved, doubleReserved, List.mem_flatMap]
  constructor
  · rintro ⟨d, hd, hc⟩
    split at hc <;> simp_all
  · intro hc
    refine ⟨c, hc, ?_⟩
    split <;> simp

/-! ### Escaped bytes -/

/-- Bytes with every EOT and every ENQ among them doubled. -/
def double (data : Bytes) : Bytes := data.flatMap fun b => if b = eot ∨ b = enq then [b, b] else [b]

theorem double_append (s t : Bytes) : double (s ++ t) = double s ++ double t := List.flatMap_append

/-- Bytes above ASCII are not doubled. -/
private theorem double_of_le {s : Bytes} (h : ∀ b ∈ s, 0x80 ≤ b.toNat) : double s = s := by
  refine flatMap_double_of_not fun b hb => ?_
  rintro (rfl | rfl) <;> exact absurd (h _ hb) (by decide)

private theorem double_ofNat {n : Nat} (h : n < 0x80) :
    double [UInt8.ofNat n] = if n = 0x04 ∨ n = 0x05 then [UInt8.ofNat n, UInt8.ofNat n] else [UInt8.ofNat n] := by
  have hto : (UInt8.ofNat n).toNat = n := UInt8.toNat_ofNat_of_lt' (show n < 2 ^ 8 by omega)
  have heot : UInt8.ofNat n = eot ↔ n = 0x04 := by rw [← UInt8.toNat_inj, hto]; rfl
  have henq : UInt8.ofNat n = enq ↔ n = 0x05 := by rw [← UInt8.toNat_inj, hto]; rfl
  simp only [double, List.flatMap_cons, List.flatMap_nil, List.append_nil, heot, henq]

/-- Doubling the bytes of a code point, in either form, is writing the escaped code point. -/
private theorem double_formOf (t : Text) (c : CodePoint) :
    double (Utf8.formOf t c) = (if IsReserved c then [c, c] else [c]).flatMap (Utf8.formOf t) := by
  by_cases h : c.val < 0x80
  · have hform := Utf8.formOf_of_lt t h
    rw [hform, double_ofNat h]
    by_cases hres : IsReserved c
    · rw [if_pos hres, if_pos (show c.val = 0x04 ∨ c.val = 0x05 from hres)]
      simp [hform]
    · rw [if_neg hres, if_neg (show ¬(c.val = 0x04 ∨ c.val = 0x05) from hres)]
      simp [hform]
  · have hres : ¬IsReserved c := by unfold IsReserved; omega
    rw [if_neg hres, double_of_le fun b hb => Utf8.le_toNat_of_mem_formOf (by omega) hb]
    simp

/-- Escaping the code points of a parameter escapes its bytes. -/
theorem toWire_escape (p : Text) : Utf8.toWire (escape p) = double (Utf8.toWire p) := by
  rw [Utf8.toWire_eq_flatMap, Utf8.toWire_eq_flatMap, Utf8.formOf_congr fun c => mem_escape (p := p)]
  suffices h : ∀ q, (escape q).flatMap (Utf8.formOf p) = double (q.flatMap (Utf8.formOf p)) from h p
  intro q
  induction q with
  | nil => rfl
  | cons c q ih =>
    rw [escape_cons, List.flatMap_append, List.flatMap_cons, double_append, double_formOf, ih]

end WireCodec.Frame
