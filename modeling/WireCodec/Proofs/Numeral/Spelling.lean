import WireCodec.Numeral
import WireCodec.Proofs.Text.Decimal

/-!
# Spellings of numerals

`Numeral.Spells` is the grammar of numerals: the digits of a numeral, with an optional sign at a power of ten and
the letter `e` in either case.  A text that spells a numeral is scanned as that numeral, whatever follows it, as
long as it does not go on like a numeral (`scan?_append`); conversely a numeral is only scanned where a spelling of
it stands (`exists_spells_of_scan?`).  The text of a numeral is one of its spellings (`spells_toText`).
-/

namespace WireCodec.Numeral

/-! ### The grammar -/

/-- A whole part: a zero alone, or digits of which the first is no zero. -/
def IsWhole (t : Text) : Prop :=
  (∃ c, t = [c] ∧ c.val = 0x30) ∨ ∃ c s, t = c :: s ∧ c.val ≠ 0x30 ∧ ∀ d ∈ t, d.isDigit = true

/-- The sign of a power of ten; a plus sign may be left out. -/
inductive SpellsSign : Bool → Text → Prop
  | minus {c : CodePoint} : c.val = 0x2D → SpellsSign true [c]
  | plus {c : CodePoint} : c.val = 0x2B → SpellsSign false [c]
  | absent : SpellsSign false []

/-- A power of ten: the letter, the sign and at least one digit. -/
inductive SpellsPower : Option (Bool × Text) → Text → Prop
  | absent : SpellsPower none []
  | present {c : CodePoint} {negative : Bool} {sign digits : Text} : c.val = 0x65 ∨ c.val = 0x45 →
      SpellsSign negative sign → digits ≠ [] → (∀ d ∈ digits, d.isDigit = true) →
      SpellsPower (some (negative, digits)) (c :: (sign ++ digits))

/-- The minus sign of a negative number. -/
def minusText (negative : Bool) : Text := if negative then Text.ofString "-" else []

/-- The point with the digits after it, if there are any. -/
def pointText (fraction : Text) : Text := if fraction = [] then [] else Text.ofString "." ++ fraction

/-- The texts that spell a numeral. -/
def Spells (n : Numeral) (t : Text) : Prop :=
  ∃ power, t = minusText n.negative ++ (n.whole ++ (pointText n.fraction ++ power)) ∧ IsWhole n.whole ∧
    (∀ d ∈ n.fraction, d.isDigit = true) ∧ SpellsPower n.exponent power

/-- A text that does not go on like a numeral. -/
def Ends (t : Text) : Prop :=
  ∀ c ∈ t.head?, c.isDigit = false ∧ c.val ≠ 0x2E ∧ c.val ≠ 0x65 ∧ c.val ≠ 0x45

theorem ends_nil : Ends [] := by simp [Ends]

/-- A text that does not begin with a digit. -/
def NoDigit (t : Text) : Prop := ∀ c ∈ t.head?, c.isDigit = false

theorem Ends.noDigit {t : Text} (h : Ends t) : NoDigit t := fun c hc => (h c hc).1

theorem IsWhole.ne_nil {t : Text} (h : IsWhole t) : t ≠ [] := by
  rcases h with ⟨c, rfl, -⟩ | ⟨c, s, rfl, -⟩ <;> exact List.cons_ne_nil _ _

theorem IsWhole.isDigit {t : Text} (h : IsWhole t) {d : CodePoint} (hd : d ∈ t) : d.isDigit = true := by
  rcases h with ⟨c, rfl, hc⟩ | ⟨c, s, rfl, -, hall⟩
  · rw [List.mem_singleton.1 hd]
    exact CodePoint.isDigit_iff.2 (by omega)
  · exact hall d hd

private theorem val_of_mem_power {x : Option (Bool × Text)} {power : Text} {c : CodePoint}
    (h : SpellsPower x power) (hc : c ∈ power) :
    c.isDigit = true ∨ c.val = 0x2B ∨ c.val = 0x2D ∨ c.val = 0x45 ∨ c.val = 0x65 := by
  cases h with
  | absent => exact absurd hc List.not_mem_nil
  | present hletter hsign _ hall =>
    rcases List.mem_cons.1 hc with rfl | hc
    · omega
    · rcases List.mem_append.1 hc with hc | hc
      · cases hsign with
        | minus h => rw [List.mem_singleton.1 hc]; omega
        | plus h => rw [List.mem_singleton.1 hc]; omega
        | absent => exact absurd hc List.not_mem_nil
      · exact .inl (hall c hc)

/-- A spelling consists of digits, signs, points and the letter of a power of ten. -/
theorem Spells.val_of_mem {n : Numeral} {t : Text} {c : CodePoint} (h : Spells n t) (hc : c ∈ t) :
    c.isDigit = true ∨ c.val = 0x2B ∨ c.val = 0x2D ∨ c.val = 0x2E ∨ c.val = 0x45 ∨ c.val = 0x65 := by
  obtain ⟨power, rfl, hwhole, hfraction, hpower⟩ := h
  rcases List.mem_append.1 hc with hc | hc
  · unfold minusText at hc
    split at hc
    · rw [List.mem_singleton.1 hc]
      decide
    · exact absurd hc List.not_mem_nil
  rcases List.mem_append.1 hc with hc | hc
  · exact .inl (hwhole.isDigit hc)
  rcases List.mem_append.1 hc with hc | hc
  · unfold pointText at hc
    split at hc
    · exact absurd hc List.not_mem_nil
    · rcases List.mem_cons.1 hc with rfl | hc
      · decide
      · exact .inl (hfraction c hc)
  · rcases val_of_mem_power hpower hc with h | h | h | h | h <;> simp [h]

/-- The digits of an integer bound it, and its sign does not count. -/
theorem Spells.natAbs_toInt_lt {n : Numeral} {t : Text} (h : Spells n t) : n.toInt.natAbs < 10 ^ n.whole.length := by
  obtain ⟨power, -, hwhole, -⟩ := h
  have hlt : Text.decimalValue n.whole < 10 ^ n.whole.length := Text.decimalValue_lt fun c hc => hwhole.isDigit hc
  have habs : n.toInt.natAbs = Text.decimalValue n.whole := by
    unfold toInt
    split <;> simp
  omega

theorem Spells.whole_ne_nil {n : Numeral} {t : Text} (h : Spells n t) : n.whole ≠ [] := by
  obtain ⟨power, -, hwhole, -⟩ := h
  exact hwhole.ne_nil

/-! ### Scanning -/

theorem scanDigits_append {ds rest : Text} (hds : ∀ d ∈ ds, d.isDigit = true) (hrest : NoDigit rest) :
    scanDigits (ds ++ rest) = (ds, rest) := by
  unfold scanDigits
  rw [List.takeWhile_append_of_pos hds, List.dropWhile_append_of_pos hds]
  cases rest with
  | nil => simp
  | cons c rest =>
    have hc : c.isDigit = false := hrest c rfl
    simp [hc]

private theorem scanMinus_append {t rest : Text} (h : IsWhole t) (negative : Bool) :
    scanMinus (minusText negative ++ (t ++ rest)) = (negative, t ++ rest) := by
  cases negative with
  | true => rfl
  | false =>
    obtain ⟨c, s, rfl⟩ := List.exists_cons_of_ne_nil h.ne_nil
    have hc := CodePoint.isDigit_iff.1 (h.isDigit List.mem_cons_self)
    show (if c.val = 0x2D then _ else _) = _
    rw [if_neg (by omega)]
    rfl

private theorem scanWhole?_append {t rest : Text} (h : IsWhole t) (hrest : NoDigit rest) :
    scanWhole? (t ++ rest) = some (t, rest) := by
  rcases h with ⟨c, rfl, hc⟩ | ⟨c, s, rfl, hc, hall⟩
  · show (if c.val = 0x30 then _ else _) = _
    rw [if_pos hc]
    rfl
  · show (if c.val = 0x30 then _ else if c.isDigit then some (scanDigits (c :: s ++ rest)) else _) = _
    rw [if_neg hc, if_pos (hall c List.mem_cons_self), scanDigits_append hall hrest]

private theorem scanFraction_append {f rest : Text} (hf : ∀ d ∈ f, d.isDigit = true) (hrest : NoDigit rest)
    (hpoint : ∀ c ∈ rest.head?, c.val ≠ 0x2E) : scanFraction (pointText f ++ rest) = (f, rest) := by
  unfold pointText
  split
  · rename_i hnil
    subst hnil
    cases rest with
    | nil => rfl
    | cons c rest =>
      show (if c.val = 0x2E ∧ _ then _ else _) = _
      rw [if_neg fun h => hpoint c rfl h.1]
  · rename_i hne
    have hscan := scanDigits_append hf hrest
    show (if _ ∧ (scanDigits (f ++ rest)).1 ≠ [] then scanDigits (f ++ rest) else _) = _
    rw [if_pos ⟨rfl, by rw [hscan]; exact hne⟩, hscan]

private theorem scanSign_append {negative : Bool} {sign digits rest : Text} (h : SpellsSign negative sign)
    (hne : digits ≠ []) (hall : ∀ d ∈ digits, d.isDigit = true) :
    scanSign (sign ++ (digits ++ rest)) = (negative, digits ++ rest) := by
  cases h with
  | minus hc =>
    show (if _ then _ else _) = _
    rw [if_pos hc]
    rfl
  | plus hc =>
    show (if _ then _ else if _ then _ else _) = _
    rw [if_neg (by omega), if_pos hc]
    rfl
  | absent =>
    obtain ⟨c, s, rfl⟩ := List.exists_cons_of_ne_nil hne
    have hc := CodePoint.isDigit_iff.1 (hall c List.mem_cons_self)
    show (if c.val = _ then _ else if c.val = _ then _ else _) = _
    rw [if_neg (by omega), if_neg (by omega)]
    rfl

private theorem scanExponent_append {x : Option (Bool × Text)} {power rest : Text} (h : SpellsPower x power)
    (hrest : Ends rest) : scanExponent (power ++ rest) = (x, rest) := by
  cases h with
  | absent =>
    cases rest with
    | nil => rfl
    | cons c rest =>
      have hc := (hrest c rfl).2.2
      show (if (c.val = 0x65 ∨ c.val = 0x45) ∧ _ then _ else _) = _
      rw [if_neg fun h => h.1.elim hc.1 hc.2]
  | @present c negative sign digits hc hsign hne hall =>
    rw [List.cons_append, List.append_assoc, scanExponent, scanSign_append hsign hne hall]
    simp only [scanDigits_append hall hrest.noDigit]
    rw [if_pos ⟨hc, hne⟩]

private theorem head?_power {x : Option (Bool × Text)} {power rest : Text} (h : SpellsPower x power)
    (hrest : Ends rest) : ∀ c ∈ (power ++ rest).head?, c.isDigit = false ∧ c.val ≠ 0x2E := by
  cases h with
  | absent => exact fun c hc => ⟨(hrest c hc).1, (hrest c hc).2.1⟩
  | present hc =>
    intro d hd
    obtain rfl := Option.some.inj hd
    refine ⟨?_, by omega⟩
    rw [← Bool.not_eq_true, CodePoint.isDigit_iff]
    omega

private theorem noDigit_pointText {f power : Text} (h : NoDigit power) : NoDigit (pointText f ++ power) := by
  unfold pointText
  split
  · exact h
  · intro c hc
    obtain rfl := Option.some.inj hc
    rfl

/-- A spelling is scanned as its numeral if what follows does not go on like a numeral. -/
theorem scan?_append {n : Numeral} {t rest : Text} (h : Spells n t) (hrest : Ends rest) :
    scan? (t ++ rest) = some (n, rest) := by
  obtain ⟨power, rfl, hwhole, hfraction, hpower⟩ := h
  -- each part stops where the next one begins, so none of them reads too far
  have hhead := head?_power hpower hrest
  have hdigit : NoDigit (power ++ rest) := fun c hc => (hhead c hc).1
  have hpoint : ∀ c ∈ (power ++ rest).head?, c.val ≠ 0x2E := fun c hc => (hhead c hc).2
  simp only [scan?, List.append_assoc, scanMinus_append hwhole,
    scanWhole?_append hwhole (noDigit_pointText hdigit), Option.map_some,
    scanFraction_append hfraction hdigit hpoint, scanExponent_append hpower hrest]

/-- A spelling begins with a digit, or with a minus sign and a digit. -/
theorem Spells.exists_head {n : Numeral} {t : Text} (h : Spells n t) :
    ∃ c s, c.isDigit = true ∧ t = minusText n.negative ++ c :: s := by
  obtain ⟨power, rfl, hwhole, -⟩ := h
  obtain ⟨c, s, hcs⟩ := List.exists_cons_of_ne_nil hwhole.ne_nil
  exact ⟨c, _, hwhole.isDigit (hcs ▸ List.mem_cons_self), by rw [hcs, List.cons_append]⟩

/-! ### What is scanned is spelled -/

private theorem scanDigits_spec (t : Text) :
    t = (scanDigits t).1 ++ (scanDigits t).2 ∧ ∀ d ∈ (scanDigits t).1, d.isDigit = true :=
  ⟨(List.takeWhile_append_dropWhile).symm, List.all_eq_true.1 List.all_takeWhile⟩

private theorem scanMinus_spec (t : Text) : t = minusText (scanMinus t).1 ++ (scanMinus t).2 := by
  cases t with
  | nil => rfl
  | cons c t =>
    rw [scanMinus]
    split
    · next h =>
      obtain rfl : c = .ofChar '-' := CodePoint.ext h
      rfl
    · rfl

private theorem scanWhole?_spec {t whole rest : Text} (h : scanWhole? t = some (whole, rest)) :
    t = whole ++ rest ∧ IsWhole whole := by
  cases t with
  | nil => cases h
  | cons c t =>
    rw [scanWhole?] at h
    split at h
    · next hc =>
      obtain ⟨rfl, rfl⟩ := Prod.mk.inj (Option.some.inj h)
      exact ⟨rfl, .inl ⟨c, rfl, hc⟩⟩
    · next hc =>
      split at h
      · next hdigit =>
        obtain ⟨ht, hall⟩ := scanDigits_spec (c :: t)
        rw [Option.some.inj h] at ht hall
        refine ⟨ht, .inr ⟨c, t.takeWhile CodePoint.isDigit, ?_, hc, hall⟩⟩
        rw [← (Prod.mk.inj (Option.some.inj h)).1, List.takeWhile_cons_of_pos hdigit]
      · cases h

private theorem scanFraction_spec (t : Text) :
    t = pointText (scanFraction t).1 ++ (scanFraction t).2 ∧ ∀ d ∈ (scanFraction t).1, d.isDigit = true := by
  cases t with
  | nil => exact ⟨rfl, List.forall_mem_nil _⟩
  | cons c t =>
    rw [scanFraction]
    split
    · next h =>
      obtain rfl : c = .ofChar '.' := CodePoint.ext h.1
      refine ⟨?_, (scanDigits_spec t).2⟩
      rw [pointText, if_neg h.2, List.append_assoc, ← (scanDigits_spec t).1]
      rfl
    · exact ⟨rfl, List.forall_mem_nil _⟩

private theorem scanSign_spec (t : Text) :
    ∃ sign, SpellsSign (scanSign t).1 sign ∧ t = sign ++ (scanSign t).2 := by
  cases t with
  | nil => exact ⟨[], .absent, rfl⟩
  | cons c t =>
    rw [scanSign]
    split
    · next h => exact ⟨[c], .minus h, rfl⟩
    · split
      · next h => exact ⟨[c], .plus h, rfl⟩
      · exact ⟨[], .absent, rfl⟩

private theorem scanExponent_spec (t : Text) :
    ∃ power, SpellsPower (scanExponent t).1 power ∧ t = power ++ (scanExponent t).2 := by
  cases t with
  | nil => exact ⟨[], .absent, rfl⟩
  | cons c t =>
    obtain ⟨sign, hsign, ht⟩ := scanSign_spec t
    obtain ⟨hdigits, hall⟩ := scanDigits_spec (scanSign t).2
    rw [scanExponent]
    dsimp only
    split
    · next h =>
      refine ⟨c :: (sign ++ (scanDigits (scanSign t).2).1), .present h.1 hsign h.2 hall, ?_⟩
      rw [List.cons_append, List.append_assoc, ← hdigits, ← ht]
    · exact ⟨[], .absent, rfl⟩

/-- A text from which a numeral is scanned begins with a spelling of it. -/
theorem exists_spells_of_scan? {t rest : Text} {n : Numeral} (h : scan? t = some (n, rest)) :
    ∃ s, n.Spells s ∧ t = s ++ rest := by
  simp only [scan?, Option.map_eq_some_iff] at h
  obtain ⟨⟨whole, after⟩, hwhole, hn⟩ := h
  obtain ⟨rfl, rfl⟩ := Prod.mk.inj hn
  obtain ⟨hafter, hiswhole⟩ := scanWhole?_spec hwhole
  obtain ⟨hfraction, hall⟩ := scanFraction_spec after
  obtain ⟨power, hpower, hrest⟩ := scanExponent_spec (scanFraction after).2
  refine ⟨_, ⟨power, rfl, hiswhole, hall, hpower⟩, ?_⟩
  rw [List.append_assoc, List.append_assoc, List.append_assoc, ← hrest, ← hfraction, ← hafter]
  exact scanMinus_spec t

/-! ### Writing -/

/-- The text of a numeral spells it. -/
theorem spells_toText {n : Numeral} (hwhole : IsWhole n.whole) (hfraction : ∀ d ∈ n.fraction, d.isDigit = true)
    (hexponent : ∀ x ∈ n.exponent, x.2 ≠ [] ∧ ∀ d ∈ x.2, d.isDigit = true) : Spells n n.toText := by
  obtain ⟨negative, whole, fraction, exponent⟩ := n
  obtain ⟨power, hpower, htext⟩ : ∃ power, SpellsPower exponent power ∧
      toText ⟨negative, whole, fraction, exponent⟩ = minusText negative ++ whole ++ pointText fraction ++ power := by
    cases exponent with
    | none => exact ⟨_, .absent, rfl⟩
    | some x =>
      obtain ⟨hne, hall⟩ := hexponent x rfl
      obtain ⟨_ | _, digits⟩ := x
      · exact ⟨_, .present (.inl rfl) (.plus rfl) hne hall, rfl⟩
      · exact ⟨_, .present (.inl rfl) (.minus rfl) hne hall, rfl⟩
  refine ⟨power, ?_, hwhole, hfraction, hpower⟩
  rw [htext, List.append_assoc, List.append_assoc]

theorem isWhole_ofNat (n : Nat) : IsWhole (Text.ofNat n) := by
  by_cases h : n = 0
  · subst h
    exact .inl ⟨_, rfl, rfl⟩
  · obtain ⟨c, s, hcs, hc⟩ := Text.head_ofNat h
    exact .inr ⟨c, s, hcs, hc, fun d hd => Text.isDigit_of_mem_ofNat hd⟩

end WireCodec.Numeral
