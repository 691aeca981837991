import WireCodec.Proofs.Json.DepthLimit
import WireCodec.Proofs.Json.Writing
import WireCodec.Proofs.Text.Wire

/-!
# Written values are read back

Whatever texts are in a value, it is written in printable ASCII, the blanks of the spacing apart (`mem_write`).  So
its text has no byte-order mark and no surrogates, and reading it gives the value again (`read_write`).
-/

namespace WireCodec.Json

/-- A space or a visible character of ASCII. -/
def IsPrintableAscii (c : CodePoint) : Prop := 0x20 ≤ c.val ∧ c.val ≤ 0x7E

instance (c : CodePoint) : Decidable (IsPrintableAscii c) := inferInstanceAs (Decidable (_ ∧ _))

/-! ### Scalars -/

private theorem isPrintableAscii_of_isDigit {c : CodePoint} (h : c.isDigit = true) : IsPrintableAscii c := by
  have hval := CodePoint.isDigit_iff.1 h
  unfold IsPrintableAscii
  omega

private theorem mem_codeEscape {c d : CodePoint} (h : d ∈ codeEscape c) : IsPrintableAscii d := by
  have hmark : ∀ d ∈ Text.ofString "\\u", IsPrintableAscii d := by decide
  rcases List.mem_append.1 h with h | h
  · exact hmark d h
  · obtain ⟨n, rfl⟩ := Text.exists_of_mem_hex h
    have hval := CodePoint.val_hexDigit n
    unfold IsPrintableAscii
    omega

private theorem mem_escape {c d : CodePoint} (h : d ∈ escape c) : IsPrintableAscii d := by
  have hshort : ∀ t ∈ ["\\\"", "\\\\", "\\n", "\\r", "\\t", "\\f", "\\b"], ∀ d ∈ Text.ofString t,
      IsPrintableAscii d := by decide
  unfold escape at h
  split_ifs at h with _ _ _ _ _ _ _ hc
  -- the seven short escapes, what needs none, and the escapes by number
  iterate 7 (next => exact hshort _ (by simp) d h)
  · obtain rfl := List.mem_singleton.1 h
    exact hc
  · exact mem_codeEscape h
  · rcases List.mem_append.1 h with h | h
    · exact mem_codeEscape h
    · exact mem_codeEscape h

private theorem mem_writeString {t : Text} {c : CodePoint} (h : c ∈ writeString t) : IsPrintableAscii c := by
  have hquote : ∀ c ∈ Text.ofString "\"", IsPrintableAscii c := by decide
  rcases List.mem_append.1 h with h | h
  · rcases List.mem_append.1 h with h | h
    · exact hquote c h
    · obtain ⟨d, -, hd⟩ := List.mem_flatMap.1 h
      exact mem_escape hd
  · exact hquote c h

private theorem mem_ofInt {n : Int} {c : CodePoint} (h : c ∈ Text.ofInt n) : IsPrintableAscii c := by
  have hminus : ∀ c ∈ Text.ofString "-", IsPrintableAscii c := by decide
  cases n with
  | ofNat n => exact isPrintableAscii_of_isDigit (Text.isDigit_of_mem_ofNat h)
  | negSucc n =>
    rcases List.mem_append.1 h with h | h
    · exact hminus c h
    · exact isPrintableAscii_of_isDigit (Text.isDigit_of_mem_ofNat h)

private theorem mem_writeFloat {x : Binary64} {c : CodePoint} (h : c ∈ writeFloat x) : IsPrintableAscii c := by
  have hwords : ∀ t ∈ ["NaN", "-Infinity", "Infinity"], ∀ c ∈ Text.ofString t, IsPrintableAscii c := by decide
  cases x with
  | finite negative m e hm =>
    obtain ⟨n, hspells, -, -⟩ := Binary64.exists_spells_toText (x := .finite negative m e hm) trivial
    rcases hspells.val_of_mem h with hdigit | hval
    · exact isPrintableAscii_of_isDigit hdigit
    · unfold IsPrintableAscii
      omega
  | infinite negative =>
    cases negative with
    | false => exact hwords "Infinity" (by simp) c h
    | true => exact hwords "-Infinity" (by simp) c h
  | nan => exact hwords "NaN" (by simp) c h

/-! ### Values -/

section Characters

variable {s : Spacing} {c : CodePoint}

private theorem mem_writeItems {items : List Json} (h : c ∈ writeItems s items) :
    c ∈ s.comma ∨ ∃ v ∈ items, c ∈ write s v := by
  induction items with
  | nil => exact absurd h List.not_mem_nil
  | cons item rest ih =>
    simp only [writeItems, List.mem_append] at h
    rcases h with (h | h) | h
    · exact .inl h
    · exact .inr ⟨item, List.mem_cons_self, h⟩
    · obtain h | ⟨v, hv, hc⟩ := ih h
      · exact .inl h
      · exact .inr ⟨v, List.mem_cons_of_mem _ hv, hc⟩

private theorem mem_writeMembers {members : Members} (h : c ∈ writeMembers s members) :
    c ∈ s.comma ∨ ∃ m ∈ members, c ∈ writeString m.1 ++ s.colon ++ write s m.2 := by
  induction members with
  | nil => exact absurd h List.not_mem_nil
  | cons m rest ih =>
    obtain ⟨name, v⟩ := m
    simp only [writeMembers, List.append_assoc] at h
    rw [List.mem_append, ← List.append_assoc, ← List.append_assoc, List.mem_append] at h
    rcases h with h | h | h
    · exact .inl h
    · exact .inr ⟨(name, v), List.mem_cons_self, h⟩
    · obtain h | ⟨p, hp, hc⟩ := ih h
      · exact .inl h
      · exact .inr ⟨p, List.mem_cons_of_mem _ hp, hc⟩

/-- A written value consists of printable ASCII and of what the spacing puts between the parts. -/
theorem mem_write {v : Json} (h : c ∈ write s v) : IsPrintableAscii c ∨ c ∈ s.comma ∨ c ∈ s.colon := by
  have hwords : ∀ t ∈ ["null", "true", "false"], ∀ c ∈ Text.ofString t, IsPrintableAscii c := by decide
  induction v using Json.induct with
  | null => exact .inl (hwords "null" (by simp) c h)
  | bool b =>
    cases b with
    | false => exact .inl (hwords "false" (by simp) c h)
    | true => exact .inl (hwords "true" (by simp) c h)
  | int n => exact .inl (mem_ofInt h)
  | float x => exact .inl (mem_writeFloat h)
  | str t => exact .inl (mem_writeString h)
  | arr items ih =>
    have hbrackets : ∀ c ∈ Text.ofString "[" ++ Text.ofString "]", IsPrintableAscii c := by decide
    cases items with
    | nil => exact .inl (hbrackets c h)
    | cons item rest =>
      simp only [write, List.mem_append] at h
      rcases h with ((h | h) | h) | h
      · exact .inl (hbrackets c (List.mem_append_left _ h))
      · exact ih item List.mem_cons_self h
      · rcases mem_writeItems h with h | ⟨v, hv, hc⟩
        · exact .inr (.inl h)
        · exact ih v (List.mem_cons_of_mem _ hv) hc
      · exact .inl (hbrackets c (List.mem_append_right _ h))
  | obj members ih =>
    have hbraces : ∀ c ∈ Text.ofString "\x7b" ++ Text.ofString "\x7d", IsPrintableAscii c := by decide
    -- a member is a name, a colon and a value
    have hmember : ∀ m ∈ members, c ∈ writeString m.1 ++ s.colon ++ write s m.2 →
        IsPrintableAscii c ∨ c ∈ s.comma ∨ c ∈ s.colon := by
      intro m hm hc
      simp only [List.mem_append] at hc
      rcases hc with (hc | hc) | hc
      · exact .inl (mem_writeString hc)
      · exact .inr (.inr hc)
      · exact ih m hm hc
    cases members with
    | nil => exact .inl (hbraces c h)
    | cons m rest =>
      obtain ⟨name, v⟩ := m
      have hsplit : write s (.obj ((name, v) :: rest)) = Text.ofString "\x7b" ++
          ((writeString name ++ s.colon ++ write s v) ++ (writeMembers s rest ++ Text.ofString "\x7d")) := by
        simp only [write, List.append_assoc]
      rw [hsplit] at h
      rcases List.mem_append.1 h with h | h
      · exact .inl (hbraces c (List.mem_append_left _ h))
      rcases List.mem_append.1 h with h | h
      · exact hmember (name, v) List.mem_cons_self h
      rcases List.mem_append.1 h with h | h
      · rcases mem_writeMembers h with h | ⟨m, hm, hc⟩
        · exact .inr (.inl h)
        · exact hmember m (List.mem_cons_of_mem _ hm) hc
      · exact .inl (hbraces c (List.mem_append_right _ h))

/-- With blanks after commas and colons only, a written value is ASCII. -/
theorem val_lt_of_mem_write (hs : s.IsBlank) {v : Json} (h : c ∈ write s v) : c.val < 0x80 := by
  have hspacing : ∀ {d : CodePoint} {b : Text}, d.val < 0x80 → IsBlanks b → c ∈ d :: b → c.val < 0x80 := by
    intro d b hd hb hc
    rcases List.mem_cons.1 hc with rfl | hc
    · exact hd
    · have hblank := hb c hc
      simp only [CodePoint.isJsonBlank, Bool.or_eq_true, beq_iff_eq] at hblank
      omega
  obtain ⟨b, hb, hcomma⟩ := hs.comma
  obtain ⟨b', hb', hcolon⟩ := hs.colon
  rcases mem_write h with hc | hc | hc
  · unfold IsPrintableAscii at hc
    omega
  · exact hspacing (by decide) hb (hcomma ▸ hc)
  · exact hspacing (by decide) hb' (hcolon ▸ hc)

theorem isScalar_write (hs : s.IsBlank) (v : Json) : (write s v).IsScalar := by
  intro c hc
  have hlt := val_lt_of_mem_write hs hc
  unfold CodePoint.IsSurrogate
  omega

end Characters

/-! ### Reading -/

/-- What is written for a value is read as the value with its pairs of surrogates joined. -/
theorem read_write_joined {limits : Limits} {s : Spacing} (hs : s.IsBlank) {v : Json}
    (hintegers : v.Forall (IsShortInt limits.digits)) (hfloats : limits.nonFinite = true ∨ v.Forall IsFiniteFloat)
    (hdepth : v.depth ≤ limits.depth) : read limits (write s v) = .ok v.joined := by
  have hmark : ¬startsWithMark (write s v) = true := by
    intro hmark
    cases ht : write s v with
    | nil =>
      rw [ht] at hmark
      cases hmark
    | cons c t =>
      have hlt := val_lt_of_mem_write hs (ht ▸ List.mem_cons_self)
      rw [ht, startsWithMark, beq_iff_eq] at hmark
      omega
  rw [read_of_no_mark hmark, document_of_isDocument (isDocument_write_joined hs hintegers hfloats hdepth)]
  rfl

/-- What is written for a value is read as the value. -/
theorem read_write {limits : Limits} {s : Spacing} (hs : s.IsBlank) {v : Json} (h : v.IsWritable limits)
    (hdepth : v.depth ≤ limits.depth) : read limits (write s v) = .ok v := by
  rw [read_write_joined hs h.integers h.floats hdepth, joined_eq_self h.texts h.names]

end WireCodec.Json
