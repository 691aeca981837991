import WireCodec.Json.Writer
import WireCodec.Proofs.Binary64.ReadBack
import WireCodec.Proofs.Json.Grammar
import WireCodec.Proofs.Json.Members
import WireCodec.Proofs.Json.Values
import WireCodec.Proofs.Text.Hexadecimal

/-!
# Written values are in the grammar

The text of a value is in the grammar if the integers of the value are short enough, and its floating-point numbers
finite where the words for others are not read.  It stands for the value with every high surrogate joined with a low
one directly after it (`isValue_write_joined`).  This is the value itself if there are no such pairs and its names are
unique (`joined_eq_self`).
-/

namespace WireCodec

/-! ### Joining pairs -/

/-- A text without a high surrogate directly before a low one has nothing to join. -/
theorem Text.joinPairs_of_isUnpaired {t : Text} (h : t.IsUnpaired) : t.joinPairs = t := by
  induction t using Text.joinPairs.induct with
  | case1 => rfl
  | case2 c => rfl
  | case3 c d rest hpair ih => exact absurd hpair (List.isChain_cons_cons.1 h).1
  | case4 c d rest hpair ih => rw [joinPairs, if_neg hpair, ih (List.isChain_cons_cons.1 h).2]

namespace Json

/-! ### Strings -/

private theorem codePoint?_hex {c : CodePoint} (h : c.val < 0x10000) :
    codePoint? (.hexDigit (c.val / 16 / 16 / 16)) (.hexDigit (c.val / 16 / 16)) (.hexDigit (c.val / 16))
      (.hexDigit c.val) = some c := by
  simp only [codePoint?, CodePoint.hex?_hexDigit, Option.some.injEq]
  apply CodePoint.ext
  dsimp only
  omega

theorem escape_of_isSurrogate {c : CodePoint} (h : c.IsSurrogate) : escape c = codeEscape c := by
  unfold CodePoint.IsSurrogate at h
  unfold escape
  repeat rw [if_neg (by omega)]
  rw [if_pos (by omega)]

theorem escape_of_le {c : CodePoint} (h : 0x10000 ≤ c.val) :
    escape c = codeEscape c.highHalf ++ codeEscape c.lowHalf := by
  unfold escape
  repeat rw [if_neg (by omega)]

/-- The marked code points that the writing of a code point is read as. -/
def unitsOf (c : CodePoint) : List (CodePoint × Bool) :=
  if c.val < 0x10000 then [(c, decide (2 < (escape c).length))] else [(c.highHalf, true), (c.lowHalf, true)]

private theorem isUnit_codeEscape {c : CodePoint} (h : c.val < 0x10000) : IsUnit (codeEscape c) (c, true) :=
  .code (codePoint?_hex h)

private theorem IsBody.single {s : Text} {u : CodePoint × Bool} (h : IsUnit s u) : IsBody s [u] := by
  rw [← List.append_nil s]
  exact .cons h .nil

private theorem IsBody.append {s t : Text} {us vs : List (CodePoint × Bool)} (hs : IsBody s us)
    (ht : IsBody t vs) : IsBody (s ++ t) (us ++ vs) := by
  induction hs with
  | nil => exact ht
  | cons hunit _ ih =>
    rw [List.append_assoc]
    exact .cons hunit ih

private theorem isUnit_short {c : CodePoint} (e x : CodePoint) (hval : c.val = x.val) (h : shortEscape? e = some x) :
    IsUnit [.ofChar '\\', e] (c, false) := by
  obtain rfl := CodePoint.ext hval
  exact .short h

private theorem isUnit_escape {c : CodePoint} (h : c.val < 0x10000) :
    IsUnit (escape c) (c, decide (2 < (escape c).length)) := by
  unfold escape
  -- quote and backslash, the characters with a short escape, what needs none, and all others by number
  split
  · next hc => exact isUnit_short (.ofChar '\x22') (.ofChar '\x22') hc rfl
  split
  · next hc => exact isUnit_short (.ofChar '\\') (.ofChar '\\') hc rfl
  split
  · next hc => exact isUnit_short (.ofChar 'n') (.ofChar '\n') hc rfl
  split
  · next hc => exact isUnit_short (.ofChar 'r') (.ofChar '\r') hc rfl
  split
  · next hc => exact isUnit_short (.ofChar 't') (.ofChar '\t') hc rfl
  split
  · next hc => exact isUnit_short (.ofChar 'f') (.ofChar '\x0c') hc rfl
  split
  · next hc => exact isUnit_short (.ofChar 'b') (.ofChar '\x08') hc rfl
  split
  · next hquote hescape _ _ _ _ _ hc => exact .plain hc.1 hquote hescape
  · exact isUnit_codeEscape h

/-- The writing of a code point is read as its marked code points. -/
private theorem isBody_escape (c : CodePoint) : IsBody (escape c) (unitsOf c) := by
  unfold unitsOf
  split
  · next h => exact .single (isUnit_escape h)
  · next h =>
    have hhigh := isUnit_codeEscape (CodePoint.highHalf_lt (Nat.le_of_not_lt h))
    rw [escape_of_le (Nat.le_of_not_lt h)]
    exact (IsBody.single hhigh).append (.single (isUnit_codeEscape c.lowHalf_lt))

private theorem isBody_flatMap_escape (t : Text) : IsBody (t.flatMap escape) (t.flatMap unitsOf) := by
  induction t with
  | nil => exact .nil
  | cons c t ih => exact (isBody_escape c).append ih

private theorem joinUnits_cons {c : CodePoint} {m : Bool} {us : List (CodePoint × Bool)}
    (h : ∀ u ∈ us.head?, ¬(m = true ∧ c.IsHigh ∧ u.1.IsLow)) : joinUnits ((c, m) :: us) = c :: joinUnits us := by
  cases us with
  | nil => rfl
  | cons u us =>
    obtain ⟨d, n⟩ := u
    rw [joinUnits, if_neg fun hpair => h (d, n) rfl ⟨hpair.1, hpair.2.2⟩]

private theorem unitsOf_of_isSurrogate {c : CodePoint} (h : c.IsSurrogate) : unitsOf c = [(c, true)] := by
  have hescape := escape_of_isSurrogate h
  unfold CodePoint.IsSurrogate at h
  rw [unitsOf, if_pos (by omega), hescape]
  rfl

private theorem joinUnits_unitsOf_of_le {c : CodePoint} (h : 0x10000 ≤ c.val) (us : List (CodePoint × Bool)) :
    joinUnits (unitsOf c ++ us) = c :: joinUnits us := by
  rw [unitsOf, if_neg (by omega)]
  show joinUnits ((c.highHalf, true) :: (c.lowHalf, true) :: us) = _
  rw [joinUnits, if_pos ⟨rfl, rfl, CodePoint.isHigh_highHalf h, c.isLow_lowHalf⟩, CodePoint.join_halves h]

/-- The first marked code point of a written text is a low surrogate only if the text begins with it. -/
private theorem head?_unitsOf {d : CodePoint} {u : CodePoint × Bool} (h : u ∈ (unitsOf d).head?)
    (hlow : u.1.IsLow) : d.IsLow := by
  unfold unitsOf at h
  split at h
  · obtain rfl := Option.some.inj h
    exact hlow
  · next hd =>
    obtain rfl := Option.some.inj h
    have hc := d.isLt
    have : 0xDC00 ≤ 0xD800 + (d.val - 0x10000) / 0x400 := hlow.1
    omega

/-- A code point that makes no pair with the next one is read as itself. -/
private theorem joinUnits_unitsOf {c : CodePoint} {t : Text} (h : ∀ d ∈ t.head?, ¬(c.IsHigh ∧ d.IsLow)) :
    joinUnits (unitsOf c ++ t.flatMap unitsOf) = c :: joinUnits (t.flatMap unitsOf) := by
  by_cases hc : 0x10000 ≤ c.val
  · exact joinUnits_unitsOf_of_le hc _
  · rw [unitsOf, if_pos (by omega)]
    show joinUnits ((c, _) :: t.flatMap unitsOf) = _
    refine joinUnits_cons fun u hu hpair => ?_
    cases t with
    | nil => cases hu
    | cons d t =>
      have hne : unitsOf d ≠ [] := by
        unfold unitsOf
        split <;> exact List.cons_ne_nil _ _
      rw [List.flatMap_cons, List.head?_append_of_ne_nil _ hne] at hu
      exact h d rfl ⟨hpair.2.1, head?_unitsOf hu hpair.2.2⟩

private theorem joinUnits_flatMap_unitsOf (t : Text) : joinUnits (t.flatMap unitsOf) = t.joinPairs := by
  induction t using Text.joinPairs.induct with
  | case1 => rfl
  | case2 c => exact joinUnits_unitsOf (by simp)
  | case3 c d rest hpair ih =>
    -- surrogates are written by their numbers, and two such halves are joined
    have hc := unitsOf_of_isSurrogate (c.isSurrogate_iff.2 (.inl hpair.1))
    have hd := unitsOf_of_isSurrogate (d.isSurrogate_iff.2 (.inr hpair.2))
    rw [List.flatMap_cons, List.flatMap_cons, hc, hd, Text.joinPairs, if_pos hpair, ← ih]
    exact if_pos ⟨rfl, rfl, hpair⟩
  | case4 c d rest hpair ih =>
    rw [Text.joinPairs, if_neg hpair, ← ih, List.flatMap_cons]
    refine joinUnits_unitsOf fun e he => ?_
    obtain rfl := Option.some.inj he
    exact hpair

/-- The writing of a text stands for the text with its pairs of surrogates joined. -/
theorem isString_writeString (t : Text) : IsString (writeString t) t.joinPairs := by
  rw [← joinUnits_flatMap_unitsOf]
  exact .intro (isBody_flatMap_escape t)

/-! ### Numbers -/

/-- The text of an integer spells a numeral that is read as the integer. -/
private theorem exists_spells_ofInt (n : Int) : ∃ x : Numeral, x.Spells (Text.ofInt n) ∧ x.isInteger = true ∧
    x.toInt = n ∧ x.whole = Text.ofNat n.natAbs := by
  cases n with
  | ofNat n =>
    refine ⟨⟨false, Text.ofNat n, [], none⟩, ⟨[], ?_, Numeral.isWhole_ofNat n, by simp, .absent⟩, rfl, ?_, rfl⟩
    · simp [Numeral.minusText, Numeral.pointText, Text.ofInt]
    · simp [Numeral.toInt, Text.decimalValue_ofNat]
  | negSucc n =>
    refine ⟨⟨true, Text.ofNat (n + 1), [], none⟩, ⟨[], ?_, Numeral.isWhole_ofNat _, by simp, .absent⟩, rfl, ?_, rfl⟩
    · simp [Numeral.minusText, Numeral.pointText, Text.ofInt]
    · simp [Numeral.toInt, Text.decimalValue_ofNat, Int.negSucc_eq]

private theorem isScalar_ofInt {limits : Limits} {n : Int} (h : (Json.int n).IsShortInt limits.digits) :
    IsScalar limits (Text.ofInt n) (.int n) := by
  obtain ⟨x, hspells, hint, hread, hwhole⟩ := exists_spells_ofInt n
  have hscalar := @IsScalar.integer limits _ _ hspells hint (hwhole ▸ h)
  rwa [hread] at hscalar

private theorem isScalar_writeFloat {limits : Limits} {x : Binary64} (h : limits.nonFinite = true ∨ x.IsFinite) :
    IsScalar limits (writeFloat x) (.float x) := by
  cases x with
  | finite negative m e hm =>
    obtain ⟨n, hspells, hint, hread⟩ := Binary64.exists_spells_toText (x := .finite negative m e hm) trivial
    have hscalar := @IsScalar.float limits _ _ hspells hint
    rw [← Binary64.ofNumeral, hread] at hscalar
    exact hscalar
  | infinite negative =>
    refine .nonFinite (h.resolve_right id) ?_
    cases negative <;> simp [writeFloat, nonFiniteWords]
  | nan => exact .nonFinite (h.resolve_right id) (by simp [writeFloat, nonFiniteWords])

/-! ### Joined values -/

mutual

/-- The value with the pairs of surrogates in its texts joined; of names that become equal the last value counts. -/
def joined : Json → Json
  | .str t => .str t.joinPairs
  | .arr items => .arr (itemsJoined items)
  | .obj members => .obj (Members.ofPairs (membersJoined members))
  | v => v

/-- The items of an array with the pairs joined. -/
def itemsJoined : List Json → List Json
  | [] => []
  | item :: rest => item.joined :: itemsJoined rest

/-- The members of an object with the pairs joined in names and values. -/
def membersJoined : List (Text × Json) → List (Text × Json)
  | [] => []
  | (name, value) :: rest => (name.joinPairs, value.joined) :: membersJoined rest

end

private theorem itemsJoined_eq_self {items : List Json} (h : ∀ v ∈ items, v.joined = v) : itemsJoined items = items := by
  induction items with
  | nil => rfl
  | cons item rest ih =>
    rw [itemsJoined, h item List.mem_cons_self, ih fun v hv => h v (List.mem_cons_of_mem _ hv)]

private theorem membersJoined_eq_self {members : Members}
    (h : ∀ m ∈ members, m.1.joinPairs = m.1 ∧ m.2.joined = m.2) : membersJoined members = members := by
  induction members with
  | nil => rfl
  | cons m rest ih =>
    obtain ⟨name, v⟩ := m
    have hm := h (name, v) List.mem_cons_self
    rw [membersJoined, hm.1, hm.2, ih fun p hp => h p (List.mem_cons_of_mem _ hp)]

/-- A value without pairs to join and with unique names stays as it is. -/
theorem joined_eq_self {v : Json} (htexts : v.Forall HasUnpairedText) (hnames : v.HasUniqueNames) : v.joined = v := by
  induction v using Json.induct with
  | null | bool | int | float => rfl
  | str t => rw [joined, Text.joinPairs_of_isUnpaired htexts.self]
  | arr items ih =>
    rw [joined, itemsJoined_eq_self fun v hv =>
      ih v hv ((forall_arr.1 htexts).2 v hv) (hasUniqueNames_arr.1 hnames v hv)]
  | obj members ih =>
    have hmembers := forall_obj.1 htexts
    have hunique := hasUniqueNames_obj.1 hnames
    rw [joined, membersJoined_eq_self fun m hm =>
        ⟨Text.joinPairs_of_isUnpaired (hmembers.1 m hm), ih m hm (hmembers.2 m hm) (hunique.2 m hm)⟩,
      Members.ofPairs_of_nodup hunique.1]

/-! ### Values -/

/-- Commas and colons with nothing but blanks after them. -/
structure Spacing.IsBlank (s : Spacing) : Prop where
  comma : ∃ b, IsBlanks b ∧ s.comma = .ofChar ',' :: b
  colon : ∃ b, IsBlanks b ∧ s.colon = .ofChar ':' :: b

theorem Spacing.isBlank_compact : Spacing.compact.IsBlank := ⟨⟨[], isBlanks_nil, rfl⟩, ⟨[], isBlanks_nil, rfl⟩⟩

theorem Spacing.isBlank_wide : Spacing.wide.IsBlank := by
  have hblank : IsBlanks [.ofChar ' '] := by
    intro c hc
    rw [List.mem_singleton.1 hc]
    rfl
  exact ⟨⟨_, hblank, rfl⟩, ⟨_, hblank, rfl⟩⟩

variable {limits : Limits} {s : Spacing}

private theorem isItems_write (hs : s.IsBlank) {V : Text → Json → Prop} {item : Json} {rest : List Json}
    (h : ∀ v ∈ item :: rest, V (write s v) v.joined) :
    IsItems V (write s item ++ (writeItems s rest ++ [.ofChar ']'])) (itemsJoined (item :: rest)) := by
  induction rest generalizing item with
  | nil => exact .last (h item List.mem_cons_self) isBlanks_nil
  | cons next rest ih =>
    obtain ⟨b, hb, hcomma⟩ := hs.comma
    have hnext := ih fun v hv => h v (List.mem_cons_of_mem _ hv)
    rw [writeItems, hcomma, itemsJoined]
    have h' := IsItems.cons (h item List.mem_cons_self) isBlanks_nil hb hnext
    simpa only [List.nil_append, List.cons_append, List.append_assoc] using h'

private theorem isName_write (hs : s.IsBlank) (name : Text) : IsName (writeString name ++ s.colon) name.joinPairs := by
  obtain ⟨b, hb, hcolon⟩ := hs.colon
  rw [hcolon]
  exact .intro (isString_writeString name) isBlanks_nil hb

private theorem isMembers_write (hs : s.IsBlank) {V : Text → Json → Prop} {m : Text × Json} {rest : Members}
    (h : ∀ p ∈ m :: rest, V (write s p.2) p.2.joined) :
    IsMembers V (writeString m.1 ++ s.colon ++ (write s m.2 ++ (writeMembers s rest ++ [.ofChar '\x7d'])))
      (membersJoined (m :: rest)) := by
  induction rest generalizing m with
  | nil => exact .last (isName_write hs m.1) (h m List.mem_cons_self) isBlanks_nil
  | cons next rest ih =>
    obtain ⟨b, hb, hcomma⟩ := hs.comma
    have hnext := ih fun p hp => h p (List.mem_cons_of_mem _ hp)
    obtain ⟨name, v⟩ := m
    obtain ⟨nextName, next⟩ := next
    rw [writeMembers, hcomma, membersJoined]
    have h' := IsMembers.cons (isName_write hs name) (h (name, v) List.mem_cons_self) isBlanks_nil hb hnext
    simpa only [List.nil_append, List.cons_append, List.append_assoc] using h'

private theorem isContainer_write_arr (hs : s.IsBlank) {V : Text → Json → Prop} {items : List Json}
    (h : ∀ v ∈ items, V (write s v) v.joined) : IsContainer V (write s (.arr items)) (Json.arr items).joined := by
  rw [joined]
  cases items with
  | nil => exact .emptyArray isBlanks_nil
  | cons item rest =>
    have h' := IsContainer.array isBlanks_nil (isItems_write hs h)
    rw [List.nil_append, ← List.append_assoc] at h'
    rw [write, List.append_assoc (Text.ofString "["), List.append_assoc (Text.ofString "[")]
    exact h'

private theorem isContainer_write_obj (hs : s.IsBlank) {V : Text → Json → Prop} {members : Members}
    (h : ∀ p ∈ members, V (write s p.2) p.2.joined) :
    IsContainer V (write s (.obj members)) (Json.obj members).joined := by
  rw [joined]
  cases members with
  | nil => exact .emptyObject isBlanks_nil
  | cons m rest =>
    have h' := IsContainer.object isBlanks_nil (isMembers_write hs h)
    obtain ⟨name, v⟩ := m
    rw [write]
    simp only [List.append_assoc, List.nil_append] at h' ⊢
    exact h'

/-- The text of a value stands for the value with its pairs of surrogates joined. -/
theorem isValue_write_joined (hs : s.IsBlank) {v : Json} (hintegers : v.Forall (IsShortInt limits.digits))
    (hfloats : limits.nonFinite = true ∨ v.Forall IsFiniteFloat) {depth : Nat} (hdepth : v.depth ≤ depth) :
    IsValue limits depth (write s v) v.joined := by
  induction v using Json.induct generalizing depth with
  | null => exact (IsScalar.word (by simp [words, write, joined])).isValue _
  | bool b => exact (IsScalar.word (by cases b <;> simp [words, write, joined])).isValue _
  | int n =>
    rw [write]
    exact (isScalar_ofInt hintegers.self).isValue _
  | float x =>
    rw [write]
    exact (isScalar_writeFloat (hfloats.imp_right Forall.self)).isValue _
  | str t =>
    rw [write]
    exact (IsScalar.string (isString_writeString t)).isValue _
  | arr items ih =>
    obtain ⟨depth, rfl⟩ := Nat.exists_eq_add_of_le' (Nat.le_trans (Nat.succ_le_succ (Nat.zero_le _)) hdepth)
    refine .inr (isContainer_write_arr hs fun v hv =>
      ih v hv ((forall_arr.1 hintegers).2 v hv) (hfloats.imp_right fun h => (forall_arr.1 h).2 v hv) ?_)
    exact Nat.le_of_lt_succ (Nat.lt_of_lt_of_le (depth_lt_of_mem_arr hv) hdepth)
  | obj members ih =>
    obtain ⟨depth, rfl⟩ := Nat.exists_eq_add_of_le' (Nat.le_trans (Nat.succ_le_succ (Nat.zero_le _)) hdepth)
    refine .inr (isContainer_write_obj hs fun m hm =>
      ih m hm ((forall_obj.1 hintegers).2 m hm) (hfloats.imp_right fun h => (forall_obj.1 h).2 m hm) ?_)
    exact Nat.le_of_lt_succ (Nat.lt_of_lt_of_le (depth_lt_of_mem_obj hm) hdepth)

/-- The values that are read back from their writing as far as depth does not matter. -/
structure IsWritable (limits : Limits) (v : Json) : Prop where
  integers : v.Forall (IsShortInt limits.digits)
  floats : limits.nonFinite = true ∨ v.Forall IsFiniteFloat
  texts : v.Forall HasUnpairedText
  names : v.HasUniqueNames

/-- The text of a value is a document for the value with its pairs of surrogates joined. -/
theorem isDocument_write_joined (hs : s.IsBlank) {v : Json} (hintegers : v.Forall (IsShortInt limits.digits))
    (hfloats : limits.nonFinite = true ∨ v.Forall IsFiniteFloat) (hdepth : v.depth ≤ limits.depth) :
    IsDocument limits (write s v) v.joined := by
  have h := IsDocument.intro isBlanks_nil (isValue_write_joined hs hintegers hfloats hdepth) isBlanks_nil
  rwa [List.nil_append, List.append_nil] at h

end Json

end WireCodec
