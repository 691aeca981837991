import WireCodec.Proofs.Json.Acceptance

/-!
# What is read is in the grammar

The converse of acceptance.  A reader that gives a value has taken a text from the front that stands for this value
(`yields_value`), and the rest is left as it was.  So what is read as a document is one, for the value that was read
(`isDocument_of_document`).
-/

namespace WireCodec.Json

/-! ### Steps of a reading -/

section Steps

variable {α β : Type}

theorem bind_eq_ok {x : Except Failure α} {f : α → Except Failure β} {y : β} (h : x >>= f = .ok y) :
    ∃ a, x = .ok a ∧ f a = .ok y := by
  cases x with
  | error e => cases h
  | ok a => exact ⟨a, rfl, h⟩

theorem map_eq_ok {x : Except Failure α} {f : α → β} {y : β} (h : x.map f = .ok y) :
    ∃ a, x = .ok a ∧ f a = y := by
  cases x with
  | error e => cases h
  | ok a => exact ⟨a, rfl, Except.ok.inj h⟩

end Steps

theorem exists_isBlanks_append (t : Text) : ∃ b, IsBlanks b ∧ t = b ++ Text.skipJsonBlanks t :=
  ⟨t.takeWhile CodePoint.isJsonBlank, List.all_eq_true.1 List.all_takeWhile, List.takeWhile_append_dropWhile.symm⟩

/-! ### Strings -/

/-- The inside of a string is read from a text of the grammar with a closing quote after it. -/
theorem isBody_of_stringUnits {opening t rest : Text} {us : List (CodePoint × Bool)}
    (h : stringUnits opening t = .ok (us, rest)) : ∃ body, IsBody body us ∧ t = body ++ .ofChar '\x22' :: rest := by
  -- one case for each way the reader goes on or stops; where it stops without a closing quote there is a fault
  induction t using stringUnits.induct generalizing us rest with
  | case1 => cases h
  | case2 c t hquote =>
    obtain rfl : c = .ofChar '\x22' := CodePoint.ext hquote
    rw [stringUnits_quote] at h
    obtain ⟨rfl, rfl⟩ := Prod.mk.inj (Except.ok.inj h)
    exact ⟨[], .nil, rfl⟩
  | case3 c _ hescape =>
    rw [stringUnits.eq_def] at h
    simp [hescape] at h
  | case4 c _ hescape e hu h₁ h₂ h₃ h₄ next more u hcode ih =>
    obtain rfl : c = .ofChar '\\' := CodePoint.ext hescape
    obtain rfl : e = .ofChar 'u' := CodePoint.ext hu
    rw [stringUnits_code hcode] at h
    obtain ⟨r, hread, hr⟩ := map_eq_ok h
    obtain ⟨rfl, rfl⟩ := Prod.mk.inj hr
    obtain ⟨body, hbody, ht⟩ := ih hread
    refine ⟨_, .cons (.code hcode) hbody, ?_⟩
    rw [ht]
    rfl
  | case5 c _ hescape e hu h₁ h₂ h₃ h₄ next more hcode =>
    rw [stringUnits.eq_def] at h
    simp [hescape, hu, hcode] at h
  | case6 c _ hescape e after hu hshort =>
    rw [stringUnits.eq_def] at h
    simp [hescape, hu] at h
  | case7 c _ hescape e after _ u hshort ih =>
    obtain rfl : c = .ofChar '\\' := CodePoint.ext hescape
    rw [stringUnits_short hshort] at h
    obtain ⟨r, hread, hr⟩ := map_eq_ok h
    obtain ⟨rfl, rfl⟩ := Prod.mk.inj hr
    obtain ⟨body, hbody, ht⟩ := ih hread
    refine ⟨_, .cons (.short hshort) hbody, ?_⟩
    rw [ht]
    rfl
  | case8 c _ hescape e after hu hshort =>
    rw [stringUnits.eq_def] at h
    simp [hescape, hu, hshort] at h
  | case9 c t hquote hescape hcontrol =>
    rw [stringUnits.eq_def] at h
    simp [hquote, hescape, hcontrol] at h
  | case10 c t hquote hescape hcontrol ih =>
    have hplain : 0x20 ≤ c.val := Nat.not_lt.1 hcontrol
    rw [stringUnits_plain hplain hquote hescape] at h
    obtain ⟨r, hread, hr⟩ := map_eq_ok h
    obtain ⟨rfl, rfl⟩ := Prod.mk.inj hr
    obtain ⟨body, hbody, ht⟩ := ih hread
    refine ⟨_, .cons (.plain hplain hquote hescape) hbody, ?_⟩
    rw [ht]
    rfl

/-- A string that is read after its opening quote. -/
theorem isString_of_string {opening after rest s : Text} (h : string opening after = .ok (s, rest)) :
    ∃ t, IsString t s ∧ .ofChar '\x22' :: after = t ++ rest := by
  obtain ⟨⟨us, t⟩, hunits, hr⟩ := map_eq_ok h
  obtain ⟨rfl, rfl⟩ := Prod.mk.inj hr
  obtain ⟨body, hbody, rfl⟩ := isBody_of_stringUnits hunits
  exact ⟨_, .intro hbody, by simp⟩

/-! ### Numbers and words -/

theorem exists_of_findWord {table : List (Text × Json)} {t rest : Text} {v : Json}
    (h : findWord table t = some (v, rest)) : ∃ word, (word, v) ∈ table ∧ t = word ++ rest := by
  obtain ⟨⟨word, v'⟩, hmem, hfound⟩ := List.exists_of_findSome?_eq_some h
  obtain ⟨r, hr, hv⟩ := Option.map_eq_some_iff.1 hfound
  obtain ⟨rfl, rfl⟩ := Prod.mk.inj hv
  exact ⟨word, hmem, (List.isPrefixOf?_eq_some_iff_append_eq.1 hr).symm⟩

private theorem isScalar_of_number {limits : Limits} {t rest : Text} {v : Json}
    (h : number limits t = .ok (v, rest)) : ∃ s, IsScalar limits s v ∧ t = s ++ rest := by
  unfold number at h
  cases hscan : Numeral.scan? t with
  | none =>
    rw [hscan] at h
    cases h
  | some r =>
    obtain ⟨n, after⟩ := r
    obtain ⟨s, hspells, rfl⟩ := Numeral.exists_spells_of_scan? hscan
    rw [hscan] at h
    dsimp only at h
    split at h
    · next hint =>
      split at h
      · cases h
      · next hdigits =>
        obtain ⟨rfl, rfl⟩ := Prod.mk.inj (Except.ok.inj h)
        exact ⟨s, .integer hspells hint (Nat.not_lt.1 hdigits), rfl⟩
    · next hint =>
      obtain ⟨rfl, rfl⟩ := Prod.mk.inj (Except.ok.inj h)
      exact ⟨s, .float hspells (Bool.eq_false_iff.2 hint), rfl⟩

private theorem isScalar_of_wordOrNumber {limits : Limits} {t rest : Text} {v : Json}
    (h : wordOrNumber limits t = .ok (v, rest)) : ∃ s, IsScalar limits s v ∧ t = s ++ rest := by
  unfold wordOrNumber at h
  cases hword : findWord words t with
  | some r =>
    rw [hword] at h
    obtain rfl := Except.ok.inj h
    obtain ⟨word, hmem, ht⟩ := exists_of_findWord hword
    exact ⟨word, .word hmem, ht⟩
  | none =>
    rw [hword] at h
    cases hnonFinite : findWord nonFiniteWords t with
    | some r =>
      rw [hnonFinite] at h
      dsimp only at h
      split at h
      · next hlimits =>
        obtain rfl := Except.ok.inj h
        obtain ⟨word, hmem, ht⟩ := exists_of_findWord hnonFinite
        exact ⟨word, .nonFinite hlimits hmem, ht⟩
      · cases h
    | none =>
      rw [hnonFinite] at h
      exact isScalar_of_number h

/-! ### Containers -/

/-- Whatever is read has been taken from a text that the relation says to stand for it. -/
def Yields (V : Text → Json → Prop) (read : Reader Json) : Prop :=
  ∀ {t rest : Text} {v : Json}, read t = .ok (v, rest) → ∃ s, V s v ∧ t = s ++ rest

private theorem eq_of_separator {close : Nat} {t rest : Text} {more : Bool}
    (h : separator close t = .ok (more, rest)) : ∃ b, IsBlanks b ∧
      ((more = false ∧ ∃ c, c.val = close ∧ t = b ++ c :: rest) ∨
        (more = true ∧ ∃ b', IsBlanks b' ∧ t = b ++ .ofChar ',' :: (b' ++ rest))) := by
  obtain ⟨b, hb, ht⟩ := exists_isBlanks_append t
  refine ⟨b, hb, ?_⟩
  unfold separator at h
  cases hskip : Text.skipJsonBlanks t with
  | nil =>
    rw [hskip] at h
    cases h
  | cons c after =>
    rw [hskip] at h ht
    dsimp only at h
    split at h
    · next hclose =>
      obtain ⟨rfl, rfl⟩ := Prod.mk.inj (Except.ok.inj h)
      exact .inl ⟨rfl, c, hclose, ht⟩
    · split at h
      · next hcomma =>
        obtain ⟨rfl, rfl⟩ := Prod.mk.inj (Except.ok.inj h)
        obtain rfl : c = .ofChar ',' := CodePoint.ext hcomma
        obtain ⟨b', hb', hafter⟩ := exists_isBlanks_append after
        exact .inr ⟨rfl, b', hb', by rw [← hafter]; exact ht⟩
      · cases h

private theorem eq_of_colon {t rest : Text} (h : colon t = .ok rest) :
    ∃ b b', IsBlanks b ∧ IsBlanks b' ∧ t = b ++ .ofChar ':' :: (b' ++ rest) := by
  obtain ⟨b, hb, ht⟩ := exists_isBlanks_append t
  unfold colon at h
  cases hskip : Text.skipJsonBlanks t with
  | nil =>
    rw [hskip] at h
    cases h
  | cons c after =>
    rw [hskip] at h ht
    dsimp only at h
    split at h
    · next hcolon =>
      obtain rfl := Except.ok.inj h
      obtain rfl : c = .ofChar ':' := CodePoint.ext hcolon
      obtain ⟨b', hb', hafter⟩ := exists_isBlanks_append after
      exact ⟨b, b', hb, hb', by rw [← hafter]; exact ht⟩
    · cases h

private theorem isName_of_name {t rest name : Text} (h : Json.name t = .ok (name, rest)) :
    ∃ n, IsName n name ∧ t = n ++ rest := by
  cases t with
  | nil => cases h
  | cons c t =>
    unfold Json.name at h
    dsimp only at h
    split at h
    · next hquote =>
      obtain rfl : c = .ofChar '\x22' := CodePoint.ext hquote
      obtain ⟨⟨s, after⟩, hstring, hafter⟩ := bind_eq_ok h
      obtain ⟨after', hcolon, hend⟩ := bind_eq_ok hafter
      obtain ⟨rfl, rfl⟩ := Prod.mk.inj (Except.ok.inj hend)
      obtain ⟨u, hu, ht⟩ := isString_of_string hstring
      obtain ⟨b, b', hb, hb', rfl⟩ := eq_of_colon hcolon
      exact ⟨_, .intro hu hb hb', by simp [ht]⟩
    · cases h

section Containers

variable {V : Text → Json → Prop} {read : Reader Json}

private theorem isItems_of_items (hV : Yields V read) {fuel : Nat} {t rest : Text} {vs : List Json}
    (h : items read fuel t = .ok (vs, rest)) : ∃ s, IsItems V s vs ∧ t = s ++ rest := by
  -- every turn of the loop takes an item, and a separator that decides how the grammar goes on
  induction fuel generalizing t vs with
  | zero => cases h
  | succ fuel ih =>
    rw [items] at h
    obtain ⟨⟨v, t₁⟩, hvalue, hafter⟩ := bind_eq_ok h
    obtain ⟨⟨more, t₂⟩, hsep, hnext⟩ := bind_eq_ok hafter
    obtain ⟨s, hs, rfl⟩ := hV hvalue
    obtain ⟨b, hb, ⟨rfl, c, hc, rfl⟩ | ⟨rfl, b', hb', rfl⟩⟩ := eq_of_separator hsep
    · obtain rfl : c = .ofChar ']' := CodePoint.ext hc
      obtain ⟨rfl, rfl⟩ := Prod.mk.inj (Except.ok.inj hnext)
      exact ⟨_, .last hs hb, by simp⟩
    · obtain ⟨⟨vs', t₃⟩, hitems, hend⟩ := bind_eq_ok hnext
      obtain ⟨rfl, rfl⟩ := Prod.mk.inj (Except.ok.inj hend)
      obtain ⟨s', hs', rfl⟩ := ih hitems
      exact ⟨_, .cons hs hb hb' hs', by simp⟩

private theorem isMembers_of_members (hV : Yields V read) {fuel : Nat} {t rest : Text}
    {pairs : List (Text × Json)} (h : members read fuel t = .ok (pairs, rest)) :
    ∃ s, IsMembers V s pairs ∧ t = s ++ rest := by
  induction fuel generalizing t pairs with
  | zero => cases h
  | succ fuel ih =>
    rw [members] at h
    obtain ⟨⟨name, t₁⟩, hname, hmember⟩ := bind_eq_ok h
    obtain ⟨⟨v, t₂⟩, hvalue, hafter⟩ := bind_eq_ok hmember
    obtain ⟨⟨more, t₃⟩, hsep, hnext⟩ := bind_eq_ok hafter
    obtain ⟨n, hn, rfl⟩ := isName_of_name hname
    obtain ⟨s, hs, rfl⟩ := hV hvalue
    obtain ⟨b, hb, ⟨rfl, c, hc, rfl⟩ | ⟨rfl, b', hb', rfl⟩⟩ := eq_of_separator hsep
    · obtain rfl : c = .ofChar '\x7d' := CodePoint.ext hc
      obtain ⟨rfl, rfl⟩ := Prod.mk.inj (Except.ok.inj hnext)
      exact ⟨_, .last hn hs hb, by simp⟩
    · obtain ⟨⟨pairs', t₄⟩, hmembers, hend⟩ := bind_eq_ok hnext
      obtain ⟨rfl, rfl⟩ := Prod.mk.inj (Except.ok.inj hend)
      obtain ⟨s', hs', rfl⟩ := ih hmembers
      exact ⟨_, .cons hn hs hb hb' hs', by simp⟩

private theorem eq_of_closes? {close : Nat} {t rest : Text} (h : closes? close t = some rest) :
    ∃ c, c.val = close ∧ t = c :: rest := by
  cases t with
  | nil => cases h
  | cons c t =>
    unfold closes? at h
    dsimp only at h
    split at h
    · next hc =>
      obtain rfl := Option.some.inj h
      exact ⟨c, hc, rfl⟩
    · cases h

private theorem isContainer_of_array (hV : Yields V read) {t rest : Text} {v : Json}
    (h : array read t = .ok (v, rest)) : ∃ s, IsContainer V s v ∧ .ofChar '[' :: t = s ++ rest := by
  obtain ⟨b, hb, ht⟩ := exists_isBlanks_append t
  unfold array at h
  dsimp only at h
  split at h
  · next after hcloses =>
    obtain ⟨rfl, rfl⟩ := Prod.mk.inj (Except.ok.inj h)
    obtain ⟨c, hc, hskip⟩ := eq_of_closes? hcloses
    obtain rfl : c = .ofChar ']' := CodePoint.ext hc
    exact ⟨_, .emptyArray hb, by rw [ht, hskip]; simp⟩
  · obtain ⟨⟨vs, after⟩, hitems, hr⟩ := map_eq_ok h
    obtain ⟨rfl, rfl⟩ := Prod.mk.inj hr
    obtain ⟨s, hs, hskip⟩ := isItems_of_items hV hitems
    exact ⟨_, .array hb hs, by rw [ht, hskip]; simp⟩

private theorem isContainer_of_object (hV : Yields V read) {t rest : Text} {v : Json}
    (h : object read t = .ok (v, rest)) : ∃ s, IsContainer V s v ∧ .ofChar '\x7b' :: t = s ++ rest := by
  obtain ⟨b, hb, ht⟩ := exists_isBlanks_append t
  unfold object at h
  dsimp only at h
  split at h
  · next after hcloses =>
    obtain ⟨rfl, rfl⟩ := Prod.mk.inj (Except.ok.inj h)
    obtain ⟨c, hc, hskip⟩ := eq_of_closes? hcloses
    obtain rfl : c = .ofChar '\x7d' := CodePoint.ext hc
    exact ⟨_, .emptyObject hb, by rw [ht, hskip]; simp⟩
  · obtain ⟨⟨pairs, after⟩, hmembers, hr⟩ := map_eq_ok h
    obtain ⟨rfl, rfl⟩ := Prod.mk.inj hr
    obtain ⟨s, hs, hskip⟩ := isMembers_of_members hV hmembers
    exact ⟨_, .object hb hs, by rw [ht, hskip]; simp⟩

/-! ### Values and documents -/

/-- The readings of a value: a scalar at every depth, a container only where there is a reader for the values in
it. -/
private theorem of_valueWith {limits : Limits} {inner : Option (Reader Json)} {t rest : Text} {v : Json}
    (h : valueWith limits inner t = .ok (v, rest)) :
    (∃ s, IsScalar limits s v ∧ t = s ++ rest) ∨
      ∃ item ∈ inner, ∃ c after, t = c :: after ∧
        ((c.val = 0x7B ∧ object item after = .ok (v, rest)) ∨ (c.val = 0x5B ∧ array item after = .ok (v, rest))) := by
  cases t with
  | nil => cases h
  | cons c after =>
    unfold valueWith at h
    dsimp only at h
    split at h
    · next hquote =>
      obtain rfl : c = .ofChar '\x22' := CodePoint.ext hquote
      obtain ⟨⟨s, rest'⟩, hstring, hr⟩ := map_eq_ok h
      obtain ⟨rfl, rfl⟩ := Prod.mk.inj hr
      obtain ⟨u, hu, ht⟩ := isString_of_string hstring
      exact .inl ⟨u, .string hu, ht⟩
    split at h
    · next hbrace =>
      cases inner with
      | none => cases h
      | some item => exact .inr ⟨item, rfl, c, after, rfl, .inl ⟨hbrace, h⟩⟩
    split at h
    · next hbracket =>
      cases inner with
      | none => cases h
      | some item => exact .inr ⟨item, rfl, c, after, rfl, .inr ⟨hbracket, h⟩⟩
    · exact .inl (isScalar_of_wordOrNumber h)

/-- Whatever is read as a value stands for this value in the grammar. -/
theorem yields_value (limits : Limits) (depth : Nat) : Yields (IsValue limits depth) (value limits depth) := by
  induction depth with
  | zero =>
    -- without a reader for inner values only a scalar can have been read
    intro t rest v h
    rcases of_valueWith h with hscalar | ⟨item, hitem, -⟩
    · exact hscalar
    · cases hitem
  | succ depth ih =>
    intro t rest v h
    rcases of_valueWith h with ⟨s, hs, ht⟩ | ⟨item, hitem, c, after, rfl, hcontainer⟩
    · exact ⟨s, .inl hs, ht⟩
    · obtain rfl := Option.some.inj hitem
      rcases hcontainer with ⟨hc, hobject⟩ | ⟨hc, harray⟩
      · obtain rfl : c = .ofChar '\x7b' := CodePoint.ext hc
        obtain ⟨s, hs, ht⟩ := isContainer_of_object ih hobject
        exact ⟨s, .inr hs, ht⟩
      · obtain rfl : c = .ofChar '[' := CodePoint.ext hc
        obtain ⟨s, hs, ht⟩ := isContainer_of_array ih harray
        exact ⟨s, .inr hs, ht⟩

end Containers

/-- What is read as a document is one. -/
theorem isDocument_of_document {limits : Limits} {t : Text} {v : Json} (h : document limits t = .ok v) :
    IsDocument limits t v := by
  obtain ⟨b, hb, ht⟩ := exists_isBlanks_append t
  unfold document at h
  obtain ⟨⟨v', rest⟩, hvalue, hafter⟩ := bind_eq_ok h
  obtain ⟨s, hs, hskip⟩ := yields_value limits limits.depth hvalue
  obtain ⟨b', hb', hrest⟩ := exists_isBlanks_append rest
  dsimp only at hafter
  split at hafter
  · -- the blanks after the value end the text
    next hend =>
    obtain rfl := Except.ok.inj hafter
    rw [hend, List.append_nil] at hrest
    rw [ht, hskip, hrest]
    exact .intro hb hs hb'
  · cases hafter

end WireCodec.Json
