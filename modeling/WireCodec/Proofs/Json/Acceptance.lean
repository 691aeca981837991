import Mathlib.Data.List.Basic
import WireCodec.Proofs.Json.Grammar

/-!
# Texts of the grammar are read

Whatever the grammar says to stand for a value is read as this value, and reading stops where the writing of the
value ends (`accepts_value`).  What follows must not go on like a numeral, which only a number at the very end of
the text before it can mind.  So a document of the grammar is read as its value (`document_of_isDocument`).
-/

namespace WireCodec.Json

/-! ### Blanks -/

/-- A text that begins with a code point which is no blank and closes nothing. -/
def Starts (t : Text) : Prop := ∃ c s, t = c :: s ∧ c.isJsonBlank = false ∧ c.val ≠ 0x5D ∧ c.val ≠ 0x7D

theorem Starts.append {t : Text} (h : Starts t) (rest : Text) : Starts (t ++ rest) := by
  obtain ⟨c, s, rfl, hc⟩ := h
  exact ⟨c, s ++ rest, rfl, hc⟩

theorem skipJsonBlanks_append {b : Text} (h : IsBlanks b) (t : Text) :
    Text.skipJsonBlanks (b ++ t) = Text.skipJsonBlanks t :=
  List.dropWhile_append_of_pos h

theorem Starts.skipJsonBlanks {t : Text} (h : Starts t) : Text.skipJsonBlanks t = t := by
  obtain ⟨c, s, rfl, hc, -⟩ := h
  exact List.dropWhile_cons_of_neg (by rw [hc]; exact Bool.false_ne_true)

theorem Starts.closes?_bracket {t : Text} (h : Starts t) : closes? 0x5D t = none := by
  obtain ⟨c, s, rfl, -, hc, -⟩ := h
  exact if_neg hc

theorem Starts.closes?_brace {t : Text} (h : Starts t) : closes? 0x7D t = none := by
  obtain ⟨c, s, rfl, -, -, hc⟩ := h
  exact if_neg hc

theorem IsBlanks.ends_append {b t : Text} (h : IsBlanks b) (ht : Numeral.Ends t) : Numeral.Ends (b ++ t) := by
  cases b with
  | nil => exact ht
  | cons c b =>
    intro d hd
    obtain rfl := Option.some.inj hd
    have hc := h c List.mem_cons_self
    simp only [CodePoint.isJsonBlank, Bool.or_eq_true, beq_iff_eq] at hc
    refine ⟨?_, by omega, by omega, by omega⟩
    rw [← Bool.not_eq_true, CodePoint.isDigit_iff]
    omega

private theorem ends_cons {c : CodePoint} (h : c.isDigit = false ∧ c.val ≠ 0x2E ∧ c.val ≠ 0x65 ∧ c.val ≠ 0x45)
    (t : Text) : Numeral.Ends (c :: t) := by
  intro d hd
  obtain rfl := Option.some.inj hd
  exact h

/-! ### Strings -/

theorem stringUnits_plain {opening : Text} {c : CodePoint} (h : 0x20 ≤ c.val) (hquote : c.val ≠ 0x22)
    (hescape : c.val ≠ 0x5C) (t : Text) : stringUnits opening (c :: t) =
      (stringUnits opening t).map fun (us, t) => ((c, false) :: us, t) := by
  rw [stringUnits.eq_def]
  dsimp only
  rw [if_neg hquote, if_neg hescape, if_neg (by omega)]

theorem stringUnits_short {opening : Text} {e c : CodePoint} (h : shortEscape? e = some c) (t : Text) :
    stringUnits opening (.ofChar '\\' :: e :: t) =
      (stringUnits opening t).map fun (us, t) => ((c, false) :: us, t) := by
  have hu : e.val ≠ 0x75 := by
    intro hu
    simp [shortEscape?, hu] at h
  rw [stringUnits.eq_def]
  dsimp only
  rw [if_neg (by decide), if_pos (by decide), if_neg hu]
  simp only [h]

theorem stringUnits_code {opening : Text} {h₁ h₂ h₃ h₄ c : CodePoint}
    (h : codePoint? h₁ h₂ h₃ h₄ = some c) (d : CodePoint) (t : Text) :
    stringUnits opening (.ofChar '\\' :: .ofChar 'u' :: h₁ :: h₂ :: h₃ :: h₄ :: d :: t) =
      (stringUnits opening (d :: t)).map fun (us, t) => ((c, true) :: us, t) := by
  rw [stringUnits.eq_def]
  dsimp only
  rw [if_neg (by decide), if_pos (by decide), if_pos (by decide)]
  simp only [h]

theorem stringUnits_quote (opening rest : Text) :
    stringUnits opening (.ofChar '\x22' :: rest) = .ok ([], rest) := by
  rw [stringUnits.eq_def]
  dsimp only
  rw [if_pos (by decide)]

/-- The inside of a string is read up to the closing quote. -/
theorem stringUnits_append {body : Text} {us : List (CodePoint × Bool)} (h : IsBody body us)
    (opening rest : Text) : stringUnits opening (body ++ .ofChar '\x22' :: rest) = .ok (us, rest) := by
  induction h with
  | nil => exact stringUnits_quote opening rest
  | @cons s t u us hunit hbody ih =>
    rw [List.append_assoc]
    cases hunit with
    | plain h hquote hescape =>
      show stringUnits opening (_ :: (t ++ _)) = _
      rw [stringUnits_plain h hquote hescape, ih]
      rfl
    | short h =>
      show stringUnits opening (.ofChar '\\' :: _ :: (t ++ _)) = _
      rw [stringUnits_short h, ih]
      rfl
    | code h =>
      -- four digits at the very end of a text are no escape; here the closing quote follows at the latest
      obtain ⟨d, r, hdr⟩ : ∃ d r, t ++ .ofChar '\x22' :: rest = d :: r :=
        List.exists_cons_of_ne_nil (List.append_ne_nil_of_right_ne_nil _ (List.cons_ne_nil _ _))
      rw [hdr] at ih
      show stringUnits opening (.ofChar '\\' :: .ofChar 'u' :: _ :: _ :: _ :: _ :: (t ++ _)) = _
      rw [hdr, stringUnits_code h, ih]
      rfl

private theorem IsString.starts {t s : Text} (h : IsString t s) : Starts t := by
  cases h
  exact ⟨_, _, rfl, by decide, by decide, by decide⟩

/-- A string is read to its end. -/
private theorem string_append {t s : Text} (h : IsString t s) (rest : Text) :
    ∃ after, t ++ rest = .ofChar '\x22' :: after ∧ ∀ opening, string opening after = .ok (s, rest) := by
  obtain @⟨body, us, hbody⟩ := h
  refine ⟨_, rfl, fun opening => ?_⟩
  show string opening ((body ++ [_]) ++ rest) = _
  rw [List.append_assoc, string]
  show (stringUnits opening (body ++ .ofChar '\x22' :: rest)).map _ = _
  rw [stringUnits_append hbody]
  rfl

/-! ### Numbers and words -/

private theorem findWord_words {t : Text} {v : Json} (h : (t, v) ∈ words) (rest : Text) :
    findWord words (t ++ rest) = some (v, rest) := by
  simp only [words, List.mem_cons, Prod.mk.injEq, List.not_mem_nil, or_false] at h
  rcases h with ⟨rfl, rfl⟩ | ⟨rfl, rfl⟩ | ⟨rfl, rfl⟩ <;> rfl

private theorem findWord_nonFiniteWords {t : Text} {v : Json} (h : (t, v) ∈ nonFiniteWords) (rest : Text) :
    findWord words (t ++ rest) = none ∧ findWord nonFiniteWords (t ++ rest) = some (v, rest) := by
  simp only [nonFiniteWords, List.mem_cons, Prod.mk.injEq, List.not_mem_nil, or_false] at h
  rcases h with ⟨rfl, rfl⟩ | ⟨rfl, rfl⟩ | ⟨rfl, rfl⟩ <;> exact ⟨rfl, rfl⟩

/-- No word of a table is found if the text differs from each of them at some place. -/
private theorem findWord_eq_none {table : List (Text × Json)} {t : Text}
    (h : ∀ p ∈ table, ∃ i : Nat, ∃ d ∈ p.1[i]?, d ∉ t[i]?) : findWord table t = none := by
  rw [findWord, List.findSome?_eq_none_iff]
  rintro ⟨word, v⟩ hp
  obtain ⟨i, d, hd, hne⟩ := h _ hp
  rw [Option.map_eq_none_iff, Option.eq_none_iff_forall_ne_some]
  rintro r hr
  rw [List.isPrefixOf?_eq_some_iff_append_eq] at hr
  rw [← hr, List.getElem?_append_left (List.getElem?_eq_some_iff.1 hd).1] at hne
  exact hne hd

private theorem ne_of_isDigit {c d : CodePoint} (hc : c.isDigit = true) (hd : d.isDigit = false) : d ∉ some c := by
  rintro ⟨⟩
  exact Bool.false_ne_true (hd.symm.trans hc)

private theorem findWord_digit {table : List (Text × Json)} (h : ∀ p ∈ table, ∃ d ∈ p.1[0]?, d.isDigit = false)
    {c : CodePoint} (hc : c.isDigit = true) (t : Text) : findWord table (c :: t) = none := by
  refine findWord_eq_none fun p hp => ?_
  obtain ⟨d, hd, hdigit⟩ := h p hp
  exact ⟨0, d, hd, ne_of_isDigit hc hdigit⟩

private theorem findWord_minus_digit {c : CodePoint} (hc : c.isDigit = true) (t : Text) :
    findWord words (.ofChar '-' :: c :: t) = none ∧ findWord nonFiniteWords (.ofChar '-' :: c :: t) = none := by
  constructor
  · refine findWord_eq_none fun p hp => ⟨0, ?_⟩
    rw [List.getElem?_cons_zero]
    revert p
    decide
  · have hhead : ∀ p ∈ nonFiniteWords, (∃ d ∈ p.1[0]?, d ∉ some (CodePoint.ofChar '-')) ∨
        ∃ d ∈ p.1[1]?, d.isDigit = false := by decide
    refine findWord_eq_none fun p hp => ?_
    rcases hhead p hp with h | ⟨d, hd, hdigit⟩
    · exact ⟨0, h⟩
    · exact ⟨1, d, hd, ne_of_isDigit hc hdigit⟩

/-- A text that spells a numeral begins like no word. -/
private theorem findWord_numeral {n : Numeral} {t : Text} (h : n.Spells t) (rest : Text) :
    findWord words (t ++ rest) = none ∧ findWord nonFiniteWords (t ++ rest) = none := by
  obtain ⟨c, s, hc, rfl⟩ := h.exists_head
  cases n.negative with
  | false => exact ⟨findWord_digit (by decide) hc _, findWord_digit (by decide) hc _⟩
  | true => exact findWord_minus_digit hc _

private theorem number_append {limits : Limits} {n : Numeral} {t rest : Text} (h : n.Spells t)
    (hdigits : n.isInteger = true → n.whole.length ≤ limits.digits) (hrest : Numeral.Ends rest) :
    number limits (t ++ rest) =
      .ok (if n.isInteger then .int n.toInt else .float (Binary64.ofDecimal n.toDecimal), rest) := by
  rw [number, Numeral.scan?_append h hrest]
  dsimp only
  split
  · next hint => rw [if_neg (Nat.not_lt.2 (hdigits hint))]
  · rfl

private theorem wordOrNumber_numeral {limits : Limits} {n : Numeral} {t : Text} (h : n.Spells t) (rest : Text) :
    wordOrNumber limits (t ++ rest) = number limits (t ++ rest) := by
  rw [wordOrNumber, (findWord_numeral h rest).1, (findWord_numeral h rest).2]

/-- A text that is read as a word or a number. -/
private def IsPlainHead (t : Text) : Prop :=
  ∃ c s, t = c :: s ∧ c.isJsonBlank = false ∧ c.val ≠ 0x22 ∧ c.val ≠ 0x5B ∧ c.val ≠ 0x5D ∧ c.val ≠ 0x7B ∧
    c.val ≠ 0x7D

private theorem isPlainHead_word {t : Text} {v : Json} (h : (t, v) ∈ words ++ nonFiniteWords) : IsPlainHead t := by
  simp only [words, nonFiniteWords, List.cons_append, List.nil_append, List.mem_cons, Prod.mk.injEq,
    List.not_mem_nil, or_false] at h
  rcases h with ⟨rfl, -⟩ | ⟨rfl, -⟩ | ⟨rfl, -⟩ | ⟨rfl, -⟩ | ⟨rfl, -⟩ | ⟨rfl, -⟩ <;>
    exact ⟨_, _, rfl, by decide, by decide, by decide, by decide, by decide, by decide⟩

private theorem isPlainHead_numeral {n : Numeral} {t : Text} (h : n.Spells t) : IsPlainHead t := by
  obtain ⟨c, s, hc, rfl⟩ := h.exists_head
  rw [CodePoint.isDigit_iff] at hc
  cases n.negative with
  | false =>
    refine ⟨c, s, rfl, ?_, by omega, by omega, by omega, by omega, by omega⟩
    simp only [CodePoint.isJsonBlank, Bool.or_eq_false_iff, beq_eq_false_iff_ne]
    omega
  | true => exact ⟨_, _, rfl, by decide, by decide, by decide, by decide, by decide, by decide⟩

private theorem IsPlainHead.starts {t : Text} (h : IsPlainHead t) : Starts t := by
  obtain ⟨c, s, rfl, hblank, -, -, hbracket, -, hbrace⟩ := h
  exact ⟨c, s, rfl, hblank, hbracket, hbrace⟩

private theorem IsPlainHead.valueWith {t : Text} (h : IsPlainHead t) (limits : Limits)
    (inner : Option (Reader Json)) (rest : Text) :
    valueWith limits inner (t ++ rest) = wordOrNumber limits (t ++ rest) := by
  obtain ⟨c, s, rfl, -, hquote, hbracket, -, hbrace, -⟩ := h
  show (if c.val = 0x22 then _ else if c.val = 0x7B then _ else if c.val = 0x5B then _ else _) = _
  rw [if_neg hquote, if_neg hbrace, if_neg hbracket]

theorem IsScalar.starts {limits : Limits} {t : Text} {v : Json} (h : IsScalar limits t v) : Starts t := by
  cases h with
  | word h => exact (isPlainHead_word (List.mem_append_left _ h)).starts
  | nonFinite _ h => exact (isPlainHead_word (List.mem_append_right _ h)).starts
  | integer h => exact (isPlainHead_numeral h).starts
  | float h => exact (isPlainHead_numeral h).starts
  | string h => exact h.starts

/-- A word, number or string is read at every depth. -/
theorem valueWith_scalar {limits : Limits} {t rest : Text} {v : Json} (h : IsScalar limits t v)
    (inner : Option (Reader Json)) (hrest : Numeral.Ends rest) :
    valueWith limits inner (t ++ rest) = .ok (v, rest) := by
  cases h with
  | word h =>
    rw [(isPlainHead_word (List.mem_append_left _ h)).valueWith, wordOrNumber, findWord_words h]
  | nonFinite hlimits h =>
    obtain ⟨hnone, hsome⟩ := findWord_nonFiniteWords h rest
    rw [(isPlainHead_word (List.mem_append_right _ h)).valueWith, wordOrNumber, hnone, hsome]
    exact if_pos hlimits
  | integer h hint hdigits =>
    rw [(isPlainHead_numeral h).valueWith, wordOrNumber_numeral h, number_append h (fun _ => hdigits) hrest,
      if_pos hint]
  | float h hint =>
    have hnot : ¬_ = true := Bool.eq_false_iff.1 hint
    rw [(isPlainHead_numeral h).valueWith, wordOrNumber_numeral h,
      number_append h (fun h => absurd h hnot) hrest, if_neg hnot]
  | string h =>
    obtain ⟨after, happend, hread⟩ := string_append h rest
    rw [happend]
    show (string _ after).map _ = _
    rw [hread]
    rfl

/-! ### Containers -/

/-- Whatever the relation holds of is read as the value it stands for. -/
structure Accepts (V : Text → Json → Prop) (read : Reader Json) : Prop where
  starts {t : Text} {v : Json} : V t v → Starts t
  reads {t rest : Text} {v : Json} : V t v → Numeral.Ends rest → read (t ++ rest) = .ok (v, rest)

private theorem separator_close {b : Text} {c : CodePoint} (h : IsBlanks b) (hblank : c.isJsonBlank = false)
    (rest : Text) : separator c.val (b ++ c :: rest) = .ok (false, rest) := by
  rw [separator, skipJsonBlanks_append h, Text.skipJsonBlanks,
    List.dropWhile_cons_of_neg (by rw [hblank]; exact Bool.false_ne_true)]
  exact if_pos rfl

private theorem separator_comma {b b' t : Text} (h : IsBlanks b) (h' : IsBlanks b') (ht : Starts t) {close : Nat}
    (hclose : close ≠ 0x2C) : separator close (b ++ .ofChar ',' :: (b' ++ t)) = .ok (true, t) := by
  rw [separator, skipJsonBlanks_append h]
  show (if 0x2C = close then _ else Except.ok (true, Text.skipJsonBlanks (b' ++ t))) = _
  rw [if_neg hclose.symm, skipJsonBlanks_append h', ht.skipJsonBlanks]

variable {V : Text → Json → Prop} {read : Reader Json}

private theorem items_last {t t' rest : Text} {v : Json} (hread : read t = .ok (v, t'))
    (hsep : separator 0x5D t' = .ok (false, rest)) (fuel : Nat) :
    items read (fuel + 1) t = .ok ([v], rest) := by
  rw [items, hread]
  show (separator 0x5D t' >>= _) = _
  rw [hsep]
  rfl

private theorem items_more {t t' t'' : Text} {v : Json} (hread : read t = .ok (v, t'))
    (hsep : separator 0x5D t' = .ok (true, t'')) (fuel : Nat) :
    items read (fuel + 1) t = items read fuel t'' >>= fun r => .ok (v :: r.1, r.2) := by
  rw [items, hread]
  show (separator 0x5D t' >>= _) = _
  rw [hsep]
  rfl

private theorem IsItems.length_le {t : Text} {vs : List Json} (h : IsItems V t vs) : vs.length ≤ t.length := by
  induction h with
  | last =>
    simp only [List.length_append, List.length_cons, List.length_nil]
    omega
  | cons _ _ _ _ ih =>
    simp only [List.length_append, List.length_cons]
    omega

private theorem IsItems.starts (hV : Accepts V read) {t : Text} {vs : List Json} (h : IsItems V t vs) :
    Starts t := by
  cases h with
  | last hv => exact (hV.starts hv).append _
  | cons hv => exact (hV.starts hv).append _

/-- The items of an array are read one after another. -/
theorem items_append (hV : Accepts V read) {t : Text} {vs : List Json} (h : IsItems V t vs) {fuel : Nat}
    (hfuel : vs.length ≤ fuel) (rest : Text) : items read fuel (t ++ rest) = .ok (vs, rest) := by
  induction h generalizing fuel with
  | @last s b v hv hb =>
    obtain ⟨fuel, rfl⟩ := Nat.exists_eq_add_of_le' hfuel
    rw [List.append_assoc, List.append_assoc]
    exact items_last (hV.reads hv (hb.ends_append (ends_cons (by decide) _))) (separator_close hb (by decide) rest)
      fuel
  | @cons s b b' t v vs hv hb hb' hitems ih =>
    obtain ⟨fuel, rfl⟩ := Nat.exists_eq_add_of_le' hfuel
    rw [List.append_assoc, List.append_assoc, List.cons_append, List.append_assoc]
    have hsep := separator_comma hb hb' ((hitems.starts hV).append rest) (show 0x5D ≠ 0x2C by decide)
    rw [List.length_cons, ← Nat.add_assoc,
      items_more (hV.reads hv (hb.ends_append (ends_cons (by decide) _))) hsep, ih (Nat.le_add_left _ _)]
    rfl

private theorem colon_append {b b' t : Text} (h : IsBlanks b) (h' : IsBlanks b') (ht : Starts t) :
    colon ((b ++ .ofChar ':' :: b') ++ t) = .ok t := by
  rw [colon, List.append_assoc, skipJsonBlanks_append h]
  show Except.ok (Text.skipJsonBlanks (b' ++ t)) = _
  rw [skipJsonBlanks_append h', ht.skipJsonBlanks]

private theorem name_append {n name : Text} (h : IsName n name) {t : Text} (ht : Starts t) :
    Json.name (n ++ t) = .ok (name, t) := by
  obtain @⟨s, b, b', name, hs, hb, hb'⟩ := h
  obtain ⟨after, happend, hread⟩ := string_append hs ((b ++ .ofChar ':' :: b') ++ t)
  rw [List.append_assoc, happend]
  show (string _ after >>= _) = _
  rw [hread]
  show (colon _ >>= _) = _
  rw [colon_append hb hb' ht]
  rfl

private theorem IsName.starts {n name : Text} (h : IsName n name) : Starts n := by
  cases h with
  | intro hs => exact hs.starts.append _

private theorem members_last {t t' t'' rest name : Text} {v : Json} (hname : Json.name t = .ok (name, t'))
    (hread : read t' = .ok (v, t'')) (hsep : separator 0x7D t'' = .ok (false, rest)) (fuel : Nat) :
    members read (fuel + 1) t = .ok ([(name, v)], rest) := by
  rw [members, hname]
  show (read t' >>= _) = _
  rw [hread]
  show (separator 0x7D t'' >>= _) = _
  rw [hsep]
  rfl

private theorem members_more {t t' t'' rest name : Text} {v : Json} (hname : Json.name t = .ok (name, t'))
    (hread : read t' = .ok (v, t'')) (hsep : separator 0x7D t'' = .ok (true, rest)) (fuel : Nat) :
    members read (fuel + 1) t = members read fuel rest >>= fun r => .ok ((name, v) :: r.1, r.2) := by
  rw [members, hname]
  show (read t' >>= _) = _
  rw [hread]
  show (separator 0x7D t'' >>= _) = _
  rw [hsep]
  rfl

theorem IsMembers.length_le {t : Text} {pairs : List (Text × Json)} (h : IsMembers V t pairs) :
    pairs.length ≤ t.length := by
  induction h with
  | last =>
    simp only [List.length_append, List.length_cons, List.length_nil]
    omega
  | cons _ _ _ _ _ ih =>
    simp only [List.length_append, List.length_cons]
    omega

theorem IsMembers.starts {t : Text} {pairs : List (Text × Json)} (h : IsMembers V t pairs) :
    Starts t := by
  cases h with
  | last hn => exact hn.starts.append _
  | cons hn => exact hn.starts.append _

/-- The members of an object are read one after another. -/
theorem members_append (hV : Accepts V read) {t : Text} {pairs : List (Text × Json)} (h : IsMembers V t pairs)
    {fuel : Nat} (hfuel : pairs.length ≤ fuel) (rest : Text) :
    members read fuel (t ++ rest) = .ok (pairs, rest) := by
  induction h generalizing fuel with
  | @last n name s b v hn hv hb =>
    obtain ⟨fuel, rfl⟩ := Nat.exists_eq_add_of_le' hfuel
    rw [List.append_assoc, List.append_assoc, List.append_assoc]
    exact members_last (name_append hn ((hV.starts hv).append _))
      (hV.reads hv (hb.ends_append (ends_cons (by decide) _))) (separator_close hb (by decide) rest) fuel
  | @cons n name s b b' t v pairs hn hv hb hb' hmembers ih =>
    obtain ⟨fuel, rfl⟩ := Nat.exists_eq_add_of_le' hfuel
    rw [List.append_assoc, List.append_assoc, List.append_assoc, List.cons_append, List.append_assoc]
    have hsep := separator_comma hb hb' (hmembers.starts.append rest) (show 0x7D ≠ 0x2C by decide)
    rw [List.length_cons, ← Nat.add_assoc,
      members_more (name_append hn ((hV.starts hv).append _))
        (hV.reads hv (hb.ends_append (ends_cons (by decide) _))) hsep, ih (Nat.le_add_left _ _)]
    rfl

theorem skipJsonBlanks_close {b : Text} {c : CodePoint} (h : IsBlanks b) (hc : c.isJsonBlank = false)
    (rest : Text) : Text.skipJsonBlanks ((b ++ [c]) ++ rest) = c :: rest := by
  rw [List.append_assoc, skipJsonBlanks_append h]
  exact List.dropWhile_cons_of_neg (by rw [hc]; exact Bool.false_ne_true)

/-- An array or object is read if the values in it are. -/
theorem valueWith_container (hV : Accepts V read) {limits : Limits} {t : Text} {v : Json}
    (h : IsContainer V t v) (rest : Text) : valueWith limits (some read) (t ++ rest) = .ok (v, rest) := by
  cases h with
  | @emptyArray b hb =>
    show array read ((b ++ [_]) ++ rest) = _
    rw [array, skipJsonBlanks_close hb (by decide)]
    rfl
  | @array b t vs hb hitems =>
    show array read ((b ++ t) ++ rest) = _
    have hstarts := (hitems.starts hV).append rest
    -- every item takes at least its comma or bracket, so the fuel lasts
    have hfuel : vs.length ≤ (t ++ rest).length + 1 := by
      have := hitems.length_le
      rw [List.length_append]
      omega
    rw [array, List.append_assoc, skipJsonBlanks_append hb, hstarts.skipJsonBlanks]
    simp only [hstarts.closes?_bracket, items_append hV hitems hfuel]
    rfl
  | @emptyObject b hb =>
    show object read ((b ++ [_]) ++ rest) = _
    rw [object, skipJsonBlanks_close hb (by decide)]
    rfl
  | @object b t pairs hb hmembers =>
    show object read ((b ++ t) ++ rest) = _
    have hstarts := hmembers.starts.append rest
    have hfuel : pairs.length ≤ (t ++ rest).length + 1 := by
      have := hmembers.length_le
      rw [List.length_append]
      omega
    rw [object, List.append_assoc, skipJsonBlanks_append hb, hstarts.skipJsonBlanks]
    simp only [hstarts.closes?_brace, members_append hV hmembers hfuel]
    rfl

/-! ### Values and documents -/

private theorem IsContainer.starts {t : Text} {v : Json} (h : IsContainer V t v) : Starts t := by
  cases h <;> exact ⟨_, _, rfl, by decide, by decide, by decide⟩

/-- Whatever the grammar says to stand for a value is read as this value. -/
theorem accepts_value (limits : Limits) (depth : Nat) : Accepts (IsValue limits depth) (value limits depth) := by
  induction depth with
  | zero => exact ⟨IsScalar.starts, fun h hrest => valueWith_scalar h none hrest⟩
  | succ depth ih =>
    refine ⟨fun h => h.elim IsScalar.starts IsContainer.starts, ?_⟩
    rintro t rest v (h | h) hrest
    · exact valueWith_scalar h _ hrest
    · exact valueWith_container ih h rest

private theorem skipJsonBlanks_blanks {b : Text} (h : IsBlanks b) : Text.skipJsonBlanks b = [] := by
  rw [← List.append_nil b, skipJsonBlanks_append h]
  rfl

/-- A document of the grammar is read as its value. -/
theorem document_of_isDocument {limits : Limits} {t : Text} {v : Json} (h : IsDocument limits t v) :
    document limits t = .ok v := by
  obtain @⟨b, s, b', v, hb, hv, hb'⟩ := h
  have hV := accepts_value limits limits.depth
  have hends : Numeral.Ends b' := by
    rw [← List.append_nil b']
    exact hb'.ends_append Numeral.ends_nil
  rw [document, skipJsonBlanks_append hb, ((hV.starts hv).append b').skipJsonBlanks, hV.reads hv hends]
  simp only [bind, Except.bind, skipJsonBlanks_blanks hb']

end WireCodec.Json
