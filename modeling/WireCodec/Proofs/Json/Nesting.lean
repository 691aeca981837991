import WireCodec.Proofs.Json.Acceptance

/-!
# Nesting of brackets in a text

How deeply arrays and objects are nested in a text can be told without reading it: a scan from left to right passes
over strings and counts the brackets that are open (`Scan`), and `nesting` is the greatest count.  Words, numbers
and strings leave the count as it is (`Stays`).
-/

namespace WireCodec.Json

/-! ### Scanning -/

/-- Where a place in a text lies, as far as quotes tell. -/
inductive Place
  | outside
  | inside
  /-- Directly after a backslash in a string. -/
  | escaped

/-- What a scan has found so far: where it is, and how many brackets are open. -/
structure Scan where
  place : Place
  opened : Nat

namespace Scan

/-- Passes over one code point. -/
def step (s : Scan) (c : CodePoint) : Scan :=
  match s.place with
  | .outside =>
    if c.val = 0x22 then ⟨.inside, s.opened⟩
    else if c.val = 0x5B ∨ c.val = 0x7B then ⟨.outside, s.opened + 1⟩
    else if c.val = 0x5D ∨ c.val = 0x7D then ⟨.outside, s.opened - 1⟩
    else s
  | .inside =>
    if c.val = 0x22 then ⟨.outside, s.opened⟩
    else if c.val = 0x5C then ⟨.escaped, s.opened⟩
    else s
  | .escaped => ⟨.inside, s.opened⟩

/-- Passes over a text. -/
def run (s : Scan) (t : Text) : Scan := t.foldl step s

/-- The greatest number of brackets that are open at once on the way over a text. -/
def peak : Scan → Text → Nat
  | s, [] => s.opened
  | s, c :: t => max s.opened (peak (s.step c) t)

theorem run_append (s : Scan) (t u : Text) : s.run (t ++ u) = (s.run t).run u := List.foldl_append

theorem opened_le_peak (s : Scan) (t : Text) : s.opened ≤ s.peak t := by
  cases t with
  | nil => exact Nat.le_refl _
  | cons c t => exact Nat.le_max_left _ _

theorem opened_run_le_peak (s : Scan) (t : Text) : (s.run t).opened ≤ s.peak t := by
  induction t generalizing s with
  | nil => exact Nat.le_refl _
  | cons c t ih => exact Nat.le_trans (ih (s.step c)) (Nat.le_max_right _ _)

theorem peak_append (s : Scan) (t u : Text) : s.peak (t ++ u) = max (s.peak t) ((s.run t).peak u) := by
  induction t generalizing s with
  | nil => exact (Nat.max_eq_right (opened_le_peak s u)).symm
  | cons c t ih =>
    rw [List.cons_append, peak, ih, peak, Nat.max_assoc]
    rfl

theorem opened_step_le (s : Scan) (c : CodePoint) : (s.step c).opened ≤ s.opened + 1 := by
  unfold step
  split
  · split
    · exact Nat.le_succ _
    · split
      · exact Nat.le_refl _
      · split
        · exact Nat.le_trans (Nat.sub_le _ _) (Nat.le_succ _)
        · exact Nat.le_succ _
  · split
    · exact Nat.le_succ _
    · split <;> exact Nat.le_succ _
  · exact Nat.le_succ _

theorem peak_le (s : Scan) (t : Text) : s.peak t ≤ s.opened + t.length := by
  induction t generalizing s with
  | nil => exact Nat.le_refl _
  | cons c t ih =>
    have hstep := opened_step_le s c
    have htail := ih (s.step c)
    rw [peak, List.length_cons]
    omega

end Scan

/-- The greatest number of arrays and objects that are open at once in a text. -/
def nesting (t : Text) : Nat := Scan.peak ⟨.outside, 0⟩ t

theorem nesting_le_length (t : Text) : nesting t ≤ t.length := by
  have h := Scan.peak_le ⟨.outside, 0⟩ t
  rwa [Nat.zero_add] at h

/-! ### Texts without brackets -/

/-- A scan over the text leads from one place to another, and opens and closes nothing on the way. -/
def Stays (p q : Place) (t : Text) : Prop := ∀ n, Scan.run ⟨p, n⟩ t = ⟨q, n⟩ ∧ Scan.peak ⟨p, n⟩ t = n

theorem Stays.nil (p : Place) : Stays p p [] := fun _ => ⟨rfl, rfl⟩

theorem Stays.append {p q r : Place} {s t : Text} (hs : Stays p q s) (ht : Stays q r t) : Stays p r (s ++ t) := by
  intro n
  rw [Scan.run_append, Scan.peak_append, (hs n).1, (hs n).2, (ht n).1, (ht n).2, Nat.max_self]
  exact ⟨rfl, rfl⟩

theorem Stays.cons {p q r : Place} {c : CodePoint} {t : Text} (hc : ∀ n, Scan.step ⟨p, n⟩ c = ⟨q, n⟩)
    (ht : Stays q r t) : Stays p r (c :: t) := by
  intro n
  rw [Scan.run, List.foldl_cons, Scan.peak, hc n]
  exact ⟨(ht n).1, by rw [(ht n).2, Nat.max_self]⟩

/-- A code point that is no quote and no bracket. -/
def IsInert (c : CodePoint) : Prop :=
  c.val ≠ 0x22 ∧ c.val ≠ 0x5B ∧ c.val ≠ 0x5D ∧ c.val ≠ 0x7B ∧ c.val ≠ 0x7D

instance (c : CodePoint) : Decidable (IsInert c) := inferInstanceAs (Decidable (_ ∧ _))

theorem stays_of_isInert {t : Text} (h : ∀ c ∈ t, IsInert c) : Stays .outside .outside t := by
  induction t with
  | nil => exact .nil _
  | cons c t ih =>
    obtain ⟨hquote, hc⟩ := h c List.mem_cons_self
    refine .cons (fun n => ?_) (ih fun d hd => h d (List.mem_cons_of_mem _ hd))
    show (if _ then _ else if _ then _ else if _ then _ else _) = _
    rw [if_neg hquote, if_neg (by omega), if_neg (by omega)]

theorem IsBlanks.stays {b : Text} (h : IsBlanks b) : Stays .outside .outside b := by
  refine stays_of_isInert fun c hc => ?_
  have hblank := h c hc
  simp only [CodePoint.isJsonBlank, Bool.or_eq_true, beq_iff_eq] at hblank
  unfold IsInert
  omega

/-- A numeral holds no brackets. -/
theorem stays_of_spells {n : Numeral} {t : Text} (h : n.Spells t) : Stays .outside .outside t := by
  refine stays_of_isInert fun c hc => ?_
  have hval := h.val_of_mem hc
  rw [CodePoint.isDigit_iff] at hval
  unfold IsInert
  omega

/-- A word holds no brackets. -/
theorem stays_of_mem_words {t : Text} {v : Json} (h : (t, v) ∈ words ++ nonFiniteWords) :
    Stays .outside .outside t := by
  simp only [words, nonFiniteWords, List.cons_append, List.nil_append, List.mem_cons, Prod.mk.injEq,
    List.not_mem_nil, or_false] at h
  rcases h with ⟨rfl, -⟩ | ⟨rfl, -⟩ | ⟨rfl, -⟩ | ⟨rfl, -⟩ | ⟨rfl, -⟩ | ⟨rfl, -⟩ <;>
    exact stays_of_isInert (by decide)

/-! ### Strings -/

private theorem stays_inside {c : CodePoint} (hquote : c.val ≠ 0x22) (hescape : c.val ≠ 0x5C) :
    Stays .inside .inside [c] := by
  refine .cons (fun n => ?_) (.nil _)
  show (if _ then _ else if _ then _ else _) = _
  rw [if_neg hquote, if_neg hescape]

private theorem stays_escape (c : CodePoint) : Stays .inside .inside [.ofChar '\\', c] :=
  .cons (fun _ => rfl) (.cons (fun _ => rfl) (.nil _))

private theorem stays_hex {c : CodePoint} {n : Nat} (h : c.hex? = some n) : Stays .inside .inside [c] := by
  have hval : c.val ≠ 0x22 ∧ c.val ≠ 0x5C := by
    unfold CodePoint.hex? at h
    split at h
    · omega
    · split at h
      · omega
      · split at h
        · omega
        · cases h
  exact stays_inside hval.1 hval.2

private theorem stays_code {h₁ h₂ h₃ h₄ c : CodePoint} (h : codePoint? h₁ h₂ h₃ h₄ = some c) :
    Stays .inside .inside [.ofChar '\\', .ofChar 'u', h₁, h₂, h₃, h₄] := by
  unfold codePoint? at h
  split at h
  · next hh₁ hh₂ hh₃ hh₄ =>
    exact (stays_escape _).append ((stays_hex hh₁).append ((stays_hex hh₂).append ((stays_hex hh₃).append
      (stays_hex hh₄))))
  · cases h

/-- The outcomes of reading the inside of a string: the closing quote is found, or there is a fault somewhere before
it. -/
def StringOutcome (opening t : Text) : Except Failure (List (CodePoint × Bool) × Text) → Prop
  | .ok (_, rest) => ∃ s, t = s ++ rest ∧ Stays .inside .outside s
  | .error f => f.fault ≠ .tooDeep ∧ (f.rest = opening ∨ ∃ s q, t = s ++ f.rest ∧ Stays .inside q s)

theorem StringOutcome.cons {opening s t : Text} {u : CodePoint × Bool}
    {o : Except Failure (List (CodePoint × Bool) × Text)} (hs : Stays .inside .inside s)
    (h : StringOutcome opening t o) : StringOutcome opening (s ++ t) (o.map fun r => (u :: r.1, r.2)) := by
  cases o with
  | ok r =>
    obtain ⟨s', rfl, hs'⟩ := h
    exact ⟨s ++ s', (List.append_assoc _ _ _).symm, hs.append hs'⟩
  | error f =>
    refine ⟨h.1, h.2.imp_right ?_⟩
    rintro ⟨s', q, ht, hs'⟩
    exact ⟨s ++ s', q, by rw [ht, List.append_assoc], hs.append hs'⟩

theorem stringOutcome_stringUnits (opening t : Text) :
    StringOutcome opening t (stringUnits opening t) := by
  -- one case for each way the reader goes on or stops; a fault is either at the opening quote or where it stops
  induction t using stringUnits.induct with
  | case1 => exact ⟨by simp, .inl rfl⟩
  | case2 c rest hquote =>
    obtain rfl : c = .ofChar '\x22' := CodePoint.ext hquote
    rw [stringUnits_quote]
    exact ⟨[.ofChar '\x22'], rfl, .cons (fun _ => rfl) (.nil _)⟩
  | case3 c hquote hescape =>
    rw [stringUnits.eq_def]
    dsimp only
    rw [if_neg hquote, if_pos hescape]
    exact ⟨by simp, .inl rfl⟩
  | case4 c _ hescape e hu h₁ h₂ h₃ h₄ next more u hcode ih =>
    obtain rfl : c = .ofChar '\\' := CodePoint.ext hescape
    obtain rfl : e = .ofChar 'u' := CodePoint.ext hu
    rw [stringUnits_code hcode]
    exact ih.cons (stays_code hcode)
  | case5 c hquote hescape e hu h₁ h₂ h₃ h₄ next more hcode =>
    obtain rfl : c = .ofChar '\\' := CodePoint.ext hescape
    rw [stringUnits.eq_def]
    dsimp only
    rw [if_neg hquote, if_pos hescape, if_pos hu]
    simp only [hcode]
    exact ⟨by simp, .inr ⟨[_], .escaped, rfl, .cons (fun _ => rfl) (.nil _)⟩⟩
  | case6 c hquote hescape e after hu hshort =>
    obtain rfl : c = .ofChar '\\' := CodePoint.ext hescape
    rw [stringUnits.eq_def]
    dsimp only
    rw [if_neg hquote, if_pos hescape, if_pos hu]
    split
    · exact absurd rfl (hshort _ _ _ _ _ _)
    · exact ⟨by simp, .inr ⟨[_], .escaped, rfl, .cons (fun _ => rfl) (.nil _)⟩⟩
  | case7 c _ hescape e after _ u hshort ih =>
    obtain rfl : c = .ofChar '\\' := CodePoint.ext hescape
    rw [stringUnits_short hshort]
    exact ih.cons (stays_escape e)
  | case8 c hquote hescape e after hu hshort =>
    rw [stringUnits.eq_def]
    dsimp only
    rw [if_neg hquote, if_pos hescape, if_neg hu]
    simp only [hshort]
    exact ⟨by simp, .inr ⟨[], .inside, rfl, .nil _⟩⟩
  | case9 c rest hquote hescape hcontrol =>
    rw [stringUnits.eq_def]
    dsimp only
    rw [if_neg hquote, if_neg hescape, if_pos hcontrol]
    exact ⟨by simp, .inr ⟨[], .inside, rfl, .nil _⟩⟩
  | case10 c rest hquote hescape hcontrol ih =>
    rw [stringUnits_plain (Nat.not_lt.1 hcontrol) hquote hescape]
    exact ih.cons (stays_inside hquote hescape)

end WireCodec.Json
