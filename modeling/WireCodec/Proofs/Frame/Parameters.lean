import WireCodec.Proofs.Frame.Escape

/-!
# What a frame says of its parameters

The delimiter and the escaped delimiter use one byte.  A delimiter inside a value is written like two delimiters
with nothing between them, so the parameters `["", "", ""]` and `["\x05"]` have one frame
(`not_build_injective`), and a frame determines its parameters only up to `pieces`, which cuts a value at each
U+0005 and puts an empty parameter in its place.  Cut parameters are free of delimiters, and for these the frame
can be taken apart (`layout_injective`).  So two lists have the same frame exactly when they are cut into the same
pieces, and a list is the only one with its frame exactly when it is free of delimiters and of empty parameters
between others (`build_eq_build_iff_pieces`).
-/

namespace WireCodec.Frame

/-! ### The layout of parameters as a text -/

/-- The code point of the delimiter. -/
def delimiter : CodePoint := ⟨0x05, by decide⟩

/-- A text without delimiters. -/
def IsPiece (t : Text) : Prop := delimiter ∉ t

instance (t : Text) : Decidable (IsPiece t) := inferInstanceAs (Decidable (¬_))

theorem enq_notMem_toWire {t : Text} (h : IsPiece t) : enq ∉ Utf8.toWire t := by
  intro hmem
  obtain ⟨c, hc, hval⟩ := Utf8.exists_mem_of_mem_toWire hmem (by decide)
  have hdelimiter : c = delimiter := CodePoint.ext hval
  exact h (hdelimiter ▸ hc)

/-- Parameters as they stand in a frame: a delimiter and the escaped value of each. -/
def layout (ps : List Text) : Text := ps.flatMap fun p => delimiter :: escape p

theorem layout_cons (p : Text) (ps : List Text) : layout (p :: ps) = delimiter :: (escape p ++ layout ps) := rfl

private theorem encode_delimiter : Utf8.encode delimiter = [enq] := rfl

private theorem isScalar_escape {p : Text} (h : p.IsScalar) : (escape p).IsScalar :=
  fun c hc => h c (mem_escape.1 hc)

/-- The bytes of parameters without surrogates are those of their layout. -/
theorem flatMap_parameterBytes {ps : List Text} (h : ∀ p ∈ ps, p.IsScalar) :
    ps.flatMap parameterBytes = Utf8.encodeAll (layout ps) := by
  induction ps with
  | nil => rfl
  | cons p ps ih =>
    have hp := Utf8.toWire_of_isScalar (isScalar_escape (h p List.mem_cons_self))
    rw [List.flatMap_cons, ih fun q hq => h q (List.mem_cons_of_mem _ hq), parameterBytes, hp, layout_cons,
      Utf8.encodeAll_cons, Utf8.encodeAll_append, encode_delimiter]
    rfl

/-- Frames of one command agree when the layouts of the parameters do. -/
theorem build_eq_build_iff_layout (command : Text) {ps qs : List Text} (hps : ∀ p ∈ ps, p.IsScalar)
    (hqs : ∀ q ∈ qs, q.IsScalar) : build command ps = build command qs ↔ layout ps = layout qs := by
  unfold build
  rw [List.append_left_inj, List.append_right_inj, flatMap_parameterBytes hps, flatMap_parameterBytes hqs]
  exact ⟨Utf8.encodeAll_injective, fun h => by rw [h]⟩

/-! ### Parameters without delimiters -/

/-- An escaped piece is told apart from what follows it, if that begins with a delimiter. -/
private theorem escape_append_cancel {p q : Text} (hp : IsPiece p) (hq : IsPiece q) {s t : Text}
    (hs : ∀ c ∈ s.head?, c = delimiter) (ht : ∀ c ∈ t.head?, c = delimiter)
    (h : escape p ++ s = escape q ++ t) : p = q ∧ s = t := by
  induction p generalizing q with
  | nil =>
    cases q with
    | nil => exact ⟨rfl, h⟩
    | cons d q =>
      -- what follows the first piece begins with the delimiter, so the second one would hold it
      have hd : d = delimiter := by
        apply hs
        rw [show s = escape (d :: q) ++ t from h, escape_cons]
        split <;> simp
      exact absurd (hd ▸ List.mem_cons_self) hq
  | cons c p ih =>
    cases q with
    | nil =>
      have hc : c = delimiter := by
        apply ht
        rw [show t = escape (c :: p) ++ s from h.symm, escape_cons]
        split <;> simp
      exact absurd (hc ▸ List.mem_cons_self) hp
    | cons d q =>
      have hcd : c = d := by
        have hhead := congrArg List.head? h
        rw [escape_cons, escape_cons] at hhead
        split at hhead <;> split at hhead <;> simpa using hhead
      subst hcd
      rw [escape_cons, escape_cons, List.append_assoc, List.append_assoc, List.append_right_inj] at h
      have hp' : IsPiece p := fun hm => hp (List.mem_cons_of_mem _ hm)
      have hq' : IsPiece q := fun hm => hq (List.mem_cons_of_mem _ hm)
      obtain ⟨rfl, hst⟩ := ih hp' hq' h
      exact ⟨rfl, hst⟩

private theorem head?_layout (ps : List Text) : ∀ c ∈ (layout ps).head?, c = delimiter := by
  cases ps with
  | nil => intro c hc; cases hc
  | cons p ps => intro c hc; exact (Option.some.inj hc).symm

/-- Parameters without delimiters are determined by their layout. -/
theorem layout_injective {ps qs : List Text} (hps : ∀ p ∈ ps, IsPiece p) (hqs : ∀ q ∈ qs, IsPiece q)
    (h : layout ps = layout qs) : ps = qs := by
  induction ps generalizing qs with
  | nil =>
    cases qs with
    | nil => rfl
    | cons q qs => cases h
  | cons p ps ih =>
    cases qs with
    | nil => cases h
    | cons q qs =>
      rw [layout_cons, layout_cons] at h
      obtain ⟨rfl, hrest⟩ := escape_append_cancel (hps p List.mem_cons_self) (hqs q List.mem_cons_self)
        (head?_layout ps) (head?_layout qs) (List.cons.inj h).2
      rw [ih (fun p hp => hps p (List.mem_cons_of_mem _ hp)) (fun q hq => hqs q (List.mem_cons_of_mem _ hq)) hrest]

/-! ### Cutting parameters into pieces -/

/-- A parameter cut at its delimiters, with an empty parameter in the place of each. -/
def pieces : Text → List Text
  | [] => [[]]
  | c :: p => if c = delimiter then [] :: [] :: pieces p else (pieces p).modifyHead (c :: ·)

private theorem pieces_ne_nil (p : Text) : pieces p ≠ [] := by
  induction p with
  | nil => simp [pieces]
  | cons c p ih =>
    unfold pieces
    split
    · simp
    · simpa using ih

/-- A code point of a piece is one of the parameter, and no delimiter. -/
theorem mem_of_mem_pieces {p q : Text} (hq : q ∈ pieces p) {c : CodePoint} (hc : c ∈ q) :
    c ∈ p ∧ c ≠ delimiter := by
  induction p generalizing q with
  | nil =>
    obtain rfl := List.mem_singleton.1 hq
    exact absurd hc List.not_mem_nil
  | cons d p ih =>
    unfold pieces at hq
    split at hq
    · rcases List.mem_cons.1 hq with rfl | hq
      · exact absurd hc List.not_mem_nil
      · rcases List.mem_cons.1 hq with rfl | hq
        · exact absurd hc List.not_mem_nil
        · exact (ih hq hc).imp_left (List.mem_cons_of_mem _)
    · rename_i hd
      obtain ⟨a, as, ha⟩ := List.exists_cons_of_ne_nil (pieces_ne_nil p)
      rw [ha, List.modifyHead_cons] at hq
      rcases List.mem_cons.1 hq with rfl | hq
      · rcases List.mem_cons.1 hc with rfl | hc
        · exact ⟨List.mem_cons_self, hd⟩
        · exact (ih (ha ▸ List.mem_cons_self) hc).imp_left (List.mem_cons_of_mem _)
      · exact (ih (ha ▸ List.mem_cons_of_mem _ hq) hc).imp_left (List.mem_cons_of_mem _)

theorem isPiece_of_mem_pieces {p q : Text} (hq : q ∈ pieces p) : IsPiece q :=
  fun hc => (mem_of_mem_pieces hq hc).2 rfl

/-- Cutting a parameter does not change its layout. -/
theorem layout_pieces (p : Text) : layout (pieces p) = delimiter :: escape p := by
  induction p with
  | nil => rfl
  | cons c p ih =>
    unfold pieces
    split
    · rename_i hc
      rw [layout_cons, layout_cons, ih, hc, escape_cons]
      rfl
    · obtain ⟨a, as, ha⟩ := List.exists_cons_of_ne_nil (pieces_ne_nil p)
      rw [ha, layout_cons] at ih
      rw [ha, List.modifyHead_cons, layout_cons, escape_cons, escape_cons, List.append_assoc,
        (List.cons.inj ih).2]

theorem layout_append (ps qs : List Text) : layout (ps ++ qs) = layout ps ++ layout qs := List.flatMap_append

theorem layout_flatMap_pieces (ps : List Text) : layout (ps.flatMap pieces) = layout ps := by
  induction ps with
  | nil => rfl
  | cons p ps ih =>
    rw [List.flatMap_cons, layout_append, layout_pieces, ih]
    rfl

/-- A parameter without delimiters is not cut. -/
theorem pieces_of_isPiece {p : Text} (h : IsPiece p) : pieces p = [p] := by
  induction p with
  | nil => rfl
  | cons c p ih =>
    have hc : c ≠ delimiter := fun hc => h (hc ▸ List.mem_cons_self)
    rw [pieces, if_neg hc, ih fun hm => h (List.mem_cons_of_mem _ hm), List.modifyHead_cons]

theorem flatMap_pieces_of_isPiece {ps : List Text} (h : ∀ p ∈ ps, IsPiece p) : ps.flatMap pieces = ps := by
  induction ps with
  | nil => rfl
  | cons p ps ih =>
    rw [List.flatMap_cons, pieces_of_isPiece (h p List.mem_cons_self),
      ih fun q hq => h q (List.mem_cons_of_mem _ hq)]
    rfl

theorem isPiece_of_mem_flatMap_pieces {ps : List Text} : ∀ q ∈ ps.flatMap pieces, IsPiece q := by
  intro q hq
  obtain ⟨p, -, hqp⟩ := List.mem_flatMap.1 hq
  exact isPiece_of_mem_pieces hqp

/-- Layouts agree exactly when the parameters are cut into the same pieces. -/
theorem layout_eq_layout_iff {ps qs : List Text} :
    layout ps = layout qs ↔ ps.flatMap pieces = qs.flatMap pieces := by
  constructor
  · intro h
    apply layout_injective isPiece_of_mem_flatMap_pieces isPiece_of_mem_flatMap_pieces
    rw [layout_flatMap_pieces, layout_flatMap_pieces, h]
  · intro h
    rw [← layout_flatMap_pieces ps, h, layout_flatMap_pieces]

/-- A value with a delimiter is cut there, with an empty piece between the two parts. -/
theorem pieces_append_delimiter (a b : Text) :
    pieces (a ++ delimiter :: b) = pieces a ++ [] :: pieces b := by
  induction a with
  | nil =>
    exact if_pos rfl
  | cons c a ih =>
    rw [List.cons_append, pieces, pieces, ih]
    split
    · rfl
    · obtain ⟨d, ds, hd⟩ := List.exists_cons_of_ne_nil (pieces_ne_nil a)
      rw [hd]
      rfl

/-! ### Frames with several readings -/

/-- Parameters that are free of delimiters, and not empty but for the first and the last one. -/
def IsClear (ps : List Text) : Prop := (∀ p ∈ ps, IsPiece p) ∧ [] ∉ ps.tail.dropLast

instance (ps : List Text) : Decidable (IsClear ps) := inferInstanceAs (Decidable (_ ∧ _))

private theorem isScalar_flatMap_pieces {ps : List Text} (h : ∀ p ∈ ps, Text.IsScalar p) :
    ∀ q ∈ ps.flatMap pieces, Text.IsScalar q := by
  intro q hq c hc
  obtain ⟨p, hp, hqp⟩ := List.mem_flatMap.1 hq
  exact h p hp c (mem_of_mem_pieces hqp hc).1

private theorem nil_mem_tail_dropLast {l r : List Text} (hl : l ≠ []) (hr : r ≠ []) :
    ([] : Text) ∈ (l ++ [] :: r).tail.dropLast := by
  obtain ⟨a, l, rfl⟩ := List.exists_cons_of_ne_nil hl
  show [] ∈ (l ++ [] :: r).dropLast
  rw [List.dropLast_append_of_ne_nil (List.cons_ne_nil _ _), List.dropLast_cons_of_ne_nil hr]
  simp

private theorem exists_of_nil_mem_tail_dropLast {ps : List Text} (h : [] ∈ ps.tail.dropLast) :
    ∃ l a b r, ps = l ++ a :: [] :: b :: r := by
  cases ps with
  | nil => cases h
  | cons p ps =>
    rcases List.eq_nil_or_concat ps with rfl | ⟨init, last, rfl⟩
    · cases h
    · rw [List.tail_cons, List.concat_eq_append, List.dropLast_concat] at h
      obtain ⟨s, t, rfl⟩ := List.append_of_mem h
      rcases List.eq_nil_or_concat (p :: s) with hnil | ⟨l, a, hla⟩
      · cases hnil
      · obtain ⟨b, r, hbr⟩ := List.exists_cons_of_ne_nil
          (List.append_ne_nil_of_right_ne_nil t (List.cons_ne_nil last []))
        refine ⟨l, a, b, r, ?_⟩
        rw [List.concat_eq_append, List.append_assoc, List.cons_append, hbr, ← List.cons_append, hla]
        simp

/-- A list with a delimiter in a value, or an empty parameter between others, shares its frame. -/
private theorem exists_ne_of_not_isClear {ps : List Text} (hps : ∀ p ∈ ps, p.IsScalar) (h : ¬IsClear ps) :
    ∃ qs : List Text, (∀ q ∈ qs, q.IsScalar) ∧ layout qs = layout ps ∧ qs ≠ ps := by
  by_cases hpiece : ∀ p ∈ ps, IsPiece p
  · have hnil : [] ∈ ps.tail.dropLast := by
      by_contra hnil
      exact h ⟨hpiece, hnil⟩
    obtain ⟨l, a, b, r, rfl⟩ := exists_of_nil_mem_tail_dropLast hnil
    -- an empty parameter between `a` and `b` is written like a delimiter in one value
    refine ⟨l ++ (a ++ delimiter :: b) :: r, ?_, ?_, ?_⟩
    · intro q hq
      rcases List.mem_append.1 hq with hq | hq
      · exact hps q (by simp [hq])
      · rcases List.mem_cons.1 hq with rfl | hq
        · intro c hc
          rcases List.mem_append.1 hc with hc | hc
          · exact hps a (by simp) c hc
          · rcases List.mem_cons.1 hc with rfl | hc
            · decide
            · exact hps b (by simp) c hc
        · exact hps q (by simp [hq])
    · have ha := pieces_of_isPiece (hpiece a (by simp))
      have hb := pieces_of_isPiece (hpiece b (by simp))
      rw [layout_eq_layout_iff, List.flatMap_append, List.flatMap_append, List.flatMap_cons,
        pieces_append_delimiter, ha, hb]
      simp [List.flatMap_cons, ha, hb, pieces]
    · intro heq
      have hmem : a ++ delimiter :: b ∈ l ++ a :: [] :: b :: r := by rw [← heq]; simp
      exact hpiece _ hmem (by simp)
  · -- a value with a delimiter is written like its pieces
    refine ⟨ps.flatMap pieces, isScalar_flatMap_pieces hps, layout_flatMap_pieces ps, ?_⟩
    intro heq
    apply hpiece
    rw [← heq]
    exact isPiece_of_mem_flatMap_pieces

/-- A list that is cut into clear parameters is these parameters. -/
private theorem eq_of_flatMap_pieces_eq {ps qs : List Text} (hps : IsClear ps) (h : qs.flatMap pieces = ps) :
    qs = ps := by
  have hqs : ∀ q ∈ qs, IsPiece q := by
    intro q hq hmem
    -- a delimiter in a value leaves an empty piece with others on both sides
    obtain ⟨s, t, rfl⟩ := List.append_of_mem hq
    obtain ⟨a, b, rfl⟩ := List.append_of_mem hmem
    apply hps.2
    rw [← h, List.flatMap_append, List.flatMap_cons, pieces_append_delimiter, List.append_assoc,
      ← List.append_assoc]
    exact nil_mem_tail_dropLast (List.append_ne_nil_of_right_ne_nil _ (pieces_ne_nil a))
      (List.append_ne_nil_of_left_ne_nil (pieces_ne_nil b) _)
  rw [← h, flatMap_pieces_of_isPiece hqs]

/-- Two parameter lists have the same frame exactly when they are cut into the same pieces; so parameters without
delimiters are determined by the frame, and a list is the only one with its frame exactly when it is clear. -/
theorem build_eq_build_iff_pieces (command : Text) {ps qs : List Text} (hps : ∀ p ∈ ps, p.IsScalar)
    (hqs : ∀ q ∈ qs, q.IsScalar) :
    (build command ps = build command qs ↔ ps.flatMap pieces = qs.flatMap pieces) ∧
      ((∀ p ∈ ps, delimiter ∉ p) → (∀ q ∈ qs, delimiter ∉ q) → build command ps = build command qs →
        ps = qs) ∧
      ((∀ rs : List Text, (∀ r ∈ rs, r.IsScalar) → build command rs = build command ps → rs = ps) ↔
        IsClear ps) := by
  refine ⟨?_, ?_, ?_, ?_⟩
  · rw [build_eq_build_iff_layout command hps hqs, layout_eq_layout_iff]
  · intro hp hq h
    exact layout_injective hp hq ((build_eq_build_iff_layout command hps hqs).1 h)
  · intro huniq
    by_contra hclear
    obtain ⟨rs, hrs, hlayout, hne⟩ := exists_ne_of_not_isClear hps hclear
    exact hne (huniq rs hrs ((build_eq_build_iff_layout command hrs hps).2 hlayout))
  · intro hclear rs hrs h
    have hlayout := (build_eq_build_iff_layout command hrs hps).1 h
    rw [layout_eq_layout_iff, flatMap_pieces_of_isPiece hclear.1] at hlayout
    exact eq_of_flatMap_pieces_eq hclear hlayout

/-- Empty parameters at both ends, and an EOT in a value, leave the frame readable in one way only; it is not the
frame of a list with a delimiter in a value. -/
theorem build_clear_unique :
    (∀ p ∈ [Text.ofString "", Text.ofString "x\x04é", Text.ofString ""], p.IsScalar) ∧
      (∀ q ∈ [[delimiter], Text.ofString "x\x04é", Text.ofString ""], Text.IsScalar q) ∧
      build (Text.ofString "CMD") [Text.ofString "", Text.ofString "x\x04é", Text.ofString ""] ≠
        build (Text.ofString "CMD") [[delimiter], Text.ofString "x\x04é", Text.ofString ""] ∧
      ∀ rs : List Text, (∀ r ∈ rs, r.IsScalar) →
        build (Text.ofString "CMD") rs =
          build (Text.ofString "CMD") [Text.ofString "", Text.ofString "x\x04é", Text.ofString ""] →
        rs = [Text.ofString "", Text.ofString "x\x04é", Text.ofString ""] := by
  obtain ⟨hpieces, -, hunique⟩ := @build_eq_build_iff_pieces (Text.ofString "CMD")
    [Text.ofString "", Text.ofString "x\x04é", Text.ofString ""]
    [[delimiter], Text.ofString "x\x04é", Text.ofString ""] (by decide) (by decide)
  exact ⟨by decide, by decide, fun h => absurd (hpieces.1 h) (by decide), hunique.2 (by decide)⟩

/-- A frame does not determine its parameters: three empty parameters and one delimiter are written alike. -/
theorem not_build_injective :
    ¬∀ (command : Text) (ps qs : List Text), (∀ c ∈ command, ¬IsReserved c) → (∀ p ∈ ps, p.IsScalar) →
      (∀ q ∈ qs, q.IsScalar) → build command ps = build command qs → ps = qs := by
  intro h
  have hsame := h (Text.ofString "CMD") [[], [], []] [[delimiter]] (by decide) (by decide) (by decide) (by decide)
  exact absurd hsame (by decide)

end WireCodec.Frame
