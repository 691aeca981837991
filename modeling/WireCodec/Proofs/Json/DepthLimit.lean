import WireCodec.Proofs.Json.Bounded

/-!
# What the limit of the depth does

A text is refused as nested too deeply exactly if more arrays and objects are open at once than the limit allows, in
the part of the text before the first fault of another kind (`read_tooDeep_iff`).  In every other case the limit
does not matter: the outcome is the one of reading without a limit (`read_of_nesting_le`).
-/

namespace WireCodec.Json

/-! ### Documents -/

private theorem value_withDepth (limits : Limits) (n depth : Nat) :
    value { limits with depth := n } depth = value limits depth := by
  induction depth with
  | zero => rfl
  | succ depth ih =>
    funext t
    rw [value, value, ih]
    rfl

/-- Reading a document, as a reading of the whole text. -/
private def documentReading (limits : Limits) (t : Text) (limit level : Nat) : Except Failure (Json × Text) :=
  value limits (limit - level) (Text.skipJsonBlanks t) >>= fun r =>
    match Text.skipJsonBlanks r.2 with
    | [] => .ok (r.1, [])
    | extra => .error ⟨.extraData, extra⟩

private theorem document_withDepth (limits : Limits) (limit : Nat) (t : Text) :
    document { limits with depth := limit } t = (documentReading limits t limit 0).map Prod.fst := by
  unfold document documentReading
  rw [value_withDepth]
  show value limits limit _ >>= _ = (value limits limit _ >>= _).map _
  cases value limits limit (Text.skipJsonBlanks t) with
  | error f => rfl
  | ok r =>
    obtain ⟨v, rest⟩ := r
    dsimp only [bind, Except.bind]
    cases Text.skipJsonBlanks rest <;> rfl

private theorem isBounded_documentReading (limits : Limits) (t : Text) :
    IsBounded (documentReading limits t) sameLevel t := by
  apply IsBounded.of_skipJsonBlanks
  refine (isBounded_value limits (Text.skipJsonBlanks t)).bind (g := fun _ => sameLevel) (K := fun v rest _ _ =>
    match Text.skipJsonBlanks rest with
    | [] => .ok (v, [])
    | extra => .error ⟨.extraData, extra⟩) (fun v rest _ => ?_) fun _ _ _ => rfl
  apply IsBounded.of_skipJsonBlanks
  cases Text.skipJsonBlanks rest with
  | nil => exact .ok (s := []) (.nil _) v
  | cons c extra => exact .fault (by simp) _

/-- A document is read to its end. -/
private theorem rest_of_documentReading {limits : Limits} {t rest : Text} {limit level : Nat} {v : Json}
    (h : documentReading limits t limit level = .ok (v, rest)) : rest = [] := by
  unfold documentReading at h
  cases hvalue : value limits (limit - level) (Text.skipJsonBlanks t) with
  | error f =>
    rw [hvalue] at h
    cases h
  | ok r =>
    rw [hvalue] at h
    change (match Text.skipJsonBlanks r.2 with | [] => _ | extra => _) = _ at h
    split at h
    · exact (Prod.mk.inj (Except.ok.inj h)).2.symm
    · cases h

/-- The outcome of reading a document without a limit of the depth, the part of the text before its fault, and what
becomes of it under a limit. -/
private theorem exists_outcome (limits : Limits) (t : Text) : ∃ s o, (∀ v, o = .ok v → s = t) ∧
    (∀ f, o = .error f → t = s ++ f.rest ∧ f.fault ≠ .tooDeep) ∧
    ∀ limit, (nesting s ≤ limit → document { limits with depth := limit } t = o) ∧
      (limit < nesting s → ∃ rest, document { limits with depth := limit } t = .error ⟨.tooDeep, rest⟩) := by
  obtain ⟨s, o, htakes, hread⟩ := isBounded_documentReading limits t
  refine ⟨s, o.map Prod.fst, fun v hv => ?_, fun f hf => ?_, fun limit => ⟨fun h => ?_, fun h => ?_⟩⟩
  · cases o with
    | error f => cases hv
    | ok r =>
      obtain ⟨v', rest⟩ := r
      have hok := (hread (nesting s) 0 (Nat.zero_le _)).1 (Nat.le_refl _)
      rw [htakes.1, rest_of_documentReading hok, List.append_nil]
  · cases o with
    | error f' =>
      obtain rfl := Except.error.inj hf
      exact htakes
    | ok r => cases hf
  · rw [document_withDepth, (hread limit 0 (Nat.zero_le _)).1 h]
  · obtain ⟨rest, hrest⟩ := (hread limit 0 (Nat.zero_le _)).2 h
    exact ⟨rest, by rw [document_withDepth, hrest]; rfl⟩

/-! ### Texts -/

/-- The part of a text before the first fault that is found without a limit of the depth; all of it if there is
none.  A text opens at most as many brackets as it has code points. -/
def readablePart (limits : Limits) (t : Text) : Text :=
  match read { limits with depth := t.length } t with
  | .ok _ => t
  | .error e => t.take e.position.offset

private theorem read_of_mark {t : Text} (h : startsWithMark t = true) (limits : Limits) :
    read limits t = .error (Failure.locate t ⟨.byteOrderMark, t⟩) := if_pos h

theorem read_of_no_mark {t : Text} (h : ¬startsWithMark t = true) (limits : Limits) :
    read limits t = (document limits t).mapError (Failure.locate t) := if_neg h

/-- The place of a fault is the number of code points before it. -/
private theorem take_offset_locate {s t : Text} {f : Failure} (h : t = s ++ f.rest) :
    t.take (f.locate t).position.offset = s := by
  show t.take (t.take (t.length - f.rest.length)).length = s
  have hlength : t.length - f.rest.length = s.length := by
    rw [h, List.length_append, Nat.add_sub_cancel]
  rw [hlength, List.length_take, Nat.min_eq_left (by omega), h, List.take_left]

/-- What the limit of the depth does to reading a text: nothing, as long as the brackets in the part that can be read
are within it, and otherwise the text is refused for this reason. -/
private theorem read_cases (limits : Limits) (t : Text) :
    (nesting (readablePart limits t) ≤ limits.depth ∧
      read limits t = read { limits with depth := t.length } t ∧
      ∀ e, read limits t = .error e → e.fault ≠ .tooDeep) ∨
    (limits.depth < nesting (readablePart limits t) ∧ ∃ e, read limits t = .error e ∧ e.fault = .tooDeep) := by
  by_cases hmark : startsWithMark t = true
  · -- a mark is refused before anything is read
    have hpart : readablePart limits t = [] := by
      rw [readablePart, read_of_mark hmark]
      exact take_offset_locate (s := []) (f := ⟨.byteOrderMark, t⟩) rfl
    rw [hpart, read_of_mark hmark, read_of_mark hmark]
    refine .inl ⟨Nat.zero_le _, rfl, fun e he => ?_⟩
    obtain rfl := Except.error.inj he
    simp [Failure.locate]
  · obtain ⟨s, o, hok, herror, hlimit⟩ := exists_outcome limits t
    -- the length of the text is as good as no limit
    have hlong : document { limits with depth := t.length } t = o := by
      refine (hlimit t.length).1 (Nat.le_trans (nesting_le_length s) ?_)
      cases o with
      | ok v => exact Nat.le_of_eq (by rw [hok v rfl])
      | error f =>
        rw [(herror f rfl).1, List.length_append]
        exact Nat.le_add_right _ _
    have hpart : readablePart limits t = s := by
      rw [readablePart, read_of_no_mark hmark, hlong]
      cases o with
      | ok v => exact (hok v rfl).symm
      | error f => exact take_offset_locate (herror f rfl).1
    have hdepth := hlimit limits.depth
    rw [hpart, read_of_no_mark hmark, read_of_no_mark hmark, hlong]
    by_cases h : nesting s ≤ limits.depth
    · have hdocument : document limits t = o := hdepth.1 h
      refine .inl ⟨h, by rw [hdocument], fun e he => ?_⟩
      rw [hdocument] at he
      cases o with
      | ok v => cases he
      | error f =>
        obtain rfl := Except.error.inj he
        exact (herror f rfl).2
    · obtain ⟨rest, hrest⟩ := hdepth.2 (Nat.lt_of_not_le h)
      have hdocument : document limits t = .error ⟨.tooDeep, rest⟩ := hrest
      exact .inr ⟨Nat.lt_of_not_le h, _, by rw [hdocument]; rfl, rfl⟩

/-- A text is refused for its depth exactly if more brackets than the limit are open at once in the part of it that
can be read. -/
theorem read_tooDeep_iff (limits : Limits) (t : Text) :
    (∃ e, read limits t = .error e ∧ e.fault = .tooDeep) ↔ limits.depth < nesting (readablePart limits t) := by
  rcases read_cases limits t with ⟨hle, -, hfault⟩ | ⟨hlt, htooDeep⟩
  · exact ⟨fun ⟨e, he, hdeep⟩ => absurd hdeep (hfault e he), fun hlt => absurd hle (Nat.not_le.2 hlt)⟩
  · exact ⟨fun _ => hlt, fun _ => htooDeep⟩

/-- A text within the limit of the depth is read as without the limit. -/
theorem read_of_nesting_le {limits : Limits} {t : Text} (h : nesting (readablePart limits t) ≤ limits.depth) :
    read limits t = read { limits with depth := t.length } t := by
  rcases read_cases limits t with ⟨-, hread, -⟩ | ⟨hlt, -⟩
  · exact hread
  · exact absurd h (Nat.not_le.2 hlt)

/-- What can be read of a text is nested no deeper than the text. -/
theorem nesting_readablePart_le (limits : Limits) (t : Text) : nesting (readablePart limits t) ≤ nesting t := by
  unfold readablePart
  split
  · exact Nat.le_refl _
  · next e _ =>
    have hsplit := Scan.peak_append ⟨.outside, 0⟩ (t.take e.position.offset) (t.drop e.position.offset)
    rw [List.take_append_drop] at hsplit
    have hle := Nat.le_max_left (nesting (t.take e.position.offset))
      ((Scan.run ⟨.outside, 0⟩ (t.take e.position.offset)).peak (t.drop e.position.offset))
    exact Nat.le_trans hle (Nat.le_of_eq hsplit.symm)

/-- A text that is read under some limit of the depth is nested no deeper than this limit. -/
theorem nesting_le_of_read {limits : Limits} {t : Text} {v : Json} (h : read limits t = .ok v) :
    nesting t ≤ limits.depth := by
  rcases read_cases limits t with ⟨hle, hread, -⟩ | ⟨-, e, he, -⟩
  · have hpart : readablePart limits t = t := by
      rw [readablePart, ← hread, h]
    rwa [hpart] at hle
  · rw [h] at he
    cases he

/-- A text that is read under one limit of the depth is read alike under any other that it is within. -/
theorem read_of_read_withDepth {limits : Limits} {depth : Nat} {t : Text} {v : Json}
    (h : nesting (readablePart limits t) ≤ limits.depth) (hread : read { limits with depth := depth } t = .ok v) :
    read limits t = .ok v := by
  have hpart : readablePart { limits with depth := depth } t = readablePart limits t := rfl
  have hdepth : nesting (readablePart limits t) ≤ depth := by
    have hle := nesting_le_of_read hread
    have hpartle := nesting_readablePart_le limits t
    exact Nat.le_trans hpartle hle
  -- under either limit the text is read as without one
  have hlong : read { limits with depth := depth } t = read { limits with depth := t.length } t :=
    read_of_nesting_le (hpart ▸ hdepth)
  rw [read_of_nesting_le h, ← hlong, hread]

private theorem starts_brackets (n : Nat) (t : Text) : Starts (List.replicate (n + 1) (.ofChar '[') ++ t) :=
  ⟨_, _, rfl, by decide, by decide, by decide⟩

private theorem value_brackets (limits : Limits) (depth : Nat) (t : Text) :
    ∃ rest, value limits depth (List.replicate (depth + 1) (.ofChar '[') ++ t) = .error ⟨.tooDeep, rest⟩ := by
  induction depth with
  | zero => exact ⟨_, rfl⟩
  | succ depth ih =>
    obtain ⟨rest, hrest⟩ := ih
    refine ⟨rest, ?_⟩
    show array (value limits depth) (List.replicate (depth + 1) (.ofChar '[') ++ t) = _
    rw [array, (starts_brackets depth t).skipJsonBlanks]
    dsimp only
    rw [(starts_brackets depth t).closes?_bracket]
    dsimp only
    rw [items, hrest]
    rfl

/-- A text that begins with one opening bracket more than the limit is nested too deeply, whatever follows. -/
theorem read_brackets (limits : Limits) (t : Text) :
    ∃ e, read limits (List.replicate (limits.depth + 1) (.ofChar '[') ++ t) = .error e ∧ e.fault = .tooDeep := by
  obtain ⟨rest, hrest⟩ := value_brackets limits limits.depth t
  refine ⟨Failure.locate (List.replicate (limits.depth + 1) (.ofChar '[') ++ t) ⟨.tooDeep, rest⟩, ?_, rfl⟩
  rw [read, if_neg (by simp [List.replicate_succ, startsWithMark, CodePoint.ofChar]), document,
    (starts_brackets limits.depth t).skipJsonBlanks, hrest]
  rfl

end WireCodec.Json
