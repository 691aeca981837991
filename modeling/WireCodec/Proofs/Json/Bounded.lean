import WireCodec.Proofs.Json.Nesting
import WireCodec.Proofs.Json.Soundness

/-!
# Bounded readings

Readings under a limit of the depth have one property in common, `IsBounded`: there is one outcome, and it comes
about as long as the brackets that are open on the way to it stay within the limit.  Every reader inherits this from
its parts, so that reading a value has it (`isBounded_value`).
-/

namespace WireCodec.Json

variable {α β : Type}

/-! ### Bounded readings -/

/-- The outcome of reading a text, and the part of the text up to its end or its fault.  After what is read, the
number of open brackets is the given function of the number before it. -/
def Takes (exit : α → Nat → Nat) (t s : Text) : Except Failure (α × Text) → Prop
  | .ok (x, rest) => t = s ++ rest ∧ ∀ n, Scan.run ⟨.outside, n⟩ s = ⟨.outside, exit x n⟩
  | .error f => t = s ++ f.rest ∧ f.fault ≠ .tooDeep

/-- A reading of a text, by the limit of the depth and the number of brackets that are open before it: there is one
outcome, which comes about if the brackets stay within the limit, and otherwise the text is nested too deeply. -/
def IsBounded (reading : (limit level : Nat) → Except Failure (α × Text)) (exit : α → Nat → Nat) (t : Text) : Prop :=
  ∃ s o, Takes exit t s o ∧ ∀ limit level, level ≤ limit →
    (Scan.peak ⟨.outside, level⟩ s ≤ limit → reading limit level = o) ∧
    (limit < Scan.peak ⟨.outside, level⟩ s → ∃ rest, reading limit level = .error ⟨.tooDeep, rest⟩)

/-- Whatever is read closes all brackets that it opens. -/
def sameLevel (_ : α) (n : Nat) : Nat := n

/-- Whatever is read ends with the closing bracket of a container. -/
def outerLevel (_ : α) (n : Nat) : Nat := n - 1

/-- A reading that opens no bracket does not depend on the limit. -/
theorem IsBounded.const {o : Except Failure (α × Text)} {exit : α → Nat → Nat} {t s : Text}
    (h : Takes exit t s o) (hpeak : ∀ n, Scan.peak ⟨.outside, n⟩ s = n) : IsBounded (fun _ _ => o) exit t := by
  refine ⟨s, o, h, fun limit level hle => ⟨fun _ => rfl, fun hlt => ?_⟩⟩
  rw [hpeak] at hlt
  exact absurd hlt (Nat.not_lt.2 hle)

theorem IsBounded.ok {s rest : Text} (h : Stays .outside .outside s) (x : α) :
    IsBounded (fun _ _ => .ok (x, rest)) sameLevel (s ++ rest) :=
  .const ⟨rfl, fun n => (h n).1⟩ fun n => (h n).2

theorem IsBounded.error {q : Place} {s rest : Text} (h : Stays .outside q s) {fault : Fault}
    (hfault : fault ≠ .tooDeep) (exit : α → Nat → Nat) :
    IsBounded (fun _ _ => .error ⟨fault, rest⟩) exit (s ++ rest) :=
  .const ⟨rfl, hfault⟩ fun n => (h n).2

/-- A fault at the very place where reading begins. -/
theorem IsBounded.fault {t : Text} {fault : Fault} (hfault : fault ≠ .tooDeep) (exit : α → Nat → Nat) :
    IsBounded (fun _ _ => .error ⟨fault, t⟩) exit t :=
  .error (s := []) (.nil _) hfault exit

theorem IsBounded.congr {O O' : Nat → Nat → Except Failure (α × Text)} {exit : α → Nat → Nat} {t : Text}
    (h : IsBounded O exit t) (hO : ∀ limit level, level ≤ limit → O' limit level = O limit level) :
    IsBounded O' exit t := by
  obtain ⟨s, o, htakes, hread⟩ := h
  refine ⟨s, o, htakes, fun limit level hle => ?_⟩
  rw [hO limit level hle]
  exact hread limit level hle

theorem IsBounded.prepend {O : Nat → Nat → Except Failure (α × Text)} {exit : α → Nat → Nat} {s t : Text}
    (hs : Stays .outside .outside s) (h : IsBounded O exit t) : IsBounded O exit (s ++ t) := by
  obtain ⟨s', o, htakes, hread⟩ := h
  refine ⟨s ++ s', o, ?_, fun limit level hle => ?_⟩
  · cases o with
    | ok r =>
      refine ⟨by rw [htakes.1, List.append_assoc], fun n => ?_⟩
      rw [Scan.run_append, (hs n).1, htakes.2]
    | error f => exact ⟨by rw [htakes.1, List.append_assoc], htakes.2⟩
  · have hopened := Scan.opened_le_peak ⟨.outside, level⟩ s'
    rw [Scan.peak_append, (hs level).1, (hs level).2, Nat.max_eq_right hopened]
    exact hread limit level hle

/-- A reading after another one. -/
theorem IsBounded.bind {O : Nat → Nat → Except Failure (α × Text)}
    {K : α → Text → Nat → Nat → Except Failure (β × Text)} {e : α → Nat → Nat} {g : α → β → Nat → Nat}
    {exit : β → Nat → Nat} {t : Text} (h : IsBounded O e t)
    (hK : ∀ x rest, rest.length ≤ t.length → IsBounded (K x rest) (g x) rest)
    (hexit : ∀ x y n, g x y (e x n) = exit y n) :
    IsBounded (fun limit level => O limit level >>= fun r => K r.1 r.2 limit (e r.1 level)) exit t := by
  obtain ⟨s, o, htakes, hread⟩ := h
  cases o with
  | error f =>
    refine ⟨s, .error f, htakes, fun limit level hle => ⟨fun hpeak => ?_, fun hpeak => ?_⟩⟩
    · dsimp only
      rw [(hread limit level hle).1 hpeak]
      rfl
    · obtain ⟨rest, hrest⟩ := (hread limit level hle).2 hpeak
      refine ⟨rest, ?_⟩
      dsimp only
      rw [hrest]
      rfl
  | ok r =>
    obtain ⟨x, rest⟩ := r
    obtain ⟨rfl, hrun⟩ := htakes
    obtain ⟨s', o', htakes', hread'⟩ := hK x rest (by rw [List.length_append]; exact Nat.le_add_left _ _)
    refine ⟨s ++ s', o', ?_, fun limit level hle => ?_⟩
    · cases o' with
      | ok r' =>
        refine ⟨by rw [htakes'.1, List.append_assoc], fun n => ?_⟩
        rw [Scan.run_append, hrun, htakes'.2, hexit]
      | error f => exact ⟨by rw [htakes'.1, List.append_assoc], htakes'.2⟩
    · -- the brackets of the second part are counted from where the first part has left the count
      have hend := Scan.opened_run_le_peak ⟨.outside, level⟩ s
      rw [hrun] at hend
      rw [Scan.peak_append, hrun]
      dsimp only at hend ⊢
      refine ⟨fun hpeak => ?_, fun hpeak => ?_⟩
      · rw [Nat.max_le] at hpeak
        rw [(hread limit level hle).1 hpeak.1]
        exact (hread' limit _ (Nat.le_trans hend hpeak.1)).1 hpeak.2
      · by_cases hfirst : Scan.peak ⟨.outside, level⟩ s ≤ limit
        · rw [(hread limit level hle).1 hfirst]
          exact (hread' limit _ (Nat.le_trans hend hfirst)).2 (by omega)
        · obtain ⟨rest', hrest⟩ := (hread limit level hle).2 (by omega)
          exact ⟨rest', by rw [hrest]; rfl⟩

theorem IsBounded.map {O : Nat → Nat → Except Failure (α × Text)} {exit : α → Nat → Nat} {t : Text}
    (h : IsBounded O exit t) (f : α → β) {exit' : β → Nat → Nat} (hexit : ∀ x n, exit' (f x) n = exit x n) :
    IsBounded (fun limit level => (O limit level).map fun r => (f r.1, r.2)) exit' t := by
  obtain ⟨s, o, htakes, hread⟩ := h
  refine ⟨s, o.map fun r => (f r.1, r.2), ?_, fun limit level hle => ⟨fun hpeak => ?_, fun hpeak => ?_⟩⟩
  · cases o with
    | ok r => exact ⟨htakes.1, fun n => by rw [htakes.2, hexit]⟩
    | error e => exact htakes
  · dsimp only
    rw [(hread limit level hle).1 hpeak]
  · obtain ⟨rest, hrest⟩ := (hread limit level hle).2 hpeak
    refine ⟨rest, ?_⟩
    dsimp only
    rw [hrest]
    rfl

/-! ### Strings, words and numbers -/

theorem length_skipJsonBlanks_le (t : Text) : (Text.skipJsonBlanks t).length ≤ t.length :=
  (List.dropWhile_sublist _).length_le

/-- A reading that passes over blanks first. -/
theorem IsBounded.of_skipJsonBlanks {O : Nat → Nat → Except Failure (α × Text)} {exit : α → Nat → Nat} {t : Text}
    (h : IsBounded O exit (Text.skipJsonBlanks t)) : IsBounded O exit t := by
  obtain ⟨b, hb, ht⟩ := exists_isBlanks_append t
  rw [ht]
  exact h.prepend hb.stays

/-- A reading that takes a code point and the blanks after it. -/
private theorem isBounded_mark {c : CodePoint} (hc : IsInert c) (rest : Text) {x : α} {exit : α → Nat → Nat}
    (hexit : ∀ n, exit x n = n) : IsBounded (fun _ _ => .ok (x, Text.skipJsonBlanks rest)) exit (c :: rest) := by
  obtain ⟨b, hb, hrest⟩ := exists_isBlanks_append rest
  have hmark : Stays .outside .outside [c] := stays_of_isInert fun d hd => List.mem_singleton.1 hd ▸ hc
  have hstays := hmark.append hb.stays
  refine .const (s := [c] ++ b) ⟨?_, fun n => ?_⟩ fun n => (hstays n).2
  · rw [List.append_assoc, ← hrest]
    rfl
  · rw [(hstays n).1, hexit]

private theorem isBounded_string (rest : Text) :
    IsBounded (fun _ _ => string (.ofChar '\x22' :: rest) rest) sameLevel (.ofChar '\x22' :: rest) := by
  have h := stringOutcome_stringUnits (.ofChar '\x22' :: rest) rest
  unfold string
  cases hunits : stringUnits (.ofChar '\x22' :: rest) rest with
  | ok r =>
    rw [hunits] at h
    obtain ⟨s, hs, hstays⟩ := h
    rw [hs]
    exact .ok (.cons (fun _ => rfl) hstays) _
  | error f =>
    rw [hunits] at h
    obtain ⟨fault, tail⟩ := f
    obtain ⟨hfault, rfl | ⟨s, q, hs, hstays⟩⟩ := h
    · exact .fault hfault _
    · rw [hs]
      exact .error (.cons (fun _ => rfl) hstays) hfault _

private theorem isBounded_number (limits : Limits) (t : Text) :
    IsBounded (fun _ _ => number limits t) sameLevel t := by
  unfold number
  cases hscan : Numeral.scan? t with
  | none => exact .fault (by simp) _
  | some r =>
    obtain ⟨n, rest⟩ := r
    obtain ⟨s, hspells, rfl⟩ := Numeral.exists_spells_of_scan? hscan
    dsimp only
    split
    · split
      · exact .fault (by simp) _
      · exact .ok (stays_of_spells hspells) _
    · exact .ok (stays_of_spells hspells) _

private theorem isBounded_wordOrNumber (limits : Limits) (t : Text) :
    IsBounded (fun _ _ => wordOrNumber limits t) sameLevel t := by
  unfold wordOrNumber
  cases hword : findWord words t with
  | some r =>
    obtain ⟨word, hmem, ht⟩ := exists_of_findWord hword
    rw [ht]
    exact .ok (stays_of_mem_words (List.mem_append_left _ hmem)) _
  | none =>
    cases hnonFinite : findWord nonFiniteWords t with
    | some r =>
      obtain ⟨word, hmem, ht⟩ := exists_of_findWord hnonFinite
      dsimp only
      split
      · rw [ht]
        exact .ok (stays_of_mem_words (List.mem_append_right _ hmem)) _
      · exact .fault (by simp) _
    | none => exact isBounded_number limits t

/-! ### Containers -/

private theorem step_close {c : CodePoint} (hc : c.val = 0x5D ∨ c.val = 0x7D) (n : Nat) :
    Scan.step ⟨.outside, n⟩ c = ⟨.outside, n - 1⟩ := by
  show (if _ then _ else if _ then _ else if _ then _ else _) = _
  rw [if_neg (by omega), if_neg (by omega), if_pos hc]

private theorem peak_close {c : CodePoint} (hc : c.val = 0x5D ∨ c.val = 0x7D) (n : Nat) :
    Scan.peak ⟨.outside, n⟩ [c] = n := by
  show max n (Scan.step ⟨.outside, n⟩ c).opened = n
  rw [step_close hc]
  exact Nat.max_eq_left (Nat.sub_le _ _)

private theorem isBounded_separator {c : CodePoint} (hc : c.val = 0x5D ∨ c.val = 0x7D) (t : Text) :
    IsBounded (fun _ _ => separator c.val t) (fun more n => if more then n else n - 1) t := by
  apply IsBounded.of_skipJsonBlanks
  unfold separator
  cases Text.skipJsonBlanks t with
  | nil => exact .fault (by simp) _
  | cons d rest =>
    dsimp only
    split
    · next hd => exact .const (s := [d]) ⟨rfl, step_close (by omega)⟩ (peak_close (by omega))
    split
    · next hcomma =>
      obtain rfl : d = .ofChar ',' := CodePoint.ext hcomma
      exact isBounded_mark (show IsInert (.ofChar ',') by decide) rest fun _ => rfl
    · exact .fault (by simp) _

private theorem isBounded_colon (x : α) (t : Text) :
    IsBounded (fun _ _ => colon t >>= fun rest => .ok (x, rest)) sameLevel t := by
  apply IsBounded.of_skipJsonBlanks
  unfold colon
  cases Text.skipJsonBlanks t with
  | nil => exact .fault (by simp) _
  | cons d rest =>
    dsimp only
    split
    · next hcolon =>
      obtain rfl : d = .ofChar ':' := CodePoint.ext hcolon
      exact isBounded_mark (show IsInert (.ofChar ':') by decide) rest fun _ => rfl
    · exact .fault (by simp) _

private theorem isBounded_name (t : Text) : IsBounded (fun _ _ => name t) sameLevel t := by
  cases t with
  | nil => exact .fault (by simp) _
  | cons c rest =>
    unfold name
    dsimp only
    split
    · next hquote =>
      obtain rfl : c = .ofChar '\x22' := CodePoint.ext hquote
      exact (isBounded_string rest).bind (fun x rest _ => isBounded_colon x rest) fun _ _ _ => rfl
    · exact .fault (by simp) _

/-- What follows a value in a container: the closing bracket, or a comma and what follows in its turn. -/
private theorem isBounded_more {c : CodePoint} (hc : c.val = 0x5D ∨ c.val = 0x7D) (x : α) {t : Text}
    {K : Text → Nat → Nat → Except Failure (List α × Text)}
    (hK : ∀ rest, rest.length ≤ t.length → IsBounded (K rest) outerLevel rest) :
    IsBounded (fun limit level => separator c.val t >>= fun r =>
      if r.1 then K r.2 limit level >>= fun r' => .ok (x :: r'.1, r'.2) else .ok ([x], r.2)) outerLevel t := by
  have hnext : ∀ (more : Bool) (rest : Text), rest.length ≤ t.length →
      IsBounded (fun limit level => if more then (K rest limit level).map fun r => (x :: r.1, r.2) else .ok ([x], rest))
        (fun _ n => if more then n - 1 else n) rest := by
    intro more rest hrest
    cases more with
    | true => exact (hK rest hrest).map (x :: ·) fun _ _ => rfl
    | false => exact .ok (s := []) (.nil _) [x]
  have hexit : ∀ (more : Bool) (_ : List α) (n : Nat),
      (if more then (if more then n else n - 1) - 1 else if more then n else n - 1) = n - 1 := by
    intro more _ n
    cases more <;> rfl
  refine ((isBounded_separator hc t).bind hnext hexit).congr fun limit level _ => ?_
  rcases separator c.val t with f | ⟨_ | _, rest⟩
  · rfl
  · rfl
  · show K rest limit level >>= _ = (K rest limit level).map _
    cases K rest limit level <;> rfl

section Containers

variable {reader : Nat → Reader Json} {k : Nat}

/-- Values of no greater length than the given one are bounded readings. -/
private def BoundsValues (reader : Nat → Reader Json) (k : Nat) : Prop :=
  ∀ t, t.length ≤ k → IsBounded (fun limit level => reader (limit - level) t) sameLevel t

private theorem isBounded_items (h : BoundsValues reader k) (fuel : Nat) {t : Text} (ht : t.length ≤ k) :
    IsBounded (fun limit level => items (reader (limit - level)) fuel t) outerLevel t := by
  induction fuel generalizing t with
  | zero => exact .fault (by simp) _
  | succ fuel ih =>
    have hmore : ∀ v rest, rest.length ≤ t.length → IsBounded (fun limit level => separator 0x5D rest >>= fun r =>
        if r.1 then items (reader (limit - level)) fuel r.2 >>= fun r' => .ok (v :: r'.1, r'.2)
        else .ok ([v], r.2)) outerLevel rest :=
      fun v rest hrest => isBounded_more (c := .ofChar ']') (.inl rfl) v fun rest' hrest' => ih (by omega)
    exact (h t ht).bind hmore fun _ _ _ => rfl

private theorem isBounded_members (h : BoundsValues reader k) (fuel : Nat) {t : Text} (ht : t.length ≤ k) :
    IsBounded (fun limit level => members (reader (limit - level)) fuel t) outerLevel t := by
  induction fuel generalizing t with
  | zero => exact .fault (by simp) _
  | succ fuel ih =>
    have hmore : ∀ name v rest, rest.length ≤ t.length →
        IsBounded (fun limit level => separator 0x7D rest >>= fun r =>
          if r.1 then members (reader (limit - level)) fuel r.2 >>= fun r' => .ok ((name, v) :: r'.1, r'.2)
          else .ok ([(name, v)], r.2)) outerLevel rest :=
      fun name v rest hrest =>
        isBounded_more (c := .ofChar '\x7d') (.inr rfl) (name, v) fun rest' hrest' => ih (by omega)
    have hvalue : ∀ name rest, rest.length ≤ t.length →
        IsBounded (fun limit level => reader (limit - level) rest >>= fun r => separator 0x7D r.2 >>= fun r' =>
          if r'.1 then members (reader (limit - level)) fuel r'.2 >>= fun r'' => .ok ((name, r.1) :: r''.1, r''.2)
          else .ok ([(name, r.1)], r'.2)) outerLevel rest :=
      fun name rest hrest =>
        (h rest (by omega)).bind (fun v rest' hrest' => hmore name v rest' (by omega)) fun _ _ _ => rfl
    exact (isBounded_name t).bind hvalue fun _ _ _ => rfl

private theorem isBounded_closes {close : Nat} (hclose : close = 0x5D ∨ close = 0x7D) {t rest : Text}
    (h : closes? close t = some rest) (x : α) : IsBounded (fun _ _ => .ok (x, rest)) outerLevel t := by
  cases t with
  | nil => cases h
  | cons c t =>
    unfold closes? at h
    dsimp only at h
    split at h
    · next hc =>
      obtain rfl := Option.some.inj h
      exact .const (s := [c]) ⟨rfl, step_close (by omega)⟩ (peak_close (by omega))
    · cases h

private theorem isBounded_array (h : BoundsValues reader k) {t : Text} (ht : t.length ≤ k) :
    IsBounded (fun limit level => array (reader (limit - level)) t) outerLevel t := by
  have hlength := length_skipJsonBlanks_le t
  apply IsBounded.of_skipJsonBlanks
  unfold array
  dsimp only
  generalize Text.skipJsonBlanks t = u at hlength ⊢
  cases hcloses : closes? 0x5D u with
  | some rest => exact isBounded_closes (.inl rfl) hcloses _
  | none =>
    have hitems := isBounded_items h (u.length + 1) (t := u) (by omega)
    exact hitems.map Json.arr fun _ _ => rfl

private theorem isBounded_object (h : BoundsValues reader k) {t : Text} (ht : t.length ≤ k) :
    IsBounded (fun limit level => object (reader (limit - level)) t) outerLevel t := by
  have hlength := length_skipJsonBlanks_le t
  apply IsBounded.of_skipJsonBlanks
  unfold object
  dsimp only
  generalize Text.skipJsonBlanks t = u at hlength ⊢
  cases hcloses : closes? 0x7D u with
  | some rest => exact isBounded_closes (.inr rfl) hcloses _
  | none =>
    have hmembers := isBounded_members h (u.length + 1) (t := u) (by omega)
    exact hmembers.map (fun pairs => Json.obj (Members.ofPairs pairs)) fun _ _ => rfl

end Containers

/-! ### Values -/

/-- An opening bracket: at the limit the text is nested too deeply, and below it the container is read one level
deeper. -/
private theorem IsBounded.opening {O G : Nat → Nat → Except Failure (α × Text)} {c : CodePoint} {rest : Text}
    (hc : c.val = 0x5B ∨ c.val = 0x7B) (hG : IsBounded G outerLevel rest)
    (hlimit : ∀ limit, ∃ r, O limit limit = .error ⟨.tooDeep, r⟩)
    (hO : ∀ limit level, level < limit → O limit level = G limit (level + 1)) :
    IsBounded O sameLevel (c :: rest) := by
  have hstep : ∀ n, Scan.step ⟨.outside, n⟩ c = ⟨.outside, n + 1⟩ := by
    intro n
    show (if _ then _ else if _ then _ else _) = _
    rw [if_neg (by omega), if_pos hc]
  obtain ⟨s, o, htakes, hread⟩ := hG
  refine ⟨c :: s, o, ?_, fun limit level hle => ?_⟩
  · cases o with
    | ok r =>
      refine ⟨by rw [htakes.1, List.cons_append], fun n => ?_⟩
      rw [Scan.run, List.foldl_cons, hstep]
      exact htakes.2 (n + 1)
    | error f => exact ⟨by rw [htakes.1, List.cons_append], htakes.2⟩
  · have hopened := Scan.opened_le_peak ⟨.outside, level + 1⟩ s
    rw [Scan.peak, hstep]
    dsimp only at hopened ⊢
    refine ⟨fun hpeak => ?_, fun hpeak => ?_⟩
    · rw [hO limit level (by omega)]
      exact (hread limit (level + 1) (by omega)).1 (by omega)
    · by_cases hlt : level < limit
      · rw [hO limit level hlt]
        exact (hread limit (level + 1) hlt).2 (by omega)
      · obtain rfl : level = limit := by omega
        exact hlimit level

private theorem value_eq_valueWith (limits : Limits) (depth : Nat) (t : Text) :
    ∃ inner, value limits depth t = valueWith limits inner t := by
  cases depth with
  | zero => exact ⟨none, rfl⟩
  | succ depth => exact ⟨some (value limits depth), rfl⟩

/-- Reading a value depends on the limit as the brackets in the text tell. -/
theorem isBounded_value (limits : Limits) (t : Text) :
    IsBounded (fun limit level => value limits (limit - level) t) sameLevel t := by
  -- on the length of the text: the values in a container stand in what follows its opening bracket
  induction hn : t.length using Nat.strongRecOn generalizing t with
  | ind n ih =>
    cases t with
    | nil =>
      refine (@IsBounded.fault _ [] .expectedValue (by simp) _).congr fun limit level _ => ?_
      obtain ⟨inner, hinner⟩ := value_eq_valueWith limits (limit - level) []
      rw [hinner]
      rfl
    | cons c rest =>
      have hshorter : BoundsValues (value limits) rest.length :=
        fun t ht => ih t.length (by rw [← hn, List.length_cons]; omega) t rfl
      by_cases hquote : c.val = 0x22
      · obtain rfl : c = .ofChar '\x22' := CodePoint.ext hquote
        refine ((isBounded_string rest).map .str (fun _ _ => rfl)).congr fun limit level _ => ?_
        obtain ⟨inner, hinner⟩ := value_eq_valueWith limits (limit - level) (.ofChar '\x22' :: rest)
        rw [hinner]
        rfl
      by_cases hbrace : c.val = 0x7B
      · refine .opening (.inr hbrace) (isBounded_object hshorter (Nat.le_refl _)) (fun limit => ?_)
          fun limit level hlt => ?_
        · rw [Nat.sub_self, value, valueWith, if_neg hquote, if_pos hbrace]
          exact ⟨_, rfl⟩
        · rw [show limit - level = limit - (level + 1) + 1 by omega, value, valueWith, if_neg hquote, if_pos hbrace]
      by_cases hbracket : c.val = 0x5B
      · refine .opening (.inl hbracket) (isBounded_array hshorter (Nat.le_refl _)) (fun limit => ?_)
          fun limit level hlt => ?_
        · rw [Nat.sub_self, value, valueWith, if_neg hquote, if_neg hbrace, if_pos hbracket]
          exact ⟨_, rfl⟩
        · rw [show limit - level = limit - (level + 1) + 1 by omega, value, valueWith, if_neg hquote,
            if_neg hbrace, if_pos hbracket]
      · refine (isBounded_wordOrNumber limits (c :: rest)).congr fun limit level _ => ?_
        obtain ⟨inner, hinner⟩ := value_eq_valueWith limits (limit - level) (c :: rest)
        rw [hinner]
        show (if c.val = 0x22 then _ else if c.val = 0x7B then _ else if c.val = 0x5B then _ else _) = _
        rw [if_neg hquote, if_neg hbrace, if_neg hbracket]

end WireCodec.Json
