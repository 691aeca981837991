import Mathlib.Data.List.Induction
import WireCodec.Json.Basic

/-!
# The members of an object

An object is read as pairs of names and values in which a name may be repeated.  Of a repeated name the last value
counts (`Members.get?_ofPairs`), and every name is left once (`Members.nodup_ofPairs`).  What an optional member says is
told by `Members.Says`: nothing if it is absent or null, and else the content of a value of its kind.
-/

namespace WireCodec

namespace Members

/-! ### Repeated names -/

/-- The value of the last pair with a name. -/
def lastValue? (name : Text) (pairs : List (Text × Json)) : Option Json := pairs.reverse.lookup name

theorem lastValue?_append_singleton (name : Text) (pairs : List (Text × Json)) (p : Text × Json) :
    lastValue? name (pairs ++ [p]) = if p.1 = name then some p.2 else lastValue? name pairs := by
  obtain ⟨n, v⟩ := p
  rw [lastValue?, List.reverse_append, List.reverse_singleton, List.singleton_append]
  by_cases h : n = name
  · subst h
    rw [List.lookup_cons_self, if_pos rfl]
  · have hne : (name == n) = false := by simpa using Ne.symm h
    rw [List.lookup_cons, hne, if_neg h]
    rfl

theorem mem_of_lastValue? {name : Text} {pairs : List (Text × Json)} {v : Json}
    (h : lastValue? name pairs = some v) : (name, v) ∈ pairs := by
  obtain ⟨after, before, hsplit, -⟩ := List.lookup_eq_some_iff.1 h
  rw [← List.mem_reverse, hsplit]
  exact List.mem_append_right _ List.mem_cons_self

theorem ofPairs_append_singleton (pairs : List (Text × Json)) (p : Text × Json) :
    ofPairs (pairs ++ [p]) = insert p.1 p.2 (ofPairs pairs) := by
  rw [ofPairs, List.foldl_append]
  rfl

/-- Of the values of a name the last one stays. -/
theorem get?_ofPairs (name : Text) (pairs : List (Text × Json)) :
    get? name (ofPairs pairs) = lastValue? name pairs := by
  induction pairs using List.reverseRecOn with
  | nil => rfl
  | append_singleton pairs p ih =>
    rw [ofPairs_append_singleton, lastValue?_append_singleton]
    by_cases h : p.1 = name
    · rw [if_pos h, ← h, get?_insert_self]
    · rw [if_neg h, get?_insert_of_ne (Ne.symm h), ih]

/-! ### What is there -/

theorem get?_append (name : Text) (m m' : Members) : get? name (m ++ m') = (get? name m).or (get? name m') := by
  induction m with
  | nil => rfl
  | cons p m ih =>
    obtain ⟨n, v⟩ := p
    by_cases h : n = name
    · simp [get?, h]
    · simp [get?, h, ih]

section

variable {name : Text} {value : Json} {m : Members} {p : Text × Json}

theorem get?_eq_none (h : name ∉ m.map Prod.fst) : get? name m = none := by
  induction m with
  | nil => rfl
  | cons p m ih =>
    obtain ⟨n, v⟩ := p
    rw [List.map_cons, List.mem_cons, not_or] at h
    rw [get?, if_neg (Ne.symm h.1), ih h.2]

theorem mem_insert (h : p ∈ insert name value m) : p = (name, value) ∨ p ∈ m := by
  induction m with
  | nil => exact .inl (List.mem_singleton.1 h)
  | cons q m ih =>
    obtain ⟨n, v⟩ := q
    rw [insert] at h
    split at h
    · rcases List.mem_cons.1 h with h | h
      · exact .inl h
      · exact .inr (List.mem_cons_of_mem _ h)
    · rcases List.mem_cons.1 h with h | h
      · exact .inr (h ▸ List.mem_cons_self)
      · exact (ih h).imp_right (List.mem_cons_of_mem _)

theorem nodup_insert (h : (m.map Prod.fst).Nodup) : ((insert name value m).map Prod.fst).Nodup := by
  induction m with
  | nil => simp [insert]
  | cons q m ih =>
    obtain ⟨n, v⟩ := q
    rw [List.map_cons, List.nodup_cons] at h
    rw [insert]
    by_cases hn : n = name
    · rw [if_pos hn, List.map_cons, List.nodup_cons]
      exact ⟨hn ▸ h.1, h.2⟩
    · rw [if_neg hn, List.map_cons, List.nodup_cons]
      refine ⟨fun hmem => ?_, ih h.2⟩
      obtain ⟨p, hp, hpn⟩ := List.mem_map.1 hmem
      rcases mem_insert hp with rfl | hp
      · exact hn hpn.symm
      · exact h.1 (hpn ▸ List.mem_map_of_mem hp)

theorem mem_of_get? {v : Json} (h : get? name m = some v) : (name, v) ∈ m := by
  induction m with
  | nil => cases h
  | cons q m ih =>
    obtain ⟨n, w⟩ := q
    rw [get?] at h
    by_cases hn : n = name
    · rw [if_pos hn] at h
      rw [hn, Option.some.inj h]
      exact List.mem_cons_self
    · rw [if_neg hn] at h
      exact List.mem_cons_of_mem _ (ih h)

theorem insert_ne_nil (name : Text) (value : Json) (m : Members) : insert name value m ≠ [] := by
  unfold insert
  split
  · exact List.cons_ne_nil _ _
  · split <;> exact List.cons_ne_nil _ _

theorem ofPairs_ne_nil {pairs : List (Text × Json)} (h : pairs ≠ []) : ofPairs pairs ≠ [] := by
  rw [← List.dropLast_concat_getLast h, ofPairs_append_singleton]
  exact insert_ne_nil _ _ _

theorem mem_of_mem_ofPairs {pairs : List (Text × Json)} (h : p ∈ ofPairs pairs) : p ∈ pairs := by
  induction pairs using List.reverseRecOn with
  | nil => exact h
  | append_singleton pairs q ih =>
    rw [ofPairs_append_singleton] at h
    rcases mem_insert h with rfl | h
    · simp
    · exact List.mem_append_left _ (ih h)

theorem nodup_ofPairs (pairs : List (Text × Json)) : ((ofPairs pairs).map Prod.fst).Nodup := by
  induction pairs using List.reverseRecOn with
  | nil => exact List.nodup_nil
  | append_singleton pairs q ih =>
    rw [ofPairs_append_singleton]
    exact nodup_insert ih

end

theorem insert_of_notMem {name : Text} {m : Members} (h : name ∉ m.map Prod.fst) (value : Json) :
    insert name value m = m ++ [(name, value)] := by
  induction m with
  | nil => rfl
  | cons p m ih =>
    obtain ⟨n, v⟩ := p
    rw [List.map_cons, List.mem_cons, not_or] at h
    rw [insert, if_neg (Ne.symm h.1), ih h.2, List.cons_append]

private theorem foldl_insert {pairs done : Members} (h : ((done ++ pairs).map Prod.fst).Nodup) :
    pairs.foldl (fun m p => insert p.1 p.2 m) done = done ++ pairs := by
  induction pairs generalizing done with
  | nil => rw [List.foldl_nil, List.append_nil]
  | cons p pairs ih =>
    have hnew : p.1 ∉ done.map Prod.fst := by
      rw [List.map_append, List.map_cons, List.nodup_append] at h
      exact fun hp => h.2.2 p.1 hp p.1 List.mem_cons_self rfl
    rw [List.append_cons] at h ⊢
    rw [List.foldl_cons, insert_of_notMem hnew, ih h]

/-- Members of which no two have one name stay as they are. -/
theorem ofPairs_of_nodup {m : Members} (h : (m.map Prod.fst).Nodup) : ofPairs m = m :=
  @foldl_insert m [] h

theorem lastValue?_of_nodup {m : Members} (h : (m.map Prod.fst).Nodup) (name : Text) :
    lastValue? name m = get? name m := by
  rw [← get?_ofPairs, ofPairs_of_nodup h]

/-! ### Optional members -/

/-- What an optional member says: nothing if it is absent or null, and else the content of a value of its kind. -/
inductive Says {α : Type} (kind : α → Json) : Option Json → Option α → Prop
  | absent : Says kind none none
  | null : Says kind (some .null) none
  | value (a : α) : Says kind (some (kind a)) (some a)

section

variable {α : Type} {take : Json → Option α} {kind : α → Json}

/-- An optional member is taken exactly if it says something of its kind. -/
theorem optional?_eq_some_iff (htake : ∀ v a, take v = some a ↔ v = kind a) (hnull : take .null = none)
    (name : Text) (m : Members) (o : Option α) :
    optional? take name m = some o ↔ Says kind (get? name m) o := by
  unfold optional?
  constructor
  · intro h
    split at h
    · next hget =>
      obtain rfl := Option.some.inj h
      rw [hget]
      exact .absent
    · next hget =>
      obtain rfl := Option.some.inj h
      rw [hget]
      exact .null
    · next value _ hget =>
      obtain ⟨a, ha, rfl⟩ := Option.map_eq_some_iff.1 h
      rw [hget, (htake value a).1 ha]
      exact .value a
  · -- a value of the kind could only be taken for an absent one if null were of the kind
    intro h
    generalize get? name m = v at h
    cases h with
    | absent => rfl
    | null => rfl
    | value a =>
      have ha : take (kind a) = some a := (htake _ a).2 rfl
      split
      · next h => cases h
      · next h =>
        rw [Option.some.inj h, hnull] at ha
        cases ha
      · next value _ h =>
        obtain rfl := Option.some.inj h
        rw [ha]
        rfl

end

end Members

/-! ### Values of a kind -/

namespace Json

theorem toBool?_eq_some_iff (v : Json) (b : Bool) : v.toBool? = some b ↔ v = .bool b := by
  cases v <;> simp [toBool?]

theorem toText?_eq_some_iff (v : Json) (t : Text) : v.toText? = some t ↔ v = .str t := by
  cases v <;> simp [toText?]

theorem toMembers?_eq_some_iff (v : Json) (m : Members) : v.toMembers? = some m ↔ v = .obj m := by
  cases v <;> simp [toMembers?]

end Json

end WireCodec
