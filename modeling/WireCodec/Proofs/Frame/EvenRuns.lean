import Mathlib.Algebra.Group.Nat.Even
import Mathlib.Data.List.SplitBy
import Mathlib.Data.Set.List
import WireCodec.Proofs.Frame.Escape

/-!
# The texts that are escaped values

A value is found again in its escaped form, since a pair of equal reserved code points stands for one.  Escaping is done
code point by code point, so that it goes through a text run by run (`runs_escape`), and a run of a reserved code point
gets twice its length.  The escaped values are therefore the texts in which the maximal runs of U+0004 and those of U+0005
have even length, also where a run of the one touches a run of the other (`escape_faithful`).
-/

namespace WireCodec.Frame

variable {p s : Text} {c d : CodePoint}

/-! ### Reading an escaped value -/

/-- Takes every two equal reserved code points that stand together, from left to right, for one. -/
def unescape (t : Text) : Text := undouble IsReserved t

theorem unescape_escape (p : Text) : unescape (escape p) = p := by
  rw [unescape, escape_eq_doubleReserved, doubleReserved, undouble_flatMap_double]

/-! ### Escaping part by part -/

theorem escape_append (p q : Text) : escape (p ++ q) = escape p ++ escape q := by
  simp only [escape_eq_doubleReserved, doubleReserved, List.flatMap_append]

theorem escape_flatten (ps : List Text) : escape ps.flatten = (ps.map escape).flatten := by
  induction ps with
  | nil => rfl
  | cons p ps ih => rw [List.flatten_cons, escape_append, ih, List.map_cons, List.flatten_cons]

theorem escape_replicate (h : IsReserved c) (n : Nat) :
    escape (List.replicate n c) = List.replicate (2 * n) c := by
  induction n with
  | zero => rfl
  | succ n ih =>
    rw [List.replicate_succ, escape_cons, if_pos h, ih]
    rfl

private theorem escape_ne_nil (h : p ≠ []) : escape p ≠ [] :=
  List.ne_nil_of_mem (mem_escape.2 (List.head_mem h))

private theorem head_escape (h : p ≠ []) : (escape p).head (escape_ne_nil h) = p.head h := by
  rw [List.head_eq_iff_head?_eq_some, ← List.head?_eq_some_head h, escape_eq_doubleReserved, doubleReserved,
    head?_flatMap_double]

private theorem getLast_escape (h : p ≠ []) : (escape p).getLast (escape_ne_nil h) = p.getLast h := by
  rw [List.getLast_eq_iff_getLast?_eq_some, ← List.getLast?_eq_some_getLast h]
  rcases List.eq_nil_or_concat p with rfl | ⟨q, c, rfl⟩
  · rfl
  · rw [List.concat_eq_append, escape_append, escape_cons]
    split <;> simp [escape]

/-! ### Runs -/

/-- The maximal runs of equal code points of a text, in their order. -/
def runs (t : Text) : List Text := t.splitBy (· == ·)

/-- The maximal runs of both reserved code points have even length. -/
def HasEvenRuns (t : Text) : Prop := ∀ run ∈ runs t, ∀ c ∈ run, IsReserved c → Even run.length

instance (t : Text) : Decidable (HasEvenRuns t) :=
  inferInstanceAs (Decidable (∀ run ∈ runs t, ∀ c ∈ run, IsReserved c → Even run.length))

/-- A run repeats one code point. -/
private theorem eq_of_mem_runs {run : Text} (h : run ∈ runs s) (hc : c ∈ run) (hd : d ∈ run) : d = c := by
  have hchain : run.IsChain (· = ·) := (List.isChain_of_mem_splitBy h).imp fun _ _ heq => eq_of_beq heq
  obtain ⟨a, t, rfl⟩ := List.exists_cons_of_ne_nil (List.ne_nil_of_mem hc)
  rw [List.isChain_eq_iff_eq_replicate.1 hchain a rfl] at hc hd
  rw [List.eq_of_mem_replicate hc, List.eq_of_mem_replicate hd]

private theorem eq_replicate_of_mem_runs {run : Text} (h : run ∈ runs s) (hc : c ∈ run) :
    run = List.replicate run.length c :=
  List.eq_replicate_of_mem fun _ hd => eq_of_mem_runs h hc hd

private theorem isChain_escape_of_mem_runs {run : Text} (h : run ∈ runs s) :
    (escape run).IsChain fun c d => (c == d) = true := by
  obtain ⟨c, hc⟩ := List.exists_mem_of_ne_nil run (List.ne_nil_of_mem_splitBy h)
  have hall : ∀ d ∈ escape run, d = c := fun d hd => eq_of_mem_runs h hc (mem_escape.1 hd)
  rw [List.eq_replicate_of_mem hall]
  exact List.isChain_replicate_of_rel _ (beq_self_eq_true c)

/-- The runs of an escaped value are the escaped runs of the value. -/
theorem runs_escape (p : Text) : runs (escape p) = (runs p).map escape := by
  rw [runs, List.splitBy_eq_iff]
  refine ⟨?_, ?_, ?_, ?_⟩
  · rw [← escape_flatten, runs, List.flatten_splitBy]
  · intro hnil
    obtain ⟨run, hrun, heq⟩ := List.mem_map.1 hnil
    exact escape_ne_nil (List.ne_nil_of_mem_splitBy hrun) heq
  · intro t ht
    obtain ⟨run, hrun, rfl⟩ := List.mem_map.1 ht
    exact isChain_escape_of_mem_runs hrun
  · -- two escaped runs meet in the code points in which the runs meet
    rw [List.isChain_map]
    refine (List.isChain_getLast_head_splitBy _ p).imp fun r t ⟨hr, ht, hne⟩ => ?_
    exact ⟨escape_ne_nil hr, escape_ne_nil ht, by rw [getLast_escape hr, head_escape ht, hne]⟩

/-- Escaping doubles the length of a run of a reserved code point. -/
theorem hasEvenRuns_escape (p : Text) : HasEvenRuns (escape p) := by
  intro run hrun c hc hres
  rw [runs_escape] at hrun
  obtain ⟨r, hr, rfl⟩ := List.mem_map.1 hrun
  rw [eq_replicate_of_mem_runs hr (mem_escape.1 hc), escape_replicate hres, List.length_replicate]
  exact ⟨_, Nat.two_mul _⟩

/-- A run is an escaped value if it needs no escape or has even length. -/
private theorem exists_escape_of_mem_runs (h : HasEvenRuns s) {run : Text} (hrun : run ∈ runs s) :
    ∃ p, escape p = run := by
  by_cases hres : ∃ c ∈ run, IsReserved c
  · obtain ⟨c, hc, hres⟩ := hres
    obtain ⟨n, hn⟩ := h run hrun c hc hres
    refine ⟨List.replicate n c, ?_⟩
    rw [escape_replicate hres, Nat.two_mul, ← hn, ← eq_replicate_of_mem_runs hrun hc]
  · exact ⟨run, if_neg hres⟩

theorem exists_escape_of_hasEvenRuns (h : HasEvenRuns s) : ∃ p, escape p = s := by
  have hruns : runs s ∈ Set.range (List.map escape) := by
    rw [Set.range_list_map]
    exact fun run hrun => exists_escape_of_mem_runs h hrun
  obtain ⟨ps, hps⟩ := hruns
  refine ⟨ps.flatten, ?_⟩
  rw [escape_flatten, hps, runs, List.flatten_splitBy]

/-- Escaping is a faithful code.  It doubles the reserved code points also where it leaves a value as it is, the value can
be read from its escaped form, two values are escaped together as they are apart, and the escaped values are the texts in
which every maximal run of a reserved code point has even length. -/
theorem escape_faithful :
    (∀ p, escape p = p.flatMap fun c => if IsReserved c then [c, c] else [c]) ∧
      (∀ p, unescape (escape p) = p) ∧
      Function.Injective escape ∧
      (∀ p q, escape (p ++ q) = escape p ++ escape q) ∧
      ∀ s, (∃ p, escape p = s) ↔ HasEvenRuns s := by
  refine ⟨escape_eq_doubleReserved, unescape_escape, Function.LeftInverse.injective unescape_escape, escape_append,
    fun s => ⟨?_, exists_escape_of_hasEvenRuns⟩⟩
  rintro ⟨p, rfl⟩
  exact hasEvenRuns_escape p

/-- Runs of the two reserved code points that touch are told apart. -/
example : HasEvenRuns (Text.ofString "\x05\x05\x04\x04\x05\x05\x05\x05") ∧
    ¬HasEvenRuns (Text.ofString "\x04\x05\x05\x04") := by decide

end WireCodec.Frame
