/-
# LightNet.Foundation.Run — runs of a deterministic labelled machine.

A component is read as a step function `step : σ → ι → σ` whose label carries everything the
environment decides in that step (the call made, what the kernel returned, the iteration order of a
hash table).  A run is then a list of labels, so "for every sequence of calls" is a quantifier over
lists and every outcome of the environment is covered.

`Admissible` says that each step of a run meets a side condition *in the state it is taken from*;
the rules below carry an invariant along such a run, and turn a condition that is exact for one step
into one that is exact for whole runs.  A measure that every step lowers bounds the length of the runs, and
a set of states that need not be left gives an infinite one.  `outputs` are what the calls of a run
return, and `run_refines` lifts a step-by-step simulation to whole runs, states and outputs alike.
-/
import Mathlib.Data.List.Basic

namespace LightNet.Foundation

variable {σ ι : Type*}

/-- The state reached from `s` by the labels `is`, taken in order. -/
def run (step : σ → ι → σ) (s : σ) (is : List ι) : σ := is.foldl step s

@[simp] theorem run_nil (step : σ → ι → σ) (s : σ) : run step s [] = s := rfl

@[simp] theorem run_cons (step : σ → ι → σ) (s : σ) (i : ι) (is : List ι) :
    run step s (i :: is) = run step (step s i) is := rfl

theorem run_append (step : σ → ι → σ) (s : σ) (is js : List ι) :
    run step s (is ++ js) = run step (run step s is) js := List.foldl_append

/-! ## Admissible runs -/

/-- Every step of the run meets `ok` in the state it is taken from. -/
def Admissible (step : σ → ι → σ) (ok : σ → ι → Prop) : σ → List ι → Prop
  | _, [] => True
  | s, i :: is => ok s i ∧ Admissible step ok (step s i) is

instance Admissible.decidable (step : σ → ι → σ) (ok : σ → ι → Prop)
    [∀ s i, Decidable (ok s i)] : ∀ s is, Decidable (Admissible step ok s is)
  | _, [] => isTrue trivial
  | s, i :: is =>
      @instDecidableAnd _ _ _ (Admissible.decidable step ok (step s i) is)

theorem admissible_append {step : σ → ι → σ} {ok : σ → ι → Prop} {s : σ} {is js : List ι} :
    Admissible step ok s (is ++ js)
      ↔ Admissible step ok s is ∧ Admissible step ok (run step s is) js := by
  induction is generalizing s with
  | nil => simp [Admissible]
  | cons i is ih => simp only [List.cons_append, Admissible, run_cons, ih, and_assoc]

/-- Each step on its own. -/
theorem admissible_iff_split {step : σ → ι → σ} {ok : σ → ι → Prop} {s : σ} {is : List ι} :
    Admissible step ok s is ↔ ∀ pre i post, is = pre ++ i :: post → ok (run step s pre) i := by
  constructor
  · rintro h pre i post rfl
    exact (admissible_append.mp h).2.1
  · intro h
    induction is generalizing s with
    | nil => trivial
    | cons i is ih =>
        refine ⟨h [] i is rfl, ih fun pre j post hsplit => ?_⟩
        exact h (i :: pre) j post (by rw [hsplit, List.cons_append])

/-! ## Invariants -/

/-- **Run rule.** What one admissible step preserves, an admissible run preserves. -/
theorem run_invariant {step : σ → ι → σ} {ok : σ → ι → Prop} {Inv : σ → Prop}
    (hstep : ∀ s i, Inv s → ok s i → Inv (step s i)) {s : σ} {is : List ι}
    (hs : Inv s) (hok : Admissible step ok s is) : Inv (run step s is) := by
  induction is generalizing s with
  | nil => exact hs
  | cons i is ih => exact ih (hstep s i hs hok.1) hok.2

/-- The run rule where no step needs a side condition. -/
theorem run_invariant_of_step {step : σ → ι → σ} {Inv : σ → Prop}
    (hstep : ∀ s i, Inv s → Inv (step s i)) {s : σ} (is : List ι) (hs : Inv s) :
    Inv (run step s is) := by
  induction is generalizing s with
  | nil => exact hs
  | cons i is ih => exact ih (hstep s i hs)

theorem Admissible.mono {step : σ → ι → σ} {ok ok' : σ → ι → Prop} (hle : ∀ s i, ok s i → ok' s i)
    {s : σ} {is : List ι} (h : Admissible step ok s is) : Admissible step ok' s is := by
  induction is generalizing s with
  | nil => trivial
  | cons i is ih => exact ⟨hle s i h.1, ih h.2⟩

/-- A condition that every label meets can be added to the side condition. -/
theorem Admissible.and_forall {step : σ → ι → σ} {ok : σ → ι → Prop} {C : ι → Prop} {s : σ}
    {is : List ι} (h : Admissible step ok s is) (hC : ∀ i ∈ is, C i) :
    Admissible step (fun s i => ok s i ∧ C i) s is := by
  induction is generalizing s with
  | nil => trivial
  | cons i is ih =>
      refine ⟨⟨h.1, hC i List.mem_cons_self⟩, ?_⟩
      exact ih h.2 fun j hj => hC j (List.mem_cons_of_mem i hj)

/-- Two side conditions of one run. -/
theorem Admissible.and {step : σ → ι → σ} {ok ok' : σ → ι → Prop} {s : σ} {is : List ι}
    (h : Admissible step ok s is) (h' : Admissible step ok' s is) :
    Admissible step (fun s i => ok s i ∧ ok' s i) s is := by
  induction is generalizing s with
  | nil => trivial
  | cons i is ih => exact ⟨⟨h.1, h'.1⟩, ih h.2 h'.2⟩

/-- What an invariant says about the label of the next step holds of all labels of the run. -/
theorem Admissible.forall_mem {step : σ → ι → σ} {ok : σ → ι → Prop} {Inv : σ → Prop} {Q : ι → Prop}
    (hstep : ∀ s i, Inv s → ok s i → Inv (step s i)) (hQ : ∀ s i, Inv s → ok s i → Q i) {s : σ}
    {is : List ι} (hs : Inv s) (hok : Admissible step ok s is) : ∀ i ∈ is, Q i := by
  induction is generalizing s with
  | nil => exact fun _ hi => absurd hi List.not_mem_nil
  | cons i is ih =>
      intro j hj
      rcases List.mem_cons.mp hj with rfl | hj
      · exact hQ s _ hs hok.1
      · exact ih (hstep s i hs hok.1) hok.2 j hj

/-- **Exact side conditions.** If a condition on one step is, in the states that the invariant
allows, the same as another, then it is the same along every run. -/
theorem admissible_congr {step : σ → ι → σ} {ok ok' : σ → ι → Prop} {Inv : σ → Prop}
    (hiff : ∀ s i, Inv s → (ok s i ↔ ok' s i)) (hstep : ∀ s i, Inv s → ok s i → Inv (step s i))
    {s : σ} {is : List ι} (hs : Inv s) : Admissible step ok s is ↔ Admissible step ok' s is := by
  induction is generalizing s with
  | nil => exact Iff.rfl
  | cons i is ih =>
      constructor
      · rintro ⟨hi, his⟩
        exact ⟨(hiff s i hs).mp hi, (ih (hstep s i hs hi)).mp his⟩
      · rintro ⟨hi, his⟩
        have hi' := (hiff s i hs).mpr hi
        exact ⟨hi', (ih (hstep s i hs hi')).mpr his⟩

/-- **Exact invariants.** `Inv` implies `P` and is kept by every step that meets `ok`.  If, from a
state in `Inv`, the next state is in `P` exactly when the step meets `ok`, then `P` holds all along a
run exactly when every step meets `ok`.  All of this is asked only of steps that meet `side`, as those
of the run do. -/
theorem forall_take_iff_admissible_of {step : σ → ι → σ} {side ok : σ → ι → Prop} {Inv P : σ → Prop}
    (hP : ∀ s, Inv s → P s) (hiff : ∀ s i, Inv s → side s i → (P (step s i) ↔ ok s i))
    (hinv : ∀ s i, Inv s → side s i → ok s i → Inv (step s i)) {s : σ} {is : List ι} (hs : Inv s)
    (hside : Admissible step side s is) :
    (∀ n, P (run step s (is.take n))) ↔ Admissible step ok s is := by
  induction is generalizing s with
  | nil => exact iff_of_true (fun n => by rw [List.take_nil]; exact hP s hs) trivial
  | cons i is ih =>
      constructor
      · intro h
        have hi : ok s i := (hiff s i hs hside.1).mp (h 1)
        exact ⟨hi, (ih (hinv s i hs hside.1 hi) hside.2).mp fun n => h (n + 1)⟩
      · rintro ⟨hi, his⟩ n
        cases n with
        | zero => exact hP s hs
        | succ n => exact (ih (hinv s i hs hside.1 hi) hside.2).mpr his n

/-- Exact invariants where no step needs a side condition. -/
theorem forall_take_iff_admissible {step : σ → ι → σ} {ok : σ → ι → Prop} {Inv P : σ → Prop}
    (hP : ∀ s, Inv s → P s) (hiff : ∀ s i, Inv s → (P (step s i) ↔ ok s i))
    (hinv : ∀ s i, Inv s → ok s i → Inv (step s i)) {s : σ} {is : List ι} (hs : Inv s) :
    (∀ n, P (run step s (is.take n))) ↔ Admissible step ok s is := by
  have hside : Admissible step (fun _ _ => True) s is :=
    admissible_iff_split.mpr fun _ _ _ _ => trivial
  exact forall_take_iff_admissible_of hP (fun s i h _ => hiff s i h) (fun s i h _ => hinv s i h) hs
    hside

/-! ## How long a run can be -/

/-- **A measure bounds every run.** -/
theorem length_le_of_measure {step : σ → ι → σ} {ok : σ → ι → Prop} {Inv : σ → Prop} {μ : σ → Nat}
    (hstep : ∀ s i, Inv s → ok s i → Inv (step s i))
    (hless : ∀ s i, Inv s → ok s i → μ (step s i) < μ s) {s : σ} {is : List ι} (hs : Inv s)
    (hok : Admissible step ok s is) : is.length ≤ μ s := by
  induction is generalizing s with
  | nil => exact Nat.zero_le _
  | cons i is ih =>
      have hrest := ih (hstep s i hs hok.1) hok.2
      have hfirst := hless s i hs hok.1
      rw [List.length_cons]
      omega

/-- **A run that need never end.** From a set of states in which some step can be taken without leaving
the set, there is an infinite run. -/
theorem exists_endless {step : σ → ι → σ} {ok : σ → ι → Prop} {P : σ → Prop}
    (hstep : ∀ s, P s → ∃ i, ok s i ∧ P (step s i)) {s : σ} (hs : P s) :
    ∃ is : Nat → ι, ∀ n, Admissible step ok s ((List.range n).map is) := by
  choose label hok hnext using hstep
  let state : Nat → { s // P s } :=
    fun n => n.rec ⟨s, hs⟩ fun _ s => ⟨step s.1 (label s.1 s.2), hnext s.1 s.2⟩
  refine ⟨fun n => label (state n).1 (state n).2, fun n => ?_⟩
  -- with the state that has been reached, on the number of steps
  suffices h : Admissible step ok s ((List.range n).map fun n => label (state n).1 (state n).2)
      ∧ run step s ((List.range n).map fun n => label (state n).1 (state n).2) = (state n).1 from h.1
  induction n with
  | zero => exact ⟨trivial, rfl⟩
  | succ n ih =>
      rw [List.range_succ, List.map_append, List.map_singleton, admissible_append, run_append, ih.2]
      exact ⟨⟨ih.1, hok _ _, trivial⟩, rfl⟩

/-! ## Refinement -/

variable {τ κ ω : Type*}

/-- A part of the state that goes its own way. -/
theorem run_part {step : σ → ι → σ} {step' : τ → ι → τ} {part : σ → τ}
    (hpart : ∀ s i, part (step s i) = step' (part s) i) (s : σ) (is : List ι) :
    part (run step s is) = run step' (part s) is := by
  induction is generalizing s with
  | nil => rfl
  | cons i is ih => rw [run_cons, run_cons, ih, hpart]

theorem admissible_part {step : σ → ι → σ} {step' : τ → ι → τ} {part : σ → τ}
    (hpart : ∀ s i, part (step s i) = step' (part s) i) {ok : τ → ι → Prop} {s : σ} {is : List ι} :
    Admissible step (fun s i => ok (part s) i) s is ↔ Admissible step' ok (part s) is := by
  induction is generalizing s with
  | nil => exact Iff.rfl
  | cons i is ih => rw [Admissible, Admissible, ih, hpart]

/-- **Refinement of a machine that can go wrong.** `step` has no next state where it would.  If in
related states no step that the abstract machine can take goes wrong, and the two stay related, then no
run of the abstract machine makes the other one go wrong. -/
theorem foldlM_refines {step : σ → ι → Option σ} {step' : τ → ι → τ} {ok : τ → ι → Prop}
    {R : σ → τ → Prop} (hstep : ∀ s t i, R s t → ok t i → ∃ s', step s i = some s' ∧ R s' (step' t i))
    {s : σ} {t : τ} {is : List ι} (h : R s t) (hok : Admissible step' ok t is) :
    ∃ s', is.foldlM step s = some s' ∧ R s' (run step' t is) := by
  induction is generalizing s t with
  | nil => exact ⟨s, rfl, h⟩
  | cons i is ih =>
      obtain ⟨s₁, hs₁, h₁⟩ := hstep s t i h hok.1
      obtain ⟨s', hs', h'⟩ := ih h₁ hok.2
      exact ⟨s', by rw [List.foldlM_cons, hs₁]; exact hs', h'⟩

/-- What the steps of a run return, in order. -/
def outputs (step : σ → ι → σ) (out : σ → ι → ω) : σ → List ι → List ω
  | _, [] => []
  | s, i :: is => out s i :: outputs step out (step s i) is

theorem outputs_append (step : σ → ι → σ) (out : σ → ι → ω) (s : σ) (is js : List ι) :
    outputs step out s (is ++ js) = outputs step out s is ++ outputs step out (run step s is) js := by
  induction is generalizing s with
  | nil => rfl
  | cons i is ih => rw [List.cons_append, outputs, outputs, ih, List.cons_append, run_cons]

/-- **Refinement along runs.** `abs` reads a concrete state as an abstract one and `label` a concrete
call as an abstract one.  If one admissible step commutes with `abs` and returns what the abstract
step returns, so does every admissible run. -/
theorem run_refines {step : σ → ι → σ} {out : σ → ι → ω} {ok : σ → ι → Prop} {Inv : σ → Prop}
    {step' : τ → κ → τ} {out' : τ → κ → ω} {abs : σ → τ} {label : ι → κ}
    (hinv : ∀ s i, Inv s → ok s i → Inv (step s i))
    (hstep : ∀ s i, Inv s → ok s i → abs (step s i) = step' (abs s) (label i))
    (hout : ∀ s i, Inv s → ok s i → out s i = out' (abs s) (label i))
    {s : σ} {is : List ι} (hs : Inv s) (hok : Admissible step ok s is) :
    abs (run step s is) = run step' (abs s) (is.map label)
      ∧ outputs step out s is = outputs step' out' (abs s) (is.map label) := by
  induction is generalizing s with
  | nil => exact ⟨rfl, rfl⟩
  | cons i is ih =>
      obtain ⟨hstate, houts⟩ := ih (hinv s i hs hok.1) hok.2
      rw [hstep s i hs hok.1] at hstate houts
      refine ⟨hstate, ?_⟩
      rw [List.map_cons, outputs, outputs, hout s i hs hok.1, houts]

end LightNet.Foundation
