/-
# LightNet.Foundation.Motion — how far something moves.

A step towards a point that is cut to a certain length, and the way that a machine covers in a run, when
each of its steps covers some.  The way there is at least the distance in the end, and at most what a
bound on each step adds up to.
-/
import LightNet.Foundation.Run
import Mathlib.Analysis.Normed.Module.Basic

namespace LightNet.Foundation

/-! ## One step -/

section

variable {E : Type*} [NormedAddCommGroup E] [NormedSpace ℝ E]

/-- The point `y`, or if that is more than `m` away the point at `m` in its direction. -/
noncomputable def stepTowards (m : ℝ) (x y : E) : E :=
  if dist x y ≤ m then y else x + (m / dist x y) • (y - x)

/-- **A cut step is as long as it may be.** -/
theorem dist_stepTowards {m : ℝ} (hm : 0 ≤ m) (x y : E) :
    dist x (stepTowards m x y) = min (dist x y) m := by
  unfold stepTowards
  split
  · rename_i hle
    rw [min_eq_left hle]
  · rename_i hfar
    have hlt : m < dist x y := not_le.mp hfar
    have hpos : 0 < dist x y := hm.trans_lt hlt
    rw [dist_self_add_right, norm_smul, ← dist_eq_norm' x y, Real.norm_of_nonneg (by positivity),
      div_mul_cancel₀ _ hpos.ne', min_eq_right hlt.le]

theorem dist_stepTowards_le {m : ℝ} (hm : 0 ≤ m) (x y : E) : dist x (stepTowards m x y) ≤ m :=
  (dist_stepTowards hm x y).trans_le (min_le_right _ _)

end

/-! ## A run -/

variable {σ ι : Type*} {step : σ → ι → σ}

/-- What the steps of a run come to, when each has a length. -/
def covered (step : σ → ι → σ) (len : σ → ι → ℝ) : σ → List ι → ℝ
  | _, [] => 0
  | s, i :: is => len s i + covered step len (step s i) is

/-- **The way is not shorter than the distance.** -/
theorem dist_run_le {X : Type*} [PseudoMetricSpace X] {place : σ → X} {len : σ → ι → ℝ}
    {ok : σ → ι → Prop} (hstep : ∀ s i, ok s i → dist (place s) (place (step s i)) ≤ len s i) {s : σ}
    {is : List ι} (hok : Admissible step ok s is) :
    dist (place s) (place (run step s is)) ≤ covered step len s is := by
  induction is generalizing s with
  | nil => exact (dist_self _).le
  | cons i is ih =>
      calc dist (place s) (place (run step (step s i) is))
          ≤ dist (place s) (place (step s i)) + dist (place (step s i)) (place (run step (step s i) is)) :=
            dist_triangle _ _ _
        _ ≤ len s i + covered step len (step s i) is := add_le_add (hstep s i hok.1) (ih hok.2)

/-- **Bounds on the steps add up.** -/
theorem covered_le {len : σ → ι → ℝ} {bound : ι → ℝ} {ok : σ → ι → Prop} {Inv : σ → Prop}
    (hinv : ∀ s i, Inv s → Inv (step s i)) (hlen : ∀ s i, Inv s → ok s i → len s i ≤ bound i) {s : σ}
    {is : List ι} (hs : Inv s) (hok : Admissible step ok s is) :
    covered step len s is ≤ (is.map bound).sum := by
  induction is generalizing s with
  | nil => exact le_rfl
  | cons i is ih =>
      rw [List.map_cons, List.sum_cons]
      exact add_le_add (hlen s i hs hok.1) (ih (hinv s i hs) hok.2)

end LightNet.Foundation
