/-
# LightNet.Foundation.Buckets — counts by bucket, and their running totals.

A value is counted once, in the first bucket whose bound it does not exceed.  When the bounds ascend,
the running total up to a bound is the number of values that do not exceed that bound
(`totals_observed`).  The order in which the values came is not in that number.

Counts are taken in any additive monoid with a one, so that a counter that wraps is covered: the total
is then the number of values as that monoid casts it.
-/
import Mathlib.Algebra.Group.Basic
import Mathlib.Data.Nat.Cast.Defs
import Mathlib.Data.List.Basic

namespace LightNet.Foundation.Buckets

variable {α γ : Type*}

/-- One more in the bucket of the first bound that `v` does not exceed. -/
def count [LE α] [DecidableLE α] [Add γ] [One γ] (v : α) : List α → List γ → List γ
  | b :: bounds, n :: counts => if v ≤ b then (n + 1) :: counts else n :: count v bounds counts
  | _, counts => counts

/-- The running totals, after buckets that come to `acc`. -/
def totals [Add γ] (acc : γ) : List γ → List γ
  | [] => []
  | n :: counts => (acc + n) :: totals (acc + n) counts

@[simp] theorem length_count [LE α] [DecidableLE α] [Add γ] [One γ] (v : α) (bounds : List α)
    (counts : List γ) : (count v bounds counts).length = counts.length := by
  induction bounds generalizing counts with
  | nil => cases counts <;> rfl
  | cons b bounds ih =>
      cases counts with
      | nil => rfl
      | cons n counts =>
          rw [count]
          split
          · rfl
          · rw [List.length_cons, List.length_cons, ih]

/-- Two values are counted in either order. -/
theorem count_comm [LE α] [DecidableLE α] [Add γ] [One γ] (v w : α) (bounds : List α) (counts : List γ) :
    count v bounds (count w bounds counts) = count w bounds (count v bounds counts) := by
  induction bounds generalizing counts with
  | nil => cases counts <;> rfl
  | cons b bounds ih =>
      cases counts with
      | nil => rfl
      | cons n counts => by_cases hv : v ≤ b <;> by_cases hw : w ≤ b <;> simp [count, hv, hw, ih]

section

variable [AddCommMonoidWithOne γ]

/-! ## Totals -/

/-- What comes before the buckets is added to every total. -/
theorem totals_add (acc d : γ) (counts : List γ) :
    totals (acc + d) counts = (totals acc counts).map (· + d) := by
  induction counts generalizing acc with
  | nil => rfl
  | cons n counts ih =>
      have hswap : acc + d + n = acc + n + d := add_right_comm acc d n
      rw [totals, totals, List.map_cons, hswap, ih]

theorem totals_zero (bounds : List α) :
    totals (0 : γ) (List.replicate bounds.length 0) = bounds.map fun _ => 0 := by
  induction bounds with
  | nil => rfl
  | cons b bounds ih => rw [List.length_cons, List.replicate_succ, totals, add_zero, ih, List.map_cons]

variable [LE α] [DecidableLE α] [Std.IsPreorder α]

/-- **One value** adds one to the totals from its bound on. -/
theorem totals_count {v : α} {bounds : List α} (hsorted : bounds.Pairwise (· ≤ ·)) {counts : List γ}
    {acc : γ} {f : α → γ} (htotals : totals acc counts = bounds.map f) :
    totals acc (count v bounds counts) = bounds.map fun b => f b + if v ≤ b then 1 else 0 := by
  induction bounds generalizing counts acc with
  | nil =>
      have hnil : count v [] counts = counts := by cases counts <;> rfl
      rw [hnil, htotals]
      rfl
  | cons b bounds ih =>
      cases counts with
      | nil => simp [totals] at htotals
      | cons n counts =>
          obtain ⟨hle, hrest⟩ := List.pairwise_cons.mp hsorted
          rw [totals, List.map_cons] at htotals
          obtain ⟨hhead, htail⟩ := List.cons.inj htotals
          by_cases hv : v ≤ b
          · -- the later bounds are not exceeded either
            have hlater : bounds.map (fun b => f b + if v ≤ b then 1 else 0)
                = bounds.map fun b => f b + 1 := by
              refine List.map_congr_left fun c hc => ?_
              rw [if_pos (Std.le_trans hv (hle c hc))]
            rw [count, if_pos hv, totals, List.map_cons, if_pos hv, hlater, ← add_assoc, totals_add,
              htail, hhead, List.map_map]
            rfl
          · rw [count, if_neg hv, totals, List.map_cons, if_neg hv, add_zero, hhead]
            rw [hhead] at htail
            rw [ih hrest htail]

/-- **All values.** The total up to a bound grows by the number of the values that do not exceed it. -/
theorem totals_foldl_count {bounds : List α} (hsorted : bounds.Pairwise (· ≤ ·)) (vs : List α)
    {counts : List γ} {acc : γ} {f : α → γ} (htotals : totals acc counts = bounds.map f) :
    totals acc (vs.foldl (fun counts v => count v bounds counts) counts)
      = bounds.map fun b => f b + (vs.countP (· ≤ b) : ℕ) := by
  induction vs generalizing counts f with
  | nil => simpa using htotals
  | cons v vs ih =>
      rw [List.foldl_cons, ih (totals_count hsorted htotals)]
      refine List.map_congr_left fun b _ => ?_
      have hcons : (v :: vs).countP (· ≤ b) = vs.countP (· ≤ b) + if v ≤ b then 1 else 0 := by
        simp [List.countP_cons]
      rw [hcons, Nat.cast_add, add_comm (Nat.cast _), ← add_assoc, Nat.cast_ite, Nat.cast_one,
        Nat.cast_zero]

/-- **Running totals are cumulative counts.** -/
theorem totals_observed {bounds : List α} (hsorted : bounds.Pairwise (· ≤ ·)) (vs : List α) :
    totals (0 : γ)
        (vs.foldl (fun counts v => count v bounds counts) (List.replicate bounds.length 0))
      = bounds.map fun b => ((vs.countP (· ≤ b) : ℕ) : γ) := by
  rw [totals_foldl_count hsorted vs (totals_zero bounds)]
  exact List.map_congr_left fun b _ => zero_add _

end

end LightNet.Foundation.Buckets
