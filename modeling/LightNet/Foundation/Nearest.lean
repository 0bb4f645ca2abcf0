/-
# LightNet.Foundation.Nearest — the search for the nearest.

A loop walks over some values and remembers the best one so far together with how far it is; the next
one takes its place if it counts and is nearer.  What is remembered in the end is the nearest of those
that count and are nearer than the limit that the loop has started with, in whatever order they come.
-/
import Mathlib.Data.List.Induction
import Mathlib.Order.Lattice

namespace LightNet.Foundation

variable {α κ β : Type*} [LinearOrder β]

section

variable (counts : α → Prop) [DecidablePred counts] (key : α → κ) (far : α → β)

/-- One turn of the loop. -/
def nearer (best : Option κ × β) (a : α) : Option κ × β :=
  if counts a ∧ far a < best.2 then (some (key a), far a) else best

/-- The values that have been passed, and what is remembered of them. -/
inductive Nearest (limit : β) (passed : List α) : Option κ × β → Prop
  | nobody (hnone : ∀ b ∈ passed, counts b → limit ≤ far b) : Nearest limit passed (none, limit)
  | found {a : α} (hmem : a ∈ passed) (hcounts : counts a) (hless : far a < limit)
      (hmin : ∀ b ∈ passed, counts b → far a ≤ far b) : Nearest limit passed (some (key a), far a)

end

variable {counts : α → Prop} [DecidablePred counts] {key : α → κ} {far : α → β} {limit : β}
  {passed : List α} {best : Option κ × β}

omit [DecidablePred counts] in
theorem Nearest.le_limit (h : Nearest counts key far limit passed best) : best.2 ≤ limit := by
  cases h with
  | nobody hnone => exact le_rfl
  | found hmem hcounts hless hmin => exact hless.le

omit [DecidablePred counts] in
theorem Nearest.le_of_mem (h : Nearest counts key far limit passed best) {b : α} (hb : b ∈ passed)
    (hcounts : counts b) : best.2 ≤ far b := by
  cases h with
  | nobody hnone => exact hnone b hb hcounts
  | found hmem hcounts' hless hmin => exact hmin b hb hcounts

/-- **One turn.** -/
theorem Nearest.step (h : Nearest counts key far limit passed best) (a : α) :
    Nearest counts key far limit (passed ++ [a]) (nearer counts key far best a) := by
  unfold nearer
  split
  · rename_i hnearer
    obtain ⟨hcounts, hless⟩ := hnearer
    refine .found (List.mem_append_right passed List.mem_cons_self) hcounts
      (hless.trans_le h.le_limit) fun b hb hcounts' => ?_
    rcases List.mem_append.mp hb with hb | hb
    · exact hless.le.trans (h.le_of_mem hb hcounts')
    · rw [List.mem_singleton.mp hb]
  · rename_i hnot
    have hlast : counts a → best.2 ≤ far a := fun hcounts =>
      not_lt.mp fun hless => hnot ⟨hcounts, hless⟩
    cases h with
    | nobody hnone =>
        refine .nobody fun b hb hcounts => ?_
        rcases List.mem_append.mp hb with hb | hb
        · exact hnone b hb hcounts
        · obtain rfl := List.mem_singleton.mp hb
          exact hlast hcounts
    | found hmem hcounts hless hmin =>
        refine .found (List.mem_append_left _ hmem) hcounts hless fun b hb hcounts' => ?_
        rcases List.mem_append.mp hb with hb | hb
        · exact hmin b hb hcounts'
        · obtain rfl := List.mem_singleton.mp hb
          exact hlast hcounts'

/-- **The whole loop**, for a turn that is `nearer` as long as what is remembered is within the limit. -/
theorem nearest_foldl {turn : Option κ × β → α → Option κ × β}
    (hturn : ∀ best a, best.2 ≤ limit → turn best a = nearer counts key far best a) (xs : List α) :
    Nearest counts key far limit xs (xs.foldl turn (none, limit)) := by
  induction xs using List.reverseRecOn with
  | nil => exact .nobody fun b hb => absurd hb List.not_mem_nil
  | append_singleton xs a ih =>
      rw [List.foldl_append, List.foldl_cons, List.foldl_nil, hturn _ a ih.le_limit]
      exact ih.step a

end LightNet.Foundation
