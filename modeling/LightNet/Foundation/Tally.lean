/-
# LightNet.Foundation.Tally — sums over the values of a hash table.

A sum over a table depends on what is mapped to what, and not on how the table is laid out.  So it is
followed through a change of the table by what the change does to the lookups: one count is replaced,
or a new one is added.
-/
import LightNet.Foundation.UnorderedMap
import Mathlib.Algebra.BigOperators.Group.Finset.Basic
import Mathlib.Algebra.GroupWithZero.Nat
import Mathlib.Logic.Function.Basic

namespace LightNet.Foundation.UnorderedMap

variable {κ ν : Type}

/-- The sum of `f` over the mapped values. -/
def tally (f : ν → Nat) (m : UnorderedMap κ ν) : Nat := ((pairs m).map fun e => f e.2).sum

variable [DecidableEq κ]

/-- What each key counts for. -/
def counts (f : ν → Nat) (m : UnorderedMap κ ν) (k : κ) : Option Nat := (m.lookup k).map f

theorem mem_keys_iff_counts {f : ν → Nat} {m : UnorderedMap κ ν} {k : κ} :
    k ∈ m.keys.toFinset ↔ (counts f m k).isSome := by
  rw [List.mem_toFinset, ← AList.mem_keys, counts, Option.isSome_map, AList.lookup_isSome]

theorem tally_eq_sum (f : ν → Nat) (m : UnorderedMap κ ν) :
    tally f m = ∑ k ∈ m.keys.toFinset, (counts f m k).getD 0 := by
  have hentry : (pairs m).map (fun e => f e.2)
      = (pairs m).map fun e => (counts f m e.1).getD 0 := by
    apply List.map_congr_left
    rintro ⟨k, v⟩ hmem
    rw [counts, mem_pairs_iff.mp hmem]
    rfl
  have hkeys : (pairs m).map (fun e => (counts f m e.1).getD 0)
      = m.keys.map fun k => (counts f m k).getD 0 := by
    rw [← pairs_keys, List.map_map]
    rfl
  rw [tally, hentry, hkeys, List.sum_toFinset _ m.keys_nodup]

/-- A sum is the count of one key and the sum over the others. -/
theorem tally_eq_add (f : ν → Nat) (m : UnorderedMap κ ν) (k : κ) :
    tally f m = (counts f m k).getD 0
      + ∑ k' ∈ m.keys.toFinset.erase k, (counts f m k').getD 0 := by
  rw [tally_eq_sum]
  by_cases hk : k ∈ m.keys.toFinset
  · exact (Finset.add_sum_erase _ (fun k' => (counts f m k').getD 0) hk).symm
  · have hnone : counts f m k = none := by
      rw [mem_keys_iff_counts (f := f), Bool.not_eq_true, Option.isSome_eq_false_iff,
        Option.isNone_iff_eq_none] at hk
      exact hk
    rw [Finset.erase_eq_of_notMem hk, hnone, Option.getD_none, Nat.zero_add]

/-- **One count is replaced**, or added to the others. -/
theorem tally_update {μ : Type} {f : ν → Nat} {g : μ → Nat} {m : UnorderedMap κ ν}
    {m' : UnorderedMap κ μ} {k : κ} {n : Nat}
    (h : counts g m' = Function.update (counts f m) k (some n)) :
    tally g m' + (counts f m k).getD 0 = tally f m + n := by
  have hself : counts g m' k = some n := by rw [h, Function.update_self]
  have hkeys : m'.keys.toFinset.erase k = m.keys.toFinset.erase k := by
    ext k'
    rw [Finset.mem_erase, Finset.mem_erase, and_congr_right_iff]
    intro hne
    rw [mem_keys_iff_counts (f := g), mem_keys_iff_counts (f := f), h, Function.update_of_ne hne]
  have hrest : ∑ k' ∈ m.keys.toFinset.erase k, (counts g m' k').getD 0
      = ∑ k' ∈ m.keys.toFinset.erase k, (counts f m k').getD 0 := by
    apply Finset.sum_congr rfl
    intro k' hk'
    rw [h, Function.update_of_ne (Finset.ne_of_mem_erase hk')]
  rw [tally_eq_add g m' k, tally_eq_add f m k, hself, hkeys, hrest, Option.getD_some]
  omega

/-- Tables with the same counts have the same sum. -/
theorem tally_congr {μ : Type} {f : ν → Nat} {g : μ → Nat} {m : UnorderedMap κ ν}
    {m' : UnorderedMap κ μ} (h : counts g m' = counts f m) : tally g m' = tally f m := by
  have hkeys : m'.keys.toFinset = m.keys.toFinset := by
    ext k
    rw [mem_keys_iff_counts (f := g), mem_keys_iff_counts (f := f), h]
  rw [tally_eq_sum, tally_eq_sum, hkeys, h]

end LightNet.Foundation.UnorderedMap
