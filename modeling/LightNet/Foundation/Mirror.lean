/-
# LightNet.Foundation.Mirror — a table that has one entry for each registered object.

Objects carry a key of their own, and each is registered with some value or not at all.  A table
mirrors them when its entries are the registered objects with their values, each under its key.  As
keys are not shared, a mirror stays one when an object is registered, registered anew or released, and
the table is changed at its key alone; where an object is released and its entry stays, it is a mirror
no more.
-/
import LightNet.Foundation.UnorderedMap
import Mathlib.Logic.Function.Basic

namespace LightNet.Foundation

/-- The entries of `m` are the objects that `registered` gives a value, under their keys. -/
def Mirrors {κ ι ν : Type} [DecidableEq κ] (key : ι → κ) (registered : ι → Option ν)
    (m : UnorderedMap κ (ι × ν)) : Prop :=
  ∀ k i v, m.lookup k = some (i, v) ↔ key i = k ∧ registered i = some v

namespace Mirrors

variable {κ ι ν : Type} [DecidableEq κ] {key : ι → κ} {registered : ι → Option ν}
  {m : UnorderedMap κ (ι × ν)}

theorem empty (key : ι → κ) : Mirrors key (fun _ => (none : Option ν)) ∅ := by
  intro k i v
  simp

theorem lookup_eq (h : Mirrors key registered m) (hkey : Function.Injective key) (i : ι) :
    m.lookup (key i) = (registered i).map fun v => (i, v) := by
  cases hreg : registered i with
  | some v => exact (h (key i) i v).mpr ⟨rfl, hreg⟩
  | none =>
      cases hlook : m.lookup (key i) with
      | none => rfl
      | some e =>
          -- an entry under this key would be one of the object itself
          obtain ⟨j, v⟩ := e
          obtain ⟨hsame, hj⟩ := (h _ _ _).mp hlook
          obtain rfl := hkey hsame
          rw [hreg] at hj
          cases hj

theorem mem_iff (h : Mirrors key registered m) (hkey : Function.Injective key) (i : ι) :
    key i ∈ m ↔ (registered i).isSome := by
  rw [← AList.lookup_isSome, h.lookup_eq hkey, Option.isSome_map]

variable [DecidableEq ι]

/-- An object is registered, or registered anew. -/
theorem assign (h : Mirrors key registered m) (hkey : Function.Injective key) (i : ι) (v : ν) :
    Mirrors key (Function.update registered i (some v)) (UnorderedMap.assign (key i) (i, v) m) := by
  intro k j w
  rw [UnorderedMap.lookup_assign]
  by_cases hj : j = i
  · subst hj
    rw [Function.update_self]
    by_cases hk : k = key j
    · subst hk
      simp
    · rw [if_neg hk, h]
      exact iff_of_false (fun hold => hk hold.1.symm) fun hnew => hk hnew.1.symm
  · rw [Function.update_of_ne hj]
    by_cases hk : k = key i
    · subst hk
      have hne : key j ≠ key i := fun heq => hj (hkey heq)
      simp [hne, Ne.symm hj]
    · rw [if_neg hk, h]

/-- An object is released. -/
theorem erase (h : Mirrors key registered m) (hkey : Function.Injective key) (i : ι) :
    Mirrors key (Function.update registered i none) (m.erase (key i)) := by
  intro k j w
  rw [UnorderedMap.lookup_erase]
  by_cases hj : j = i
  · subst hj
    rw [Function.update_self]
    by_cases hk : k = key j
    · subst hk
      simp
    · rw [if_neg hk, h]
      exact iff_of_false (fun hold => hk hold.1.symm) fun hnew => hk hnew.1.symm
  · rw [Function.update_of_ne hj]
    by_cases hk : k = key i
    · subst hk
      have hne : key j ≠ key i := fun heq => hj (hkey heq)
      simp [hne]
    · rw [if_neg hk, h]

/-- A table in which the entry of a released object stays is no mirror. -/
theorem not_stale (h : Mirrors key registered m) {i : ι} {v : ν}
    (hi : registered i = some v) : ¬ Mirrors key (Function.update registered i none) m := by
  intro hstale
  have hlook : m.lookup (key i) = some (i, v) := (h _ _ _).mpr ⟨rfl, hi⟩
  have hnone : Function.update registered i none i = some v := ((hstale _ _ _).mp hlook).2
  rw [Function.update_self] at hnone
  cases hnone

end Mirrors

end LightNet.Foundation
