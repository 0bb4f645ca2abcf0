/-
# LightNet.Foundation.Registry — who is bound to what, one to one.

A registry binds keys to values so that no key has two values and no value has two keys: it is a
partial equivalence, Mathlib's `PEquiv`, and a state that is not one to one cannot be written down.
Three changes are possible: a free value is enrolled under a free key, a key is released, and a value
moves to a free key.

A program holds a registry in two places, a table from keys to values and something it reads the key
of a value from.  `length_eq` says that the two then list equally many bindings.
-/
import Mathlib.Data.List.Nodup
import Mathlib.Data.PEquiv
import Mathlib.Logic.Relation

namespace LightNet.Foundation.Registry

variable {κ β : Type*}

theorem symm_apply_iff (e : κ ≃. β) {k : κ} {b : β} : e.symm b = some k ↔ e k = some b :=
  e.eq_some_iff

/-! ## Counting -/

/-- **The keys in use and the values in use are equally many**, however the two are listed. -/
theorem length_eq (e : κ ≃. β) {keys : List κ} {vals : List β} (hkeys : keys.Nodup)
    (hvals : vals.Nodup) (hk : ∀ k, k ∈ keys ↔ ∃ b, e k = some b)
    (hv : ∀ b, b ∈ vals ↔ ∃ k, e.symm b = some k) : keys.length = vals.length := by
  -- the values of the listed keys are the listed values, in some order
  have hperm : (keys.filterMap e).Perm vals := by
    rw [List.perm_ext_iff_of_nodup _ hvals]
    · intro b
      rw [List.mem_filterMap, hv]
      constructor
      · rintro ⟨k, -, hb⟩
        exact ⟨k, (symm_apply_iff e).mpr hb⟩
      · rintro ⟨k, hb⟩
        have hb := (symm_apply_iff e).mp hb
        exact ⟨k, (hk k).mpr ⟨b, hb⟩, hb⟩
    · apply List.Nodup.filterMap _ hkeys
      intro k k' b hx hy
      exact e.inj hx hy
  rw [← hperm.length_eq]
  symm
  rw [List.length_filterMap_eq_countP, List.countP_eq_length]
  intro k hmem
  obtain ⟨b, hb⟩ := (hk k).mp hmem
  simp [hb]

/-! ## The changes -/

variable [DecidableEq κ] [DecidableEq β]

/-- Bind a free value to a free key. -/
def enroll (e : κ ≃. β) (k : κ) (b : β) (hk : e k = none) (hb : e.symm b = none) : κ ≃. β where
  toFun := Function.update e k (some b)
  invFun := Function.update e.symm b (some k)
  inv := by
    intro x y
    by_cases hx : x = k
    · subst hx
      by_cases hy : y = b
      · simp [hy]
      · -- `x` was free, so nothing else points to it
        have : e.symm y ≠ some x := by
          intro h
          rw [symm_apply_iff, hk] at h
          cases h
        simp [Function.update_of_ne hy, Ne.symm hy, this]
    · by_cases hy : y = b
      · subst hy
        have : e x ≠ some y := by
          intro h
          rw [← symm_apply_iff, hb] at h
          cases h
        simp [Function.update_of_ne hx, Ne.symm hx, this]
      · simp [Function.update_of_ne hx, Function.update_of_ne hy, symm_apply_iff]

/-- Take the binding of a key away. -/
def release (e : κ ≃. β) (k : κ) (b : β) (h : e k = some b) : κ ≃. β where
  toFun := Function.update e k none
  invFun := Function.update e.symm b none
  inv := by
    intro x y
    by_cases hx : x = k
    · subst hx
      by_cases hy : y = b
      · simp [hy]
      · have : e.symm y ≠ some x := by
          intro h'
          rw [symm_apply_iff, h] at h'
          exact hy (Option.some.inj h').symm
        simp [Function.update_of_ne hy, this]
    · by_cases hy : y = b
      · subst hy
        have : e x ≠ some y := by
          intro h'
          rw [← symm_apply_iff, (symm_apply_iff e).mpr h] at h'
          exact hx (Option.some.inj h').symm
        simp [Function.update_of_ne hx, this]
      · simp [Function.update_of_ne hx, Function.update_of_ne hy, symm_apply_iff]

variable {e : κ ≃. β} {k k' : κ} {b : β}

@[simp] theorem enroll_apply (hk : e k = none) (hb : e.symm b = none) (x : κ) :
    enroll e k b hk hb x = Function.update e k (some b) x := rfl

@[simp] theorem enroll_symm_apply (hk : e k = none) (hb : e.symm b = none) (y : β) :
    (enroll e k b hk hb).symm y = Function.update e.symm b (some k) y := rfl

@[simp] theorem release_apply (h : e k = some b) (x : κ) :
    release e k b h x = Function.update e k none x := rfl

@[simp] theorem release_symm_apply (h : e k = some b) (y : β) :
    (release e k b h).symm y = Function.update e.symm b none y := rfl

/-- Give a bound value another key: release the old one, then enroll under the new one. -/
def move (e : κ ≃. β) (k k' : κ) (b : β) (h : e k = some b) (hk' : e k' = none) : κ ≃. β :=
  enroll (release e k b h) k' b
    (by
      have : k' ≠ k := by
        rintro rfl
        exact absurd (h.symm.trans hk') (by simp)
      rw [release_apply, Function.update_of_ne this, hk'])
    (by simp)

@[simp] theorem move_apply (h : e k = some b) (hk' : e k' = none) (x : κ) :
    move e k k' b h hk' x = Function.update (Function.update e k none) k' (some b) x := rfl

@[simp] theorem move_symm_apply (h : e k = some b) (hk' : e k' = none) (y : β) :
    (move e k k' b h hk').symm y = Function.update e.symm b (some k') y := by
  show Function.update (Function.update e.symm b none) b (some k') y = _
  rw [Function.update_idem]

/-- One change, or none. -/
inductive Step (e : κ ≃. β) : (κ ≃. β) → Prop
  | stay : Step e e
  | enroll (k : κ) (b : β) (hk : e k = none) (hb : e.symm b = none) : Step e (enroll e k b hk hb)
  | release (k : κ) (b : β) (h : e k = some b) : Step e (release e k b h)
  | move (k k' : κ) (b : β) (h : e k = some b) (hk' : e k' = none) : Step e (move e k k' b h hk')

/-- Any number of changes. -/
abbrev Steps : (κ ≃. β) → (κ ≃. β) → Prop := Relation.ReflTransGen Step

end LightNet.Foundation.Registry
