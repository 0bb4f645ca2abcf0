/-
# LightNet.Foundation.Latest — a register that keeps the latest value.

Values carry a key, and a value is taken over when its key is larger than the one of the value that is
there.  Of a list of values the one with the largest key stays, in whatever order they come and however
often, as long as equal keys mean equal values.
-/
import Mathlib.Order.Lattice

namespace LightNet.Foundation

variable {α κ : Type*} [LinearOrder κ] (key : α → κ)

/-- The register `a` after the value `b`. -/
def latest (a b : α) : α := if key a < key b then b else a

/-- Values with the same key are the same. -/
def KeyedBy (xs : List α) : Prop := ∀ a ∈ xs, ∀ b ∈ xs, key a = key b → a = b

variable {key}

theorem latest_of_lt {a b : α} (h : key a < key b) : latest key a b = b := if_pos h

theorem latest_of_le {a b : α} (h : key b ≤ key a) : latest key a b = a := if_neg (not_lt.mpr h)

/-- Nothing later comes: the register stays. -/
theorem foldl_latest_of_le {a : α} {xs : List α} (h : ∀ b ∈ xs, key b ≤ key a) :
    xs.foldl (latest key) a = a := by
  induction xs with
  | nil => rfl
  | cons b xs ih =>
      rw [List.foldl_cons, latest_of_le (h b List.mem_cons_self)]
      exact ih fun c hc => h c (List.mem_cons_of_mem b hc)

/-- The value with the largest key stays, if it is later than what was there. -/
theorem foldl_latest_of_max {a b : α} {xs : List α} (hkeyed : KeyedBy key xs) (hb : b ∈ xs)
    (hmax : ∀ c ∈ xs, key c ≤ key b) (hlater : key a < key b) : xs.foldl (latest key) a = b := by
  induction xs generalizing a with
  | nil => exact absurd hb List.not_mem_nil
  | cons c xs ih =>
      have hrest : ∀ d ∈ xs, key d ≤ key b := fun d hd => hmax d (List.mem_cons_of_mem c hd)
      have hkeyed' : KeyedBy key xs := fun d hd e he =>
        hkeyed d (List.mem_cons_of_mem c hd) e (List.mem_cons_of_mem c he)
      rw [List.foldl_cons]
      rcases (hmax c List.mem_cons_self).lt_or_eq with hless | hsame
      · -- something earlier comes first
        have hne : b ≠ c := by
          rintro rfl
          exact lt_irrefl _ hless
        apply ih hkeyed' (List.mem_of_ne_of_mem hne hb) hrest
        unfold latest
        split
        · exact hless
        · exact hlater
      · obtain rfl : c = b := hkeyed c List.mem_cons_self b hb hsame
        rw [latest_of_lt hlater]
        exact foldl_latest_of_le hrest

/-- Some value of a list has the largest key. -/
theorem exists_max_key {xs : List α} (hne : xs ≠ []) : ∃ b ∈ xs, ∀ c ∈ xs, key c ≤ key b := by
  induction xs with
  | nil => exact absurd rfl hne
  | cons a xs ih =>
      by_cases hxs : xs = []
      · subst hxs
        refine ⟨a, List.mem_cons_self, fun c hc => ?_⟩
        rw [List.mem_singleton.mp hc]
      · obtain ⟨b, hb, hmax⟩ := ih hxs
        rcases le_total (key a) (key b) with hle | hle
        · refine ⟨b, List.mem_cons_of_mem a hb, fun c hc => ?_⟩
          rcases List.mem_cons.mp hc with rfl | hc
          · exact hle
          · exact hmax c hc
        · refine ⟨a, List.mem_cons_self, fun c hc => ?_⟩
          rcases List.mem_cons.mp hc with rfl | hc
          · exact le_rfl
          · exact (hmax c hc).trans hle

/-- **Order and repetition do not matter.** -/
theorem foldl_latest_congr {a : α} {xs ys : List α} (hkeyed : KeyedBy key xs)
    (hsame : ∀ b, b ∈ ys ↔ b ∈ xs) : ys.foldl (latest key) a = xs.foldl (latest key) a := by
  by_cases hearly : ∀ b ∈ xs, key b ≤ key a
  · rw [foldl_latest_of_le hearly, foldl_latest_of_le fun b hb => hearly b ((hsame b).mp hb)]
  · obtain ⟨b, hb⟩ := not_forall.mp hearly
    obtain ⟨hb, hlater⟩ := Classical.not_imp.mp hb
    obtain ⟨c, hc, hmax⟩ : ∃ c ∈ xs, ∀ d ∈ xs, key d ≤ key c :=
      exists_max_key (List.ne_nil_of_mem hb)
    have hlater : key a < key c := (not_le.mp hlater).trans_le (hmax b hb)
    have hkeyed' : KeyedBy key ys := fun d hd e he =>
      hkeyed d ((hsame d).mp hd) e ((hsame e).mp he)
    rw [foldl_latest_of_max hkeyed hc hmax hlater,
      foldl_latest_of_max hkeyed' ((hsame c).mpr hc) (fun d hd => hmax d ((hsame d).mp hd)) hlater]

end LightNet.Foundation
