/-
# LightNet.Foundation.Decimal — decimal text of natural numbers, and text with separators.

`decimal n` is what `std::to_string` writes.  It determines `n` (`decimal_injective`) and contains
digits only, so decimals put together with a separator that is no digit can be taken apart again
(`append_separator_inj`).
-/
import LightNet.Foundation.LittleEndian

namespace LightNet.Foundation

/-- The ASCII digit. -/
def digit (n : Nat) : UInt8 := UInt8.ofNat (48 + n % 10)

/-- The last `w` decimal digits of `n`, without leading zeros. -/
def decimalDigits : Nat → Nat → Bytes
  | 0, _ => []
  | w + 1, n => if n < 10 then [digit n] else decimalDigits w (n / 10) ++ [digit n]

/-- `std::to_string(n)` for an unsigned integer of at most 64 bits. -/
def decimal (n : Nat) : Bytes := decimalDigits 20 n

/-- The number that a string of digits stands for. -/
def ofDecimal (ds : Bytes) : Nat := ds.foldl (fun v d => 10 * v + (d.toNat - 48)) 0

theorem digit_toNat (n : Nat) : (digit n).toNat = 48 + n % 10 := by
  have : n % 10 < 10 := Nat.mod_lt _ (by decide)
  rw [digit, UInt8.toNat_ofNat', Nat.mod_eq_of_lt (by omega)]

/-! ## Reading back -/

theorem ofDecimal_snoc (ds : Bytes) (n : Nat) :
    ofDecimal (ds ++ [digit n]) = 10 * ofDecimal ds + n % 10 := by
  rw [ofDecimal, List.foldl_append, List.foldl_cons, List.foldl_nil, digit_toNat,
    Nat.add_sub_cancel_left]
  rfl

theorem ofDecimal_decimalDigits {w n : Nat} (h : n < 10 ^ w) : ofDecimal (decimalDigits w n) = n := by
  induction w generalizing n with
  | zero =>
      rw [pow_zero] at h
      rw [decimalDigits, Nat.lt_one_iff.mp h]
      rfl
  | succ w ih =>
      rw [decimalDigits]
      split
      · rename_i hn
        rw [← List.nil_append [digit n], ofDecimal_snoc]
        show 10 * 0 + n % 10 = n
        omega
      · rw [pow_succ] at h
        rw [ofDecimal_snoc, ih (by omega)]
        omega

theorem decimal_injective {m n : Nat} (hm : m < 2 ^ 64) (hn : n < 2 ^ 64)
    (h : decimal m = decimal n) : m = n := by
  have hpow : (2 : Nat) ^ 64 ≤ 10 ^ 20 := by decide
  rw [← ofDecimal_decimalDigits (lt_of_lt_of_le hm hpow),
    ← ofDecimal_decimalDigits (lt_of_lt_of_le hn hpow)]
  exact congrArg ofDecimal h

theorem length_decimalDigits_le (w n : Nat) : (decimalDigits w n).length ≤ w := by
  induction w generalizing n with
  | zero => exact le_rfl
  | succ w ih =>
      rw [decimalDigits]
      split
      · exact Nat.succ_le_succ (Nat.zero_le w)
      · rw [List.length_append, List.length_singleton]
        exact Nat.succ_le_succ (ih (n / 10))

/-- Only digits are written. -/
theorem mem_decimal {n : Nat} {c : UInt8} (h : c ∈ decimal n) : 48 ≤ c.toNat ∧ c.toNat ≤ 57 := by
  have hdigits : ∀ w n, c ∈ decimalDigits w n → ∃ k, c = digit k := by
    intro w
    induction w with
    | zero =>
        intro n hmem
        exact absurd hmem (by simp [decimalDigits])
    | succ w ih =>
        intro n hmem
        rw [decimalDigits] at hmem
        split at hmem
        · exact ⟨n, List.mem_singleton.mp hmem⟩
        · rcases List.mem_append.mp hmem with hmem | hmem
          · exact ih _ hmem
          · exact ⟨n, List.mem_singleton.mp hmem⟩
  obtain ⟨k, rfl⟩ := hdigits 20 n h
  rw [digit_toNat]
  omega

/-- What stands before the first separator, and what stands behind it, are determined. -/
theorem append_separator_inj {s : UInt8} {a a' b b' : Bytes} (ha : s ∉ a) (ha' : s ∉ a')
    (h : a ++ s :: b = a' ++ s :: b') : a = a' ∧ b = b' := by
  -- whichever text ends first, its separator would have to be a character of the other
  induction a generalizing a' with
  | nil =>
      cases a' with
      | nil => exact ⟨rfl, (List.cons.inj h).2⟩
      | cons x a' =>
          have hx := (List.cons.inj h).1
          exact absurd (List.mem_cons.mpr (.inl hx)) ha'
  | cons x a ih =>
      cases a' with
      | nil =>
          have hx := (List.cons.inj h).1
          exact absurd (List.mem_cons.mpr (.inl hx.symm)) ha
      | cons y a' =>
          obtain ⟨hxy, htail⟩ := List.cons.inj h
          have hs : s ∉ a := by
            intro hmem
            exact ha (List.mem_cons_of_mem _ hmem)
          have hs' : s ∉ a' := by
            intro hmem
            exact ha' (List.mem_cons_of_mem _ hmem)
          obtain ⟨rfl, rfl⟩ := ih hs hs' htail
          exact ⟨by rw [hxy], rfl⟩

end LightNet.Foundation
