/-
# LightNet.Game.FloatLaws — what the game relies on when it compares `float`s.

A timer that is counted down stays below where it was, and is at least zero once it has been clamped;
that the steps are rounded does not matter.  These are the laws of `FloatOrder`, and `Binary32` has
them: its operations are the ones of `Foundation.FloatOrder` on the unpacked bits.
-/
import LightNet.Foundation.FloatOrder
import LightNet.Game.Float

namespace LightNet.Game

open LightNet.Foundation
open FloatArith (lt le)
open Float.Model (Format UnpackedFloat)
open Float.Model.UnpackedFloat

/-- What is known of the order of floats.  A float that is at most itself is a number, and one that is
below some other is not infinite. -/
class FloatOrder (F : Type) [FloatArith F] : Prop where
  number_of_le {x y : F} : le x y = true → le x x = true ∧ le y y = true
  le_trans {x y z : F} : le x y = true → le y z = true → le x z = true
  lt_of_le_of_lt {x y z : F} : le x y = true → lt y z = true → lt x z = true
  le_of_not_lt {x y : F} : le x x = true → le y y = true → lt x y = false → le y x = true
  natCast_nonneg (n : ℕ) : le (0.0 : F) (n : F) = true
  div_nonneg {x y z : F} : le 0.0 x = true → lt 0.0 y = true → lt y z = true → le 0.0 (x / y) = true
  sub_le {x y z : F} : lt 0.0 x = true → lt x z = true → le 0.0 y = true → le (x - y) x = true
  zero_le_five : le (0.0 : F) 5.0 = true
  five_lt_thousand : lt (5.0 : F) 1000.0 = true
  zero_lt_thousand : lt (0.0 : F) 1000.0 = true
  thousand_lt_ten_thousand : lt (1000.0 : F) 10000.0 = true

namespace Binary32

/-- The number behind the bits. -/
def unpacked (x : Binary32) : UnpackedFloat := unpack Format.binary32 x.bits.toBitVec

theorem bias_pos : 0 < Format.binary32.exponentBias := by decide

theorem canonical_unpacked (x : Binary32) : Canonical Format.binary32 x.unpacked :=
  canonical_unpack bias_pos _

/-- To read the bits as a float and back loses nothing but the payload of a NaN. -/
theorem unpack_value (x : Binary32) : x.value.toModel.unpack = x.unpacked :=
  unpack_pack bias_pos x.canonical_unpacked

/-! ## Comparisons -/

theorem le_iff (x y : Binary32) :
    le x y = true ↔ x.unpacked.isNaN = false ∧ y.unpacked.isNaN = false
      ∧ rank x.unpacked ≤ rank y.unpacked := by
  have hle : le x y = x.value.toModel.unpack.le y.value.toModel.unpack := Bool.decide_eq_true
  rw [hle, unpack_value, unpack_value]
  exact le_iff_rank

theorem lt_iff (x y : Binary32) :
    lt x y = true ↔ x.unpacked.isNaN = false ∧ y.unpacked.isNaN = false
      ∧ rank x.unpacked < rank y.unpacked := by
  have hlt : lt x y = x.value.toModel.unpack.lt y.value.toModel.unpack := Bool.decide_eq_true
  rw [hlt, unpack_value, unpack_value]
  exact lt_iff_rank

theorem unpacked_zero : (0.0 : Binary32).unpacked = .zero .positive := by
  have hbits : (0.0 : Binary32) = ⟨0⟩ := by decide +kernel
  rw [hbits]
  exact @unpack_packedZero Format.binary32 .positive

theorem nonneg_iff (x : Binary32) : le 0.0 x = true ↔ Nonneg x.unpacked := by
  rw [le_iff, unpacked_zero]
  exact and_iff_right rfl

theorem unpacked_sub (x y : Binary32) :
    (x - y).unpacked = unpack Format.binary32 (pack Format.binary32
      (UnpackedFloat.sub Format.binary32 x.unpacked y.unpacked)) := by
  rw [← unpack_value x, ← unpack_value y]
  rfl

theorem unpacked_div (x y : Binary32) :
    (x / y).unpacked = unpack Format.binary32 (pack Format.binary32
      (UnpackedFloat.div Format.binary32 x.unpacked y.unpacked)) := by
  rw [← unpack_value x, ← unpack_value y]
  rfl

/-- What is above zero and below some number. -/
theorem unpacked_finite {x z : Binary32} (hpos : lt 0.0 x = true) (hlt : lt x z = true) :
    ∃ m e hm, x.unpacked = .finite .positive m e hm := by
  rw [lt_iff, unpacked_zero] at hpos
  exact finite_of_between hpos.2.1 hpos.2.2 ((lt_iff x z).mp hlt).2.2

/-- A natural number is converted exactly or by a product of positive numbers. -/
theorem signed_ofNat (n : ℕ) : Signed .positive (Float32.ofNat n).toModel.unpack := by
  show Signed .positive (Float32.ofScientific n false 0).toModel.unpack
  unfold Float32.ofScientific
  split
  · have hone : (Float32.ofBits 0x3F800000).toModel.unpack
        = .finite .positive (2 ^ 23) (-23) (by decide) := by rfl
    have hnat : Signed .positive (n.toUInt64.toFloat32).toModel.unpack :=
      (signed_normalize (Int.natCast_nonneg _) 0).unpack_pack bias_pos
    have hmul : Signed .positive (UnpackedFloat.mul Format.binary32
        (n.toUInt64.toFloat32).toModel.unpack (Float32.ofBits 0x3F800000).toModel.unpack) := by
      rw [hone]
      exact hnat.mul _ _
    exact hmul.unpack_pack bias_pos
  · exact (signed_ofScientific n _).unpack_pack bias_pos

instance : FloatOrder Binary32 where
  number_of_le {x y} h := by
    obtain ⟨hx, hy, -⟩ := (le_iff x y).mp h
    exact ⟨(le_iff x x).mpr ⟨hx, hx, le_rfl⟩, (le_iff y y).mpr ⟨hy, hy, le_rfl⟩⟩
  le_trans {x y z} hxy hyz := by
    obtain ⟨hx, -, hxy⟩ := (le_iff x y).mp hxy
    obtain ⟨-, hz, hyz⟩ := (le_iff y z).mp hyz
    exact (le_iff x z).mpr ⟨hx, hz, hxy.trans hyz⟩
  lt_of_le_of_lt {x y z} hxy hyz := by
    obtain ⟨hx, -, hxy⟩ := (le_iff x y).mp hxy
    obtain ⟨-, hz, hyz⟩ := (lt_iff y z).mp hyz
    exact (lt_iff x z).mpr ⟨hx, hz, hxy.trans_lt hyz⟩
  le_of_not_lt {x y} hx hy hlt := by
    have hx := ((le_iff x x).mp hx).1
    have hy := ((le_iff y y).mp hy).1
    refine (le_iff y x).mpr ⟨hy, hx, le_of_not_gt fun hrank => ?_⟩
    rw [(lt_iff x y).mpr ⟨hx, hy, hrank⟩] at hlt
    cases hlt
  natCast_nonneg n := by
    rw [nonneg_iff]
    exact (signed_ofNat n).nonneg
  div_nonneg {x y z} hx hy hyz := by
    obtain ⟨m, e, hm, hfinite⟩ := unpacked_finite hy hyz
    rw [nonneg_iff] at hx ⊢
    rw [unpacked_div, hfinite]
    exact hx.div bias_pos e hm
  sub_le {x y z} hx hxz hy := by
    obtain ⟨m, e, hm, hfinite⟩ := unpacked_finite hx hxz
    have hcanon := x.canonical_unpacked
    rw [nonneg_iff] at hy
    rw [hfinite] at hcanon
    rw [le_iff, unpacked_sub, hfinite]
    obtain ⟨hnum, hrank⟩ := LightNet.Foundation.sub_le bias_pos hm hcanon hy
    exact ⟨hnum, rfl, hrank⟩
  zero_le_five := by decide +kernel
  five_lt_thousand := by decide +kernel
  zero_lt_thousand := by decide +kernel
  thousand_lt_ten_thousand := by decide +kernel

end Binary32

end LightNet.Game
