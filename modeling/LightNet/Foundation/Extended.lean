/-
# LightNet.Foundation.Extended — numbers with the special values of IEEE 754.

A number is finite, infinite or not a number.  Finite numbers are real ones, and nothing is rounded;
what is computed from the special values follows the standard: `inf - inf`, `inf * 0` and `inf / inf` are
not numbers, a finite number over an infinite one is zero, and every comparison with NaN is false.  A
zero has no sign here.
-/
import Mathlib.Analysis.SpecialFunctions.Trigonometric.Basic

namespace LightNet.Foundation

/-- A finite number, an infinite one (`true` for the negative one), or not a number. -/
inductive Extended where
  | finite (x : ℝ)
  | inf (neg : Bool)
  | nan

namespace Extended

noncomputable instance : NatCast Extended := ⟨fun n => finite n⟩

noncomputable instance : IntCast Extended := ⟨fun i => finite i⟩

noncomputable instance : OfScientific Extended :=
  ⟨fun m s e => finite (OfScientific.ofScientific m s e)⟩

noncomputable instance : Neg Extended where
  neg
    | finite x => finite (-x)
    | inf s => inf !s
    | nan => nan

noncomputable instance : Add Extended where
  add
    | finite x, finite y => finite (x + y)
    | finite _, inf t => inf t
    | inf s, finite _ => inf s
    | inf s, inf t => if s = t then inf s else nan
    | nan, _ => nan
    | _, nan => nan

noncomputable instance : Sub Extended where
  sub a b := a + -b

noncomputable instance : Mul Extended where
  mul
    | finite x, finite y => finite (x * y)
    | finite x, inf t => if x = 0 then nan else inf (decide (x < 0) ^^ t)
    | inf s, finite y => if y = 0 then nan else inf (s ^^ decide (y < 0))
    | inf s, inf t => inf (s ^^ t)
    | nan, _ => nan
    | _, nan => nan

noncomputable instance : Div Extended where
  div
    | finite x, finite y =>
        if y = 0 then if x = 0 then nan else inf (decide (x < 0)) else finite (x / y)
    | finite _, inf _ => finite 0
    | inf s, finite y => inf (s ^^ decide (y < 0))
    | inf _, inf _ => nan
    | nan, _ => nan
    | _, nan => nan

/-- The root of a negative number is no number. -/
noncomputable def sqrt : Extended → Extended
  | finite x => if x < 0 then nan else finite √x
  | inf s => if s then nan else inf s
  | nan => nan

/-- The sine of an infinity is no number. -/
noncomputable def sin : Extended → Extended
  | finite x => finite (Real.sin x)
  | _ => nan

/-- The cosine of an infinity is no number. -/
noncomputable def cos : Extended → Extended
  | finite x => finite (Real.cos x)
  | _ => nan

/-- `<`, false where one side is no number. -/
noncomputable def lt : Extended → Extended → Bool
  | finite x, finite y => decide (x < y)
  | finite _, inf t => !t
  | inf s, finite _ => s
  | inf s, inf t => s && !t
  | nan, _ => false
  | _, nan => false

/-- `<=`, false where one side is no number. -/
noncomputable def le : Extended → Extended → Bool
  | finite x, finite y => decide (x ≤ y)
  | finite _, inf t => !t
  | inf s, finite _ => s
  | inf s, inf t => s || !t
  | nan, _ => false
  | _, nan => false

/-! ## Finite numbers -/

@[simp] theorem finite_sub (x y : ℝ) : finite x - finite y = finite (x - y) :=
  congrArg finite (sub_eq_add_neg x y).symm

theorem finite_div {y : ℝ} (hy : y ≠ 0) (x : ℝ) : finite x / finite y = finite (x / y) := if_neg hy

theorem sqrt_finite {x : ℝ} (hx : 0 ≤ x) : sqrt (finite x) = finite √x := if_neg (not_lt.mpr hx)

/-- A finite number. -/
def IsFinite (a : Extended) : Prop := ∃ x, a = finite x

theorem isFinite_finite (x : ℝ) : (finite x).IsFinite := ⟨x, rfl⟩

theorem isFinite_of_ne {a : Extended} (hinf : ∀ s, a ≠ inf s) (hnan : a ≠ nan) : a.IsFinite := by
  cases a with
  | finite x => exact ⟨x, rfl⟩
  | inf s => exact absurd rfl (hinf s)
  | nan => exact absurd rfl hnan

theorem IsFinite.add {a b : Extended} (ha : a.IsFinite) (hb : b.IsFinite) : (a + b).IsFinite := by
  obtain ⟨x, rfl⟩ := ha
  obtain ⟨y, rfl⟩ := hb
  exact ⟨x + y, rfl⟩

theorem IsFinite.sub {a b : Extended} (ha : a.IsFinite) (hb : b.IsFinite) : (a - b).IsFinite := by
  obtain ⟨x, rfl⟩ := ha
  obtain ⟨y, rfl⟩ := hb
  exact ⟨x - y, finite_sub x y⟩

theorem IsFinite.mul {a b : Extended} (ha : a.IsFinite) (hb : b.IsFinite) : (a * b).IsFinite := by
  obtain ⟨x, rfl⟩ := ha
  obtain ⟨y, rfl⟩ := hb
  exact ⟨x * y, rfl⟩

theorem IsFinite.neg {a : Extended} (ha : a.IsFinite) : (-a).IsFinite := by
  obtain ⟨x, rfl⟩ := ha
  exact ⟨-x, rfl⟩

theorem IsFinite.div {a : Extended} (ha : a.IsFinite) {y : ℝ} (hy : y ≠ 0) :
    (a / finite y).IsFinite := by
  obtain ⟨x, rfl⟩ := ha
  exact ⟨x / y, finite_div hy x⟩

theorem IsFinite.sin {a : Extended} (ha : a.IsFinite) : a.sin.IsFinite := by
  obtain ⟨x, rfl⟩ := ha
  exact ⟨Real.sin x, rfl⟩

theorem IsFinite.cos {a : Extended} (ha : a.IsFinite) : a.cos.IsFinite := by
  obtain ⟨x, rfl⟩ := ha
  exact ⟨Real.cos x, rfl⟩

/-! ## Special values -/

@[simp] theorem nan_add (a : Extended) : nan + a = nan := rfl

@[simp] theorem add_nan (a : Extended) : a + nan = nan := by cases a <;> rfl

@[simp] theorem nan_sub (a : Extended) : nan - a = nan := rfl

@[simp] theorem nan_mul (a : Extended) : nan * a = nan := rfl

@[simp] theorem sqrt_nan : sqrt nan = nan := rfl

@[simp] theorem nan_le (a : Extended) : le nan a = false := rfl

@[simp] theorem lt_nan (a : Extended) : lt a nan = false := by cases a <;> rfl

theorem inf_sub_of_isFinite (s : Bool) {a : Extended} (ha : a.IsFinite) : inf s - a = inf s := by
  obtain ⟨x, rfl⟩ := ha
  rfl

theorem sub_ne_nan {a b : Extended} (ha : a ≠ nan) (hb : b.IsFinite) : a - b ≠ nan := by
  obtain ⟨y, rfl⟩ := hb
  cases a with
  | finite x => exact nofun
  | inf s => exact nofun
  | nan => exact absurd rfl ha

/-- Infinity times zero is not a number. -/
@[simp] theorem inf_mul_zero (s : Bool) : inf s * finite 0 = nan := if_pos rfl

theorem not_isFinite_nan : ¬nan.IsFinite := nofun

/-- A number that is not negative, or infinity. -/
def Nonneg (a : Extended) : Prop := a = inf false ∨ ∃ x, 0 ≤ x ∧ a = finite x

/-- A square, unless of NaN. -/
theorem nonneg_mul_self {a : Extended} (ha : a ≠ nan) : (a * a).Nonneg := by
  cases a with
  | finite x => exact .inr ⟨x * x, mul_self_nonneg x, rfl⟩
  | inf s =>
      left
      show inf (s ^^ s) = inf false
      rw [Bool.xor_self]
  | nan => exact absurd rfl ha

theorem inf_mul_self (s : Bool) : inf s * inf s = inf false := by
  show inf (s ^^ s) = inf false
  rw [Bool.xor_self]

theorem Nonneg.add {a b : Extended} (ha : a.Nonneg) (hb : b.Nonneg) : (a + b).Nonneg := by
  rcases ha with rfl | ⟨x, hx, rfl⟩
  · rcases hb with rfl | ⟨y, -, rfl⟩
    · exact .inl rfl
    · exact .inl rfl
  · rcases hb with rfl | ⟨y, hy, rfl⟩
    · exact .inl rfl
    · exact .inr ⟨x + y, add_nonneg hx hy, rfl⟩

theorem Nonneg.inf_add {a : Extended} (ha : a.Nonneg) : inf false + a = inf false := by
  rcases ha with rfl | ⟨x, -, rfl⟩
  · rfl
  · rfl

theorem Nonneg.add_inf {a : Extended} (ha : a.Nonneg) : a + inf false = inf false := by
  rcases ha with rfl | ⟨x, -, rfl⟩
  · rfl
  · rfl

end Extended

end LightNet.Foundation
