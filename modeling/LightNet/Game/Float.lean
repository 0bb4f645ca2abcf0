/-
# LightNet.Game.Float — what the game code uses of `float`.

The room computes with `float`, and the codec copies its 32 bits.  The model is generic in the type
`F` that stands for `float`: `FloatArith` are the operations of `game/room.cpp`, `FloatBits` the two
directions of `memcpy`.  `Binary32` is the type of the machine, as bit patterns with the arithmetic
of binary32.
-/
import Mathlib.Data.Int.Cast.Defs

namespace LightNet.Game

/-- The arithmetic of `float`, with literals and the conversions from integers. -/
class FloatArith (F : Type) extends Add F, Sub F, Mul F, Div F, Neg F, OfScientific F, NatCast F,
    IntCast F where
  sqrt : F → F
  sin : F → F
  cos : F → F
  lt : F → F → Bool
  le : F → F → Bool

/-- `memcpy` between a `float` and a `uint32_t`. -/
class FloatBits (F : Type) where
  toBits : F → UInt32
  ofBits : UInt32 → F
  ofBits_toBits : ∀ x, ofBits (toBits x) = x
  toBits_ofBits : ∀ b, toBits (ofBits b) = b

attribute [simp] FloatBits.ofBits_toBits FloatBits.toBits_ofBits

/-- A `float`, as its bits. -/
structure Binary32 where
  bits : UInt32
  deriving DecidableEq

namespace Binary32

/-- The number with these bits. -/
def value (x : Binary32) : Float32 := Float32.ofBits x.bits

/-- The bits of a number. -/
def ofValue (v : Float32) : Binary32 := ⟨v.toBits⟩

instance : FloatArith Binary32 where
  add x y := ofValue (x.value + y.value)
  sub x y := ofValue (x.value - y.value)
  mul x y := ofValue (x.value * y.value)
  div x y := ofValue (x.value / y.value)
  neg x := ofValue (-x.value)
  ofScientific m s e := ofValue (OfScientific.ofScientific m s e)
  natCast n := ofValue (Float32.ofNat n)
  intCast i := ofValue (Float32.ofInt i)
  sqrt x := ofValue x.value.sqrt
  sin x := ofValue x.value.sin
  cos x := ofValue x.value.cos
  lt x y := x.value.lt y.value
  le x y := x.value.le y.value

instance : FloatBits Binary32 where
  toBits := bits
  ofBits := mk
  ofBits_toBits _ := rfl
  toBits_ofBits _ := rfl

end Binary32

end LightNet.Game
