/-
# LightNet.Game.Exact — the game with real numbers.

Where rounding is not the point, `float` is read as `ℝ`, with the real square root, sine and cosine.
A player is then at a point of Euclidean space, and what the code computes coordinate by coordinate
are norms, distances and projections.
-/
import LightNet.Game.Course
import Mathlib.Analysis.InnerProductSpace.PiL2
import Mathlib.Analysis.SpecialFunctions.Trigonometric.Basic

namespace LightNet.Game

open LightNet.Foundation LightNet.Net
open GameRoomManager (tickSeconds)

noncomputable instance : FloatArith ℝ where
  sqrt := Real.sqrt
  sin := Real.sin
  cos := Real.cos
  lt x y := decide (x < y)
  le x y := decide (x ≤ y)

@[simp] theorem lt_exact (x y : ℝ) : FloatArith.lt x y = decide (x < y) := rfl

@[simp] theorem le_exact (x y : ℝ) : FloatArith.le x y = decide (x ≤ y) := rfl

@[simp] theorem sqrt_exact (x : ℝ) : FloatArith.sqrt x = √x := rfl

@[simp] theorem sin_exact (x : ℝ) : FloatArith.sin x = Real.sin x := rfl

@[simp] theorem cos_exact (x : ℝ) : FloatArith.cos x = Real.cos x := rfl

@[simp] theorem kMoveSpeed_exact : (kMoveSpeed : ℝ) = 6 := by
  unfold kMoveSpeed
  norm_num

@[simp] theorem kMaxHitRange_exact : (kMaxHitRange : ℝ) = 80 := by
  unfold kMaxHitRange
  norm_num

@[simp] theorem kRespawnDelay_exact : (kRespawnDelay : ℝ) = 5 := by
  unfold kRespawnDelay
  norm_num

theorem tickSeconds_exact (d : UInt32) : (tickSeconds d : ℝ) = d.toNat / 1000 := by
  unfold tickSeconds
  norm_num

/-- The length of a tick in seconds is not negative. -/
theorem tickSeconds_nonneg (d : UInt32) : (0 : ℝ) ≤ tickSeconds d := by
  rw [tickSeconds_exact]
  positivity

/-! ## Space -/

/-- Euclidean space, in which `y` points upwards. -/
abbrev Space := EuclideanSpace ℝ (Fin 3)

/-- The point with these coordinates. -/
noncomputable def point (x y z : ℝ) : Space := !₂[x, y, z]

theorem point_add (x y z x' y' z' : ℝ) :
    point x y z + point x' y' z' = point (x + x') (y + y') (z + z') := by
  ext i
  fin_cases i <;> rfl

theorem point_sub (x y z x' y' z' : ℝ) :
    point x y z - point x' y' z' = point (x - x') (y - y') (z - z') := by
  ext i
  fin_cases i <;> rfl

theorem smul_point (s x y z : ℝ) : s • point x y z = point (s * x) (s * y) (s * z) := by
  ext i
  fin_cases i <;> rfl

theorem inner_point (x y z x' y' z' : ℝ) :
    inner ℝ (point x y z) (point x' y' z') = x * x' + y * y' + z * z' := by
  simp [point, PiLp.inner_apply, Fin.sum_univ_three, mul_comm]

theorem norm_point (x y z : ℝ) : ‖point x y z‖ = √(x * x + y * y + z * z) := by
  rw [norm_eq_sqrt_real_inner, inner_point]

theorem point_inj {x y z x' y' z' : ℝ} :
    point x y z = point x' y' z' ↔ x = x' ∧ y = y' ∧ z = z' := by
  constructor
  · intro h
    exact ⟨congrArg (fun v : Space => v 0) h, congrArg (fun v : Space => v 1) h,
      congrArg (fun v : Space => v 2) h⟩
  · rintro ⟨rfl, rfl, rfl⟩
    rfl

/-- Where a player is. -/
noncomputable def GamePlayer.position (player : GamePlayer ℝ) : Space :=
  point player.x player.y player.z

/-- The position that an input reports. -/
noncomputable def GameInputPayload.position (input : GameInputPayload ℝ) : Space :=
  point input.posX input.posY input.posZ

/-- The chest, at which a player is hit, is one above the position. -/
noncomputable def GamePlayer.chest (player : GamePlayer ℝ) : Space :=
  point player.x (player.y + 1) player.z

/-- Where a shot comes from. -/
noncomputable def GameFirePayload.origin (fire : GameFirePayload ℝ) : Space :=
  point fire.originX fire.originY fire.originZ

/-- Where a shot goes to. -/
noncomputable def GameFirePayload.dir (fire : GameFirePayload ℝ) : Space :=
  point fire.dirX fire.dirY fire.dirZ

/-- How far along the ray the player is. -/
noncomputable def GamePlayer.along (player : GamePlayer ℝ) (fire : GameFirePayload ℝ) : ℝ :=
  inner ℝ (player.chest - fire.origin) fire.dir

/-- Where player `p` is; who is not in the room is nowhere, which is always the same place. -/
noncomputable def GameRoom.place (room : GameRoom ℝ) (p : UInt32) : Space :=
  (room.findPlayer p).elim 0 GamePlayer.position

theorem GameRoom.place_of_findPlayer {room : GameRoom ℝ} {p : UInt32} {player : GamePlayer ℝ}
    (hplayer : room.findPlayer p = some player) : room.place p = player.position := by
  rw [place, hplayer, Option.elim_some]

end LightNet.Game
