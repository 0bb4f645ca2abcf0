/-
# LightNet.Game.Speed — how far a tick moves a player.

The server moves a player by its stick, turned by its yaw.  Turning keeps the length, and so the speed
is that of the stick: `kMoveSpeed` times the length of `(move_x, move_y) / 127`, which is not cut to 1.
-/
import LightNet.Foundation.Motion
import LightNet.Game.Clock
import LightNet.Game.Inputs

namespace LightNet.Game

open LightNet.Foundation LightNet.Net
open GameRoomManager (tickSeconds)

/-! ## One tick -/

namespace GamePlayer

/-- The server moves the player: it is alive, the match goes on, and the client has not taken over. -/
def Driven (player : GamePlayer ℝ) (matchOver : Bool) : Prop :=
  player.alive = true ∧ matchOver = false ∧ player.clientPosAuthoritative = false

/-- The length of the stick, which is 127 when it is pushed as far as it goes along one axis. -/
noncomputable def stick (player : GamePlayer ℝ) : ℝ :=
  √((player.moveX.toInt : ℝ) ^ 2 + (player.moveY.toInt : ℝ) ^ 2)

/-- **Turning keeps the length.** -/
theorem norm_turned (angle a b s : ℝ) :
    ‖point ((Real.sin angle * b + Real.cos angle * a) * s) 0
      ((Real.cos angle * b + -Real.sin angle * a) * s)‖ = √(a ^ 2 + b ^ 2) * |s| := by
  rw [norm_point, ← Real.sqrt_sq_eq_abs, ← Real.sqrt_mul (by positivity)]
  congr 1
  linear_combination (a ^ 2 + b ^ 2) * s ^ 2 * Real.sin_sq_add_cos_sq angle

/-- **One tick** moves the player by the stick. -/
theorem dist_move {player : GamePlayer ℝ} {matchOver : Bool} (hdriven : player.Driven matchOver)
    {dt : ℝ} (hdt : 0 ≤ dt) :
    dist player.position (player.move matchOver dt).position = player.stick / 127 * (6 * dt) := by
  obtain ⟨halive, hmatch, hclient⟩ := hdriven
  have hunit : ∀ m : Int, ((m : ℝ) / 127.0) = m / 127 := fun m => by norm_num
  have hmove : (player.move matchOver dt).position - player.position
      = point ((Real.sin ((player.yaw.toInt : ℝ) / kYawScale * kDeg2Rad) * (player.moveY.toInt / 127)
          + Real.cos ((player.yaw.toInt : ℝ) / kYawScale * kDeg2Rad) * (player.moveX.toInt / 127))
          * (6 * dt)) 0
        ((Real.cos ((player.yaw.toInt : ℝ) / kYawScale * kDeg2Rad) * (player.moveY.toInt / 127)
          + -Real.sin ((player.yaw.toInt : ℝ) / kYawScale * kDeg2Rad) * (player.moveX.toInt / 127))
          * (6 * dt)) := by
    rw [move, halive, hmatch, hclient, position, position, point_sub, point_inj]
    simp only [Bool.not_true, Bool.or_false, Bool.false_eq_true, if_false, sin_exact, cos_exact,
      kMoveSpeed_exact, hunit]
    refine ⟨?_, ?_, ?_⟩ <;> ring
  rw [dist_comm, dist_eq_norm, hmove, norm_turned, abs_of_nonneg (by positivity), stick]
  have hscale : ((player.moveX.toInt : ℝ) / 127) ^ 2 + ((player.moveY.toInt : ℝ) / 127) ^ 2
      = ((player.moveX.toInt : ℝ) ^ 2 + (player.moveY.toInt : ℝ) ^ 2) / 127 ^ 2 := by ring
  rw [hscale, Real.sqrt_div' _ (by norm_num), Real.sqrt_sq (by norm_num)]

theorem move_of_not_driven {player : GamePlayer ℝ} {matchOver : Bool}
    (hdriven : ¬player.Driven matchOver) (dt : ℝ) : player.move matchOver dt = player := by
  unfold move
  split
  · rfl
  · rename_i hidle
    split
    · rfl
    · rename_i hclient
      simp only [Bool.or_eq_true, Bool.not_eq_true', not_or, Bool.not_eq_false,
        Bool.not_eq_true] at hidle hclient
      exact absurd ⟨hidle.1, hidle.2, hclient⟩ hdriven

theorem position_tick_of_driven {player : GamePlayer ℝ} {matchOver : Bool}
    (hdriven : player.Driven matchOver) (dt : ℝ) :
    ((player.coolDown dt).move matchOver dt).position = (player.move matchOver dt).position := by
  rw [coolDown, if_pos hdriven.1]

theorem position_tick_of_not_driven {player : GamePlayer ℝ} {matchOver : Bool}
    (hdriven : ¬player.Driven matchOver) (dt : ℝ) :
    ((player.coolDown dt).move matchOver dt).position = player.position := by
  have hstanding := standing_coolDown dt player
  have hcontrols := player.controls_coolDown dt
  have hdriven' : ¬(player.coolDown dt).Driven matchOver := by
    rintro ⟨halive, hmatch, hclient⟩
    refine hdriven ⟨?_, hmatch, ?_⟩
    · exact (congrArg (fun standing => standing.vitals.alive) hstanding).symm.trans halive
    · exact (congrArg Controls.clientPosAuthoritative hcontrols).symm.trans hclient
  rw [move_of_not_driven hdriven']
  show point _ _ _ = point _ _ _
  rw [point_inj]
  exact ⟨congrArg Standing.x hstanding, congrArg Standing.y hstanding, congrArg Standing.z hstanding⟩

/-- The stick is within the circle that its axes reach. -/
def InCircle (player : GamePlayer ℝ) : Prop :=
  player.moveX.toInt ^ 2 + player.moveY.toInt ^ 2 ≤ 127 ^ 2

theorem stick_le_iff (player : GamePlayer ℝ) : player.stick ≤ 127 ↔ player.InCircle := by
  rw [stick, Real.sqrt_le_left (by norm_num), InCircle]
  exact_mod_cast Iff.rfl

end GamePlayer

/-! ## A run -/

namespace GameRoom

variable {room : GameRoom ℝ} {p : UInt32}

/-- How far `simulate_movement` moves player `p` in a step. -/
noncomputable def stride (p : UInt32) (room : GameRoom ℝ) (op : Op ℝ) : ℝ :=
  if op.isTick then dist (room.place p) ((room.perform op).place p) else 0

/-- In a step that is a tick, the stick of player `p` is within the circle, or nothing moves it: it is
not driven, or no time passes. -/
def Steady (p : UInt32) (room : GameRoom ℝ) : Op ℝ → Prop
  | .tick _ => ∀ player, room.findPlayer p = some player →
      player.Driven (room.advanceClock (tickSeconds room.tickIntervalMs)).matchOver →
      room.tickIntervalMs = 0 ∨ player.InCircle
  | _ => True

/-- The speed limit for one step: nothing but a tick moves the player. -/
noncomputable def limit (d : UInt32) (op : Op ℝ) : ℝ :=
  if op.isTick then kMoveSpeed * tickSeconds d else 0

theorem place_tick (ord : IterOrder UInt32) : (room.perform (.tick ord)).place p
    = (room.findPlayer p).elim 0 fun player =>
      ((player.coolDown (tickSeconds room.tickIntervalMs)).move
        (room.advanceClock (tickSeconds room.tickIntervalMs)).matchOver
        (tickSeconds room.tickIntervalMs)).position := by
  show ((room.tick ord).2.findPlayer p).elim 0 GamePlayer.position = _
  rw [GameRoomManager.findPlayer_tick, (tick_clock ord room).1]
  cases room.findPlayer p with
  | none => rfl
  | some player => rfl

/-- A stick that is pushed for the length of a tick. -/
theorem way_le_iff {player : GamePlayer ℝ} {d : UInt32} :
    player.stick / 127 * (6 * tickSeconds d) ≤ 6 * tickSeconds d ↔ d = 0 ∨ player.InCircle := by
  rw [tickSeconds_exact]
  by_cases hzero : d = 0
  · subst hzero
    exact iff_of_true (by norm_num) (.inl rfl)
  · have hpos : (0 : ℝ) < 6 * (d.toNat / 1000) := by
      have hd : 0 < d.toNat := Nat.pos_of_ne_zero fun h => hzero (UInt32.toNat_inj.mp h)
      positivity
    rw [mul_le_iff_le_one_left hpos, div_le_one (by norm_num), GamePlayer.stick_le_iff,
      or_iff_right hzero]

/-- **One step.** The limit is kept exactly if the step is steady. -/
theorem stride_le_iff (op : Op ℝ) :
    stride p room op ≤ limit room.tickIntervalMs op ↔ room.Steady p op := by
  have hdt := tickSeconds_nonneg room.tickIntervalMs
  cases op with
  | tick ord =>
      show dist (room.place p) _ ≤ (kMoveSpeed : ℝ) * _ ↔ _
      rw [place_tick, kMoveSpeed_exact, Steady]
      cases hplayer : room.findPlayer p with
      | none =>
          rw [place, hplayer, Option.elim_none, Option.elim_none, dist_self]
          exact iff_of_true (by positivity) fun player h _ => absurd h (Option.some_ne_none player).symm
      | some player =>
          rw [place_of_findPlayer hplayer, Option.elim_some]
          by_cases hdriven : player.Driven
              (room.advanceClock (tickSeconds room.tickIntervalMs)).matchOver
          · rw [GamePlayer.position_tick_of_driven hdriven, GamePlayer.dist_move hdriven hdt,
              way_le_iff]
            refine ⟨fun h player' hplayer' _ => ?_, fun h => h player rfl hdriven⟩
            obtain rfl := Option.some.inj hplayer'
            exact h
          · rw [GamePlayer.position_tick_of_not_driven hdriven, dist_self]
            refine iff_of_true (by positivity) fun player' hplayer' hdriven' => ?_
            obtain rfl := Option.some.inj hplayer'
            exact absurd hdriven' hdriven
  | _ => exact iff_of_true le_rfl trivial

/-- Nothing but ticks moves player `p`. -/
def Undisturbed (p : UInt32) (room : GameRoom ℝ) (op : Op ℝ) : Prop :=
  op.isTick = true ∨ (room.perform op).place p = room.place p

/-- The speed limit for a run: if nothing but the ticks moves player `p`, they have moved it by
`kMoveSpeed` times their length at most. -/
def SpeedLimited (room : GameRoom ℝ) (p : UInt32) (ops : List (Op ℝ)) : Prop :=
  Admissible perform (Undisturbed p) room ops →
    dist (room.place p) ((run perform room ops).place p)
      ≤ ticks ops * (kMoveSpeed * tickSeconds room.tickIntervalMs)

theorem sum_limit (d : UInt32) (ops : List (Op ℝ)) :
    (ops.map (limit d)).sum = ticks ops * (kMoveSpeed * tickSeconds d : ℝ) := by
  induction ops with
  | nil => simp [ticks]
  | cons op ops ih =>
      rw [List.map_cons, List.sum_cons, ih, ticks, ticks, List.countP_cons, limit]
      split
      · push_cast
        ring
      · push_cast
        ring

/-! ## The contract -/

/-- **A whole run**, in which every step is steady: what the ticks cover together. -/
theorem covered_le_of_steady {ops : List (Op ℝ)} (hsteady : Admissible perform (Steady p) room ops) :
    covered perform (stride p) room ops
      ≤ ticks ops * (kMoveSpeed * tickSeconds room.tickIntervalMs) := by
  have hinv : ∀ (room' : GameRoom ℝ) (op : Op ℝ), room'.tickIntervalMs = room.tickIntervalMs →
      (room'.perform op).tickIntervalMs = room.tickIntervalMs :=
    fun room' op h => (perform_tickIntervalMs room' op).trans h
  have hlen : ∀ (room' : GameRoom ℝ) (op : Op ℝ), room'.tickIntervalMs = room.tickIntervalMs →
      room'.Steady p op → stride p room' op ≤ limit room.tickIntervalMs op :=
    fun room' op h hop => h ▸ (stride_le_iff op).mpr hop
  rw [← sum_limit]
  exact covered_le hinv hlen rfl hsteady

theorem speedLimited_of_steady {ops : List (Op ℝ)}
    (hsteady : Admissible perform (Steady p) room ops) : room.SpeedLimited p ops := by
  intro halone
  have hstep : ∀ (room' : GameRoom ℝ) (op : Op ℝ), Undisturbed p room' op →
      dist (room'.place p) ((room'.perform op).place p) ≤ stride p room' op := by
    intro room' op hop
    unfold stride
    split
    · exact le_rfl
    · rename_i hquiet
      rw [hop.resolve_left hquiet, dist_self]
  have hway := dist_run_le hstep halone
  exact hway.trans (covered_le_of_steady hsteady)

/-- A tick by itself keeps the limit only if it is steady. -/
theorem steady_of_speedLimited {op : Op ℝ} (h : room.SpeedLimited p [op]) : room.Steady p op := by
  cases op with
  | tick ord =>
      rw [← stride_le_iff]
      have hle := h ⟨.inl rfl, trivial⟩
      rw [show ticks [Op.tick ord] = 1 from rfl, Nat.cast_one, one_mul] at hle
      exact hle
  | _ => trivial

/-- **When the speed limit is kept.** From any state of a room: every part of a run keeps the limit,
for player `p`, exactly if every tick finds the stick of the player within the circle, or does not
drive it, or takes no time.  Then all that the ticks cover together is within the limit too. -/
theorem speedLimited_iff (roomId d : UInt32) (before ops : List (Op ℝ)) (p : UInt32) :
    let room : GameRoom ℝ := run perform (GameRoom.new roomId d) before
    ((∀ pre part post, ops = pre ++ (part ++ post) → (run perform room pre).SpeedLimited p part)
        ↔ Admissible perform (Steady p) room ops)
      ∧ (Admissible perform (Steady p) room ops →
        covered perform (stride p) room ops ≤ ticks ops * (kMoveSpeed * tickSeconds d)) := by
  intro room
  refine ⟨⟨fun h => ?_, ?_⟩, fun h => ?_⟩
  · rw [admissible_iff_split]
    intro pre op post hsplit
    exact steady_of_speedLimited (h pre [op] post hsplit)
  · rintro h pre part post rfl
    rw [admissible_append, admissible_append] at h
    exact speedLimited_of_steady h.2.1
  · have hinterval : room.tickIntervalMs = d := tickIntervalMs_run _ before
    rw [← hinterval]
    exact covered_le_of_steady h

/-- The stick as far as it goes along both axes. -/
def diagonal : GameInputPayload ℝ where
  inputSeq := 1
  clientTick := 0
  moveX := 127
  moveY := 127
  yaw := 0
  pitch := 0
  buttons := 0
  posX := 0
  posY := 0
  posZ := 0
  hasPos := 0

/-- A player with this stick is too fast. -/
theorem diagonal_too_fast :
    ¬(run perform (GameRoom.new 1 1000) [.addPlayer ⟨127, 0, 0, 1, 7000⟩ 1, .applyInput 1 diagonal]
      : GameRoom ℝ).SpeedLimited 1 [.tick (.entries _)] := by
  intro h
  have hclock := (clocked_run 1 1000
    [.addPlayer ⟨127, 0, 0, 1, 7000⟩ 1, .applyInput 1 diagonal]).advance
  have hmatch : ((run perform (GameRoom.new 1 1000)
      [.addPlayer ⟨127, 0, 0, 1, 7000⟩ 1, .applyInput 1 diagonal] : GameRoom ℝ).advanceClock
        (tickSeconds 1000)).matchOver = false := by
    rw [← Bool.not_eq_true]
    intro hover
    have hlong := hclock.matchOver_iff.mp hover
    rw [tickSeconds_exact] at hlong
    have hlong : (300 : ℝ) ≤ (1 : Nat) * ((1000 : Nat) / 1000) := hlong
    norm_num at hlong
  have hslow : (1000 : UInt32) = 0 ∨ (127 : Int) ^ 2 + 127 ^ 2 ≤ 127 ^ 2 :=
    steady_of_speedLimited h _ rfl ⟨rfl, hmatch, rfl⟩
  exact absurd hslow (by decide)

end GameRoom

end LightNet.Game
