/-
# LightNet.Game.Teleport — how far an input moves a player.

An input may report a position, and the player goes there if it is not too far.  The first input that
counts has a large allowance, because the client knows better where it starts; the others have a small
one.  Which of them is the first is seen from `last_input_seq`, which is zero only until then: nothing
but leaving the room takes it back.
-/
import LightNet.Foundation.Motion
import LightNet.Game.Exact
import LightNet.Game.Inputs

namespace LightNet.Game

open LightNet.Foundation LightNet.Net
open GameRoomManager (tickSeconds)

/-! ## One input -/

namespace GamePlayer

/-- With a step that is not tiny, `moveTowards` is a cut step. -/
theorem position_moveTowards (player : GamePlayer ℝ) (input : GameInputPayload ℝ) {maxStep : ℝ}
    (hstep : 0.0001 ≤ maxStep) :
    (player.moveTowards input maxStep).position
      = stepTowards maxStep player.position input.position := by
  have hdist : dist player.position input.position
      = √((input.posX - player.x) * (input.posX - player.x)
        + (input.posY - player.y) * (input.posY - player.y)
        + (input.posZ - player.z) * (input.posZ - player.z)) := by
    rw [dist_comm, dist_eq_norm, position, GameInputPayload.position, point_sub, norm_point]
  rw [moveTowards, stepTowards]
  simp only [sqrt_exact, le_exact, lt_exact, ← hdist, decide_eq_true_eq]
  split
  · rfl
  · rename_i hfar
    rw [if_pos (hstep.trans_lt (not_le.mp hfar))]
    show point _ _ _ = point _ _ _ + _ • (point _ _ _ - point _ _ _)
    rw [point_sub, smul_point, point_add, mul_comm, mul_comm (input.posY - _),
      mul_comm (input.posZ - _)]

/-- How far an input that counts may move the player. -/
noncomputable def allowance (player : GamePlayer ℝ) : ℝ := if player.lastInputSeq = 0 then 100 else 3

theorem allowance_pos (player : GamePlayer ℝ) : 3 ≤ player.allowance := by
  unfold allowance
  split
  · norm_num
  · exact le_rfl

theorem position_onInput (player : GamePlayer ℝ) (input : GameInputPayload ℝ) :
    (player.onInput input).position
      = if input.hasPos ≠ 0 then stepTowards player.allowance player.position input.position
        else player.position := by
  have hstep : (if player.lastInputSeq == 0 then 100.0 else 3.0 : ℝ) = player.allowance := by
    simp only [allowance, beq_iff_eq]
    norm_num
  have hpos := player.allowance_pos
  unfold onInput
  dsimp only
  rw [hstep]
  split
  · exact position_moveTowards _ input (by norm_num; linarith)
  · rfl

theorem dist_onInput_le (player : GamePlayer ℝ) (input : GameInputPayload ℝ) :
    dist player.position (player.onInput input).position ≤ player.allowance := by
  have hpos : 0 ≤ player.allowance := zero_le_three.trans player.allowance_pos
  rw [position_onInput]
  split
  · exact dist_stepTowards_le hpos _ _
  · rw [dist_self]
    exact hpos

theorem lastInputSeq_onInput (player : GamePlayer ℝ) (input : GameInputPayload ℝ) :
    (player.onInput input).lastInputSeq = input.inputSeq :=
  congrArg Controls.lastInputSeq (player.controls_onInput input)

theorem lastInputSeq_tick (player : GamePlayer ℝ) (matchOver : Bool) (dt : ℝ) :
    ((player.coolDown dt).move matchOver dt).lastInputSeq = player.lastInputSeq :=
  congrArg Controls.lastInputSeq (player.controls_tick matchOver dt)

end GamePlayer

/-! ## A run -/

namespace GameRoom

variable {room : GameRoom ℝ} {p : UInt32}

/-- What counts has a number above the last one, and so not zero. -/
theorem Accepts.inputSeq_ne_zero {player : GamePlayer ℝ} {input : GameInputPayload ℝ}
    (h : room.Accepts player input) : input.inputSeq ≠ 0 := by
  have hnew := UInt32.lt_iff_toNat_lt.mp h.2.2
  intro hzero
  rw [hzero] at hnew
  exact Nat.not_lt_zero _ hnew

/-! ## A reported place -/

/-- Player `p` is in the room, and one of its inputs has counted. -/
def Reported (room : GameRoom ℝ) (p : UInt32) : Prop :=
  ∃ player, room.findPlayer p = some player ∧ player.lastInputSeq ≠ 0

/-- How far an input of player `p` moves it. -/
noncomputable def moved (room : GameRoom ℝ) (p : UInt32) (input : GameInputPayload ℝ) : ℝ :=
  dist (room.place p) ((room.applyInput p input).place p)

theorem moved_of_not_takes {input : GameInputPayload ℝ} (h : ¬room.Takes p input) :
    room.moved p input = 0 := by
  rw [moved, applyInput_of_not_takes h, dist_self]

/-- **One input** moves the player by its allowance at most. -/
theorem moved_le_allowance {input : GameInputPayload ℝ} {player : GamePlayer ℝ}
    (hplayer : room.findPlayer p = some player) (haccepts : room.Accepts player input) :
    room.moved p input ≤ player.allowance := by
  have hafter : (room.applyInput p input).findPlayer p = some (player.onInput input) := by
    rw [applyInput_of_accepts hplayer haccepts, findPlayer_modifyPlayer, if_pos rfl, hplayer,
      Option.map_some]
  rw [moved, place_of_findPlayer hplayer, place_of_findPlayer hafter]
  exact player.dist_onInput_le input

theorem moved_le (room : GameRoom ℝ) (p : UInt32) (input : GameInputPayload ℝ) :
    room.moved p input ≤ 100 := by
  by_cases htakes : room.Takes p input
  · obtain ⟨player, hplayer, haccepts⟩ := htakes
    refine (moved_le_allowance hplayer haccepts).trans ?_
    unfold GamePlayer.allowance
    split
    · exact le_rfl
    · norm_num
  · rw [moved_of_not_takes htakes]
    norm_num

/-- Once an input has counted, the allowance is the small one. -/
theorem Reported.moved_le (h : room.Reported p) (input : GameInputPayload ℝ) :
    room.moved p input ≤ 3 := by
  obtain ⟨player, hplayer, hseq⟩ := h
  by_cases htakes : room.Takes p input
  · obtain ⟨player', hplayer', haccepts⟩ := htakes
    obtain rfl := Option.some.inj (hplayer.symm.trans hplayer')
    have hle := moved_le_allowance hplayer haccepts
    rwa [GamePlayer.allowance, if_neg hseq] at hle
  · rw [moved_of_not_takes htakes]
    norm_num

theorem Takes.reported {input : GameInputPayload ℝ} (h : room.Takes p input) :
    (room.applyInput p input).Reported p := by
  obtain ⟨player, hplayer, haccepts⟩ := h
  refine ⟨player.onInput input, ?_, ?_⟩
  · rw [applyInput_of_accepts hplayer haccepts, findPlayer_modifyPlayer, if_pos rfl, hplayer,
      Option.map_some]
  · rw [GamePlayer.lastInputSeq_onInput]
    exact haccepts.inputSeq_ne_zero

/-- **One operation.** Only leaving takes it back that an input has counted. -/
theorem Reported.step (h : room.Reported p) (hfiled : room.Filed) {op : Op ℝ}
    (hstays : op ≠ .removePlayer p) : (room.perform op).Reported p := by
  obtain ⟨player, hplayer, hseq⟩ := h
  have hcourse := perform_course hfiled op p
  rw [hplayer] at hcourse
  generalize hafter : (room.perform op).findPlayer p = after at hcourse
  cases hcourse with
  | leaves => exact absurd rfl hstays
  | reports haccepts =>
      refine ⟨_, hafter, ?_⟩
      rw [GamePlayer.lastInputSeq_onInput]
      exact haccepts.inputSeq_ne_zero
  | ticks =>
      refine ⟨_, hafter, ?_⟩
      rwa [GamePlayer.lastInputSeq_tick]
  | _ => exact ⟨_, hafter, hseq⟩

theorem Reported.stays {ops : List (Op ℝ)} (h : room.Reported p) (hfiled : room.Filed)
    (hstays : .removePlayer p ∉ ops) : (run perform room ops).Reported p := by
  induction ops generalizing room with
  | nil => exact h
  | cons op ops ih =>
      rw [List.mem_cons, not_or] at hstays
      exact ih (h.step hfiled (Ne.symm hstays.1)) (hfiled.perform op) hstays.2

theorem findPlayer_applyInput_ne {q : UInt32} (hq : q ≠ p) (input : GameInputPayload ℝ) :
    (room.applyInput p input).findPlayer q = room.findPlayer q := by
  by_cases htakes : room.Takes p input
  · obtain ⟨player, hplayer, haccepts⟩ := htakes
    rw [applyInput_of_accepts hplayer haccepts, findPlayer_modifyPlayer, if_neg hq]
  · rw [applyInput_of_not_takes htakes]

/-! ## The contract -/

/-- **The clamp holds in every run.** An input moves its player by 100 at most and nobody else; one
that does not count moves nobody; and one that moves its player by more than 3 is the first that counts
since the player has joined, so that there is at most one of them in a stay. -/
theorem teleport_clamped (roomId d : UInt32) (ops : List (Op ℝ)) (p : UInt32)
    (input : GameInputPayload ℝ) :
    let room : GameRoom ℝ := run perform (GameRoom.new roomId d) ops
    room.moved p input ≤ 100
      ∧ (¬room.Takes p input → room.applyInput p input = room ∧ room.moved p input = 0)
      ∧ (∀ q, q ≠ p → (room.applyInput p input).findPlayer q = room.findPlayer q)
      ∧ (3 < room.moved p input → ∀ before input' since,
        ops = before ++ .applyInput p input' :: since → .removePlayer p ∉ since →
        ¬(run perform (GameRoom.new roomId d) before).Takes p input'
          ∧ (run perform (GameRoom.new roomId d) before).moved p input' = 0) := by
  intro room
  refine ⟨moved_le room p input, fun h => ⟨applyInput_of_not_takes h, moved_of_not_takes h⟩,
    fun q hq => findPlayer_applyInput_ne hq input, ?_⟩
  rintro hfar before input' since rfl hstays
  have hfirst : ¬(run perform (GameRoom.new roomId d) before).Takes p input' := by
    intro htakes
    have hfiled := (filed_run (F := ℝ) roomId d before).perform (.applyInput p input')
    have hreported := htakes.reported.stays hfiled hstays
    have hle := hreported.moved_le input
    have hroom : room = run perform ((run perform (GameRoom.new roomId d) before).applyInput p input')
        since := by
      show run perform _ (before ++ _) = _
      rw [run_append, run_cons]
      rfl
    rw [hroom] at hfar
    exact hfar.not_ge hle
  exact ⟨hfirst, moved_of_not_takes hfirst⟩

end GameRoom

end LightNet.Game
