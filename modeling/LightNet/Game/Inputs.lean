/-
# LightNet.Game.Inputs — inputs in any order.

Inputs come in datagrams, late, twice or not at all.  A room takes an input over only if its
`input_seq` is above the last one, and so what the player reports is a register that keeps the latest
value: the order and the repetitions do not matter.
-/
import LightNet.Foundation.Latest
import LightNet.Game.Course

namespace LightNet.Game

open LightNet.Foundation LightNet.Net

variable {F : Type}

/-! ## Controls -/

/-- What a player has reported, other than its position. -/
structure Controls where
  lastInputSeq : UInt32
  clientTick : UInt32
  moveX : Int8
  moveY : Int8
  yaw : Int16
  pitch : Int16
  clientPosAuthoritative : Bool
  deriving DecidableEq

/-- The controls a player has. -/
def GamePlayer.controls (player : GamePlayer F) : Controls where
  lastInputSeq := player.lastInputSeq
  clientTick := player.clientTick
  moveX := player.moveX
  moveY := player.moveY
  yaw := player.yaw
  pitch := player.pitch
  clientPosAuthoritative := player.clientPosAuthoritative

/-- The controls an input leaves behind. -/
def GameInputPayload.controls (input : GameInputPayload F) : Controls where
  lastInputSeq := input.inputSeq
  clientTick := input.clientTick
  moveX := input.moveX
  moveY := input.moveY
  yaw := input.yaw
  pitch := input.pitch
  clientPosAuthoritative := input.hasPos ≠ 0

/-- Newer is what has the larger number. -/
def Controls.seq (controls : Controls) : Nat := controls.lastInputSeq.toNat

variable [FloatArith F]

/-- The position is not among the controls. -/
@[simp] theorem GamePlayer.controls_moveTowards (player : GamePlayer F) (input : GameInputPayload F)
    (maxStep : F) : (player.moveTowards input maxStep).controls = player.controls := by
  simp only [moveTowards]
  split
  · rfl
  split
  · rfl
  · rfl

/-- An input that counts sets all of the controls, whether or not it reports a position. -/
@[simp] theorem GamePlayer.controls_onInput (player : GamePlayer F) (input : GameInputPayload F) :
    (player.onInput input).controls = input.controls := by
  simp only [onInput]
  split
  · rename_i hpos
    rw [controls_moveTowards, controls, GameInputPayload.controls, decide_eq_true hpos]
  · rename_i hpos
    rw [controls, GameInputPayload.controls, decide_eq_false hpos]

theorem GamePlayer.controls_coolDown (player : GamePlayer F) (dt : F) :
    (player.coolDown dt).controls = player.controls := by
  simp only [coolDown]
  split
  · rfl
  split
  · rfl
  · rfl

/-- A tick leaves the controls alone. -/
theorem GamePlayer.controls_tick (player : GamePlayer F) (matchOver : Bool) (dt : F) :
    ((player.coolDown dt).move matchOver dt).controls = player.controls := by
  rw [← player.controls_coolDown dt]
  simp only [move]
  split
  · rfl
  split
  · rfl
  · rfl

@[simp] theorem GamePlayer.alive_onInput (player : GamePlayer F) (input : GameInputPayload F) :
    (player.onInput input).alive = player.alive :=
  congrArg Vitals.alive (player.vitals_onInput input)

namespace GameRoom

/-! ## Many inputs -/

/-- The inputs of player `p`, one after the other. -/
def applyInputs (room : GameRoom F) (p : UInt32) (inputs : List (GameInputPayload F)) : GameRoom F :=
  run (fun room input => room.applyInput p input) room inputs

variable {room : GameRoom F} {p : UInt32} {player : GamePlayer F}

/-- **One input.** The controls are the newer ones of those that are there and those of the input. -/
theorem applyInput_latest (hplayer : room.findPlayer p = some player) (halive : player.alive = true)
    (hmatch : room.matchOver = false) (input : GameInputPayload F) :
    (room.applyInput p input).matchOver = false
      ∧ ∃ player', (room.applyInput p input).findPlayer p = some player' ∧ player'.alive = true
        ∧ player'.controls = latest Controls.seq player.controls input.controls := by
  by_cases hnew : player.lastInputSeq < input.inputSeq
  · rw [applyInput_of_accepts hplayer ⟨halive, hmatch, hnew⟩, findPlayer_modifyPlayer, if_pos rfl,
      hplayer]
    refine ⟨hmatch, player.onInput input, rfl, ?_, ?_⟩
    · rw [GamePlayer.alive_onInput]
      exact halive
    · rw [GamePlayer.controls_onInput]
      have hlt : player.controls.seq < input.controls.seq := UInt32.lt_iff_toNat_lt.mp hnew
      exact (latest_of_lt hlt).symm
  · rw [applyInput_of_ignored fun player' hplayer' haccepts => hnew
      (Option.some.inj (hplayer.symm.trans hplayer') ▸ haccepts.2.2)]
    refine ⟨hmatch, player, hplayer, halive, ?_⟩
    have hle : input.controls.seq ≤ player.controls.seq :=
      UInt32.le_iff_toNat_le.mp (UInt32.not_lt.mp hnew)
    exact (latest_of_le hle).symm

/-- **A list of inputs.** -/
theorem applyInputs_latest (hplayer : room.findPlayer p = some player)
    (halive : player.alive = true) (hmatch : room.matchOver = false)
    (inputs : List (GameInputPayload F)) :
    ∃ player', (room.applyInputs p inputs).findPlayer p = some player'
      ∧ player'.controls
        = (inputs.map GameInputPayload.controls).foldl (latest Controls.seq) player.controls := by
  induction inputs generalizing room player with
  | nil => exact ⟨player, hplayer, rfl⟩
  | cons input inputs ih =>
      obtain ⟨hmatch', player', hplayer', halive', hcontrols⟩ :=
        applyInput_latest hplayer halive hmatch input
      rw [List.map_cons, List.foldl_cons, ← hcontrols]
      exact ih hplayer' halive' hmatch'

/-- Nothing newer comes: the room stays as it is. -/
theorem applyInputs_of_old (hplayer : room.findPlayer p = some player)
    {inputs : List (GameInputPayload F)} (hold : ∀ b ∈ inputs, b.inputSeq ≤ player.lastInputSeq) :
    room.applyInputs p inputs = room := by
  induction inputs with
  | nil => rfl
  | cons input inputs ih =>
      have hle := hold input List.mem_cons_self
      have hignored : room.applyInput p input = room := by
        apply applyInput_of_ignored
        intro player' hplayer' haccepts
        obtain rfl := Option.some.inj (hplayer.symm.trans hplayer')
        exact UInt32.not_lt.mpr hle haccepts.2.2
      show (room.applyInput p input).applyInputs p inputs = room
      rw [hignored]
      exact ih fun b hb => hold b (List.mem_cons_of_mem input hb)

/-! ## The contract -/

/-- **Order and repetition of the inputs do not matter.** Whichever of the inputs come, in whatever
order and however often: a living player in a running match ends with the controls of the newest of
them, if it is newer than what the player has; and if none is, the room stays as it is. -/
theorem inputs_in_any_order (hplayer : room.findPlayer p = some player)
    (halive : player.alive = true) (hmatch : room.matchOver = false)
    (inputs sent : List (GameInputPayload F))
    (hkeyed : ∀ a ∈ inputs, ∀ b ∈ inputs, a.inputSeq = b.inputSeq → a = b)
    (hsent : ∀ b, b ∈ sent ↔ b ∈ inputs) :
    (∀ newest ∈ inputs, (∀ b ∈ inputs, b.inputSeq ≤ newest.inputSeq) →
        player.lastInputSeq < newest.inputSeq →
        ∃ player', (room.applyInputs p sent).findPlayer p = some player'
          ∧ player'.controls = newest.controls)
      ∧ ((∀ b ∈ inputs, b.inputSeq ≤ player.lastInputSeq) → room.applyInputs p sent = room) := by
  constructor
  · intro newest hnewest hmax hlater
    -- the same number means the same input
    have hkeyed' : KeyedBy Controls.seq (inputs.map GameInputPayload.controls) := by
      intro c hc d hd hseq
      obtain ⟨a, ha, rfl⟩ := List.mem_map.mp hc
      obtain ⟨b, hb, rfl⟩ := List.mem_map.mp hd
      rw [hkeyed a ha b hb (UInt32.toNat_inj.mp hseq)]
    have hsame : ∀ c, c ∈ sent.map GameInputPayload.controls
        ↔ c ∈ inputs.map GameInputPayload.controls := by
      intro c
      simp only [List.mem_map, hsent]
    have hmax' : ∀ c ∈ inputs.map GameInputPayload.controls, c.seq ≤ newest.controls.seq := by
      intro c hc
      obtain ⟨b, hb, rfl⟩ := List.mem_map.mp hc
      exact UInt32.le_iff_toNat_le.mp (hmax b hb)
    obtain ⟨player', hplayer', hcontrols⟩ := applyInputs_latest hplayer halive hmatch sent
    refine ⟨player', hplayer', ?_⟩
    rw [hcontrols, foldl_latest_congr hkeyed' hsame]
    exact foldl_latest_of_max hkeyed' (List.mem_map_of_mem hnewest) hmax'
      (UInt32.lt_iff_toNat_lt.mp hlater)
  · intro hold
    exact applyInputs_of_old hplayer fun b hb => hold b ((hsent b).mp hb)

/-- An input with a number, and nothing else. -/
def numbered (seq : UInt32) : GameInputPayload Binary32 where
  inputSeq := seq
  clientTick := seq
  moveX := 0
  moveY := 0
  yaw := 0
  pitch := 0
  buttons := 0
  posX := ⟨0⟩
  posY := ⟨0⟩
  posZ := ⟨0⟩
  hasPos := 0

/-- The second input, the first one late, and the second one again. -/
theorem inputs_in_any_order_sample :
    let room : GameRoom Binary32 := ((GameRoom.new 1 33).addPlayer ⟨127, 0, 0, 1, 7000⟩ 1).2
    ∃ player', (room.applyInputs 1 [numbered 2, numbered 1, numbered 2]).findPlayer 1 = some player'
      ∧ player'.controls = (numbered 2).controls := by
  refine (inputs_in_any_order rfl rfl rfl [numbered 1, numbered 2] _ ?_ ?_).1 (numbered 2) ?_ ?_ ?_
  · decide
  · intro b
    simp only [List.mem_cons, List.not_mem_nil, or_false]
    tauto
  · decide
  · decide
  · decide

end GameRoom

end LightNet.Game
