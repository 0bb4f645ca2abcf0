/-
# LightNet.Game.Life — life and death of a player.

Eight operations write overlapping parts of a player's record, and no one of them keeps it in order
alone: damage goes by steps of `kFireDamage` and so ends at exactly zero, only a death starts the
timer, only a timer that has run down lets the player back, and so a living player's timer is zero.
`Fit` says all of it at once.  The timer is a `float`; what is needed of it are the laws of
`FloatOrder`.
-/
import LightNet.Game.Course
import LightNet.Game.FloatLaws
import LightNet.Game.Frozen
import LightNet.Game.Scoreboard

namespace LightNet.Game

open LightNet.Foundation LightNet.Net
open FloatArith (lt le)

variable {F : Type} [FloatArith F]

/-- `x == y` for floats. -/
def SameValue (x y : F) : Prop := le x y = true ∧ le y x = true

/-! ## One player -/

namespace GamePlayer

/-- The part of the record that is about life and death, with the two fields that are checked when
they are set. -/
structure Fit (player : GamePlayer F) : Prop where
  vitals : player.vitals.Sound
  rested : player.alive = true → SameValue player.respawnTimer 0.0
  waits : player.alive = false →
    le 0.0 player.respawnTimer = true ∧ le player.respawnTimer kRespawnDelay = true
  weapon : player.weaponId ≤ 5
  named : player.name ≠ []
  name_le : player.name.length ≤ 32

/-- Whether a player is fit does not depend on where it is and what it has reported. -/
theorem Fit.congr {player player' : GamePlayer F} (h : player.Fit)
    (hvitals : player'.vitals = player.vitals)
    (htimer : player'.respawnTimer = player.respawnTimer)
    (hweapon : player'.weaponId = player.weaponId) (hname : player'.name = player.name) :
    player'.Fit := by
  have halive : player'.alive = player.alive := congrArg Vitals.alive hvitals
  constructor
  · rw [hvitals]
    exact h.vitals
  · rw [halive, htimer]
    exact h.rested
  · rw [halive, htimer]
    exact h.waits
  · rw [hweapon]
    exact h.weapon
  · rw [hname]
    exact h.named
  · rw [hname]
    exact h.name_le

theorem fit_moveTowards {player : GamePlayer F} (h : player.Fit) (input : GameInputPayload F)
    (maxStep : F) : (player.moveTowards input maxStep).Fit := by
  simp only [moveTowards]
  split
  · exact h.congr rfl rfl rfl rfl
  split
  · exact h.congr rfl rfl rfl rfl
  · exact h

theorem fit_onInput {player : GamePlayer F} (h : player.Fit) (input : GameInputPayload F) :
    (player.onInput input).Fit := by
  simp only [onInput]
  split
  · apply fit_moveTowards
    exact h.congr rfl rfl rfl rfl
  · exact h.congr rfl rfl rfl rfl

theorem fit_move {player : GamePlayer F} (h : player.Fit) (matchOver : Bool) (dt : F) :
    (player.move matchOver dt).Fit := by
  simp only [move]
  split
  · exact h
  split
  · exact h
  · exact h.congr rfl rfl rfl rfl

theorem fit_hurt {player : GamePlayer F} (h : player.Fit) (hhp : kFireDamage < player.hp) :
    player.hurt.Fit where
  vitals := h.vitals.hurt hhp
  rested := h.rested
  waits := h.waits
  weapon := h.weapon
  named := h.named
  name_le := h.name_le

theorem fit_scored {player : GamePlayer F} (h : player.Fit) : player.scored.Fit where
  vitals := h.vitals.scored
  rested := h.rested
  waits := h.waits
  weapon := h.weapon
  named := h.named
  name_le := h.name_le

theorem fit_weapon {player : GamePlayer F} (h : player.Fit) {weaponId : UInt8} (hle : weaponId ≤ 5) :
    ({ player with weaponId } : GamePlayer F).Fit :=
  { h with weapon := hle }

/-- A name is cut to 32 bytes, and an empty one is not taken over. -/
theorem fit_named {player : GamePlayer F} (h : player.Fit) (name : Bytes) :
    ({ player with name := if name = [] then player.name else name.take 32 } : GamePlayer F).Fit := by
  refine { h with named := ?_, name_le := ?_ }
  · dsimp only
    split
    · exact h.named
    · rename_i hne
      intro hnil
      rcases List.take_eq_nil_iff.mp hnil with hzero | hnil
      · cases hzero
      · exact hne hnil
  · dsimp only
    split
    · exact h.name_le
    · exact List.length_take_le _ _

variable [FloatOrder F]

/-! ## Life, death and return -/

theorem sameValue_zero : SameValue (0.0 : F) 0.0 :=
  have hzero : le (0.0 : F) 0.0 = true := (FloatOrder.number_of_le (FloatOrder.natCast_nonneg 0)).1
  ⟨hzero, hzero⟩

theorem zero_le_delay : le (0.0 : F) kRespawnDelay = true := FloatOrder.zero_le_five

theorem fit_spawn (peer : SockAddrIn) (playerId : UInt32) (idx : Nat) :
    (spawn peer playerId idx : GamePlayer F).Fit where
  vitals := Vitals.sound_fresh
  rested _ := sameValue_zero
  waits h := absurd h (by simp [spawn])
  weapon := show (0 : UInt8) ≤ 5 by decide
  named := by simp [spawn, kPlayer, ascii]
  name_le := by
    have hdigits : (decimal playerId.toNat).length ≤ 20 := length_decimalDigits_le 20 _
    have hlead : kPlayer.length = 6 := rfl
    show (kPlayer ++ decimal playerId.toNat).length ≤ 32
    rw [List.length_append]
    omega

theorem fit_killed {player : GamePlayer F} (h : player.Fit) : player.killed.Fit where
  vitals := Vitals.sound_killed player.vitals
  rested hlive := absurd hlive (by simp [killed])
  waits _ := ⟨zero_le_delay, (FloatOrder.number_of_le zero_le_delay).2⟩
  weapon := h.weapon
  named := h.named
  name_le := h.name_le

/-- Who may come back has a timer that has run down. -/
theorem fit_respawn {player : GamePlayer F} (h : player.Fit) {room : GameRoom F}
    (hgranted : ¬room.Refuses player) (playerId : UInt32) : (player.respawn playerId).Fit where
  vitals := Vitals.sound_revived player.vitals
  rested _ := by
    have hdead : player.alive = false := Bool.not_eq_true _ ▸ fun hlive => hgranted (.inl hlive)
    have hpos : lt 0.0 player.respawnTimer = false :=
      Bool.not_eq_true _ ▸ fun hlt => hgranted (.inr (.inr hlt))
    have hnonneg := (h.waits hdead).1
    obtain ⟨hzero, htimer⟩ := FloatOrder.number_of_le hnonneg
    exact ⟨FloatOrder.le_of_not_lt hzero htimer hpos, hnonneg⟩
  waits hdead := absurd hdead (by simp [respawn])
  weapon := h.weapon
  named := h.named
  name_le := h.name_le

/-- The timer goes down, by rounded steps, and stops at zero. -/
theorem fit_coolDown {player : GamePlayer F} (h : player.Fit) {dt : F} (hdt : le 0.0 dt = true) :
    (player.coolDown dt).Fit := by
  simp only [coolDown]
  split
  · exact h
  rename_i hlive
  have hdead : player.alive = false := by simpa using hlive
  obtain ⟨-, hmax⟩ := h.waits hdead
  split
  · rename_i hpos
    refine { h with rested := fun hlive' => absurd hlive' hlive, waits := fun _ => ?_ }
    dsimp only
    split
    · exact ⟨sameValue_zero.1, zero_le_delay⟩
    · rename_i hneg
      have hfinite : lt player.respawnTimer 1000.0 = true :=
        FloatOrder.lt_of_le_of_lt hmax FloatOrder.five_lt_thousand
      have hstep := FloatOrder.sub_le hpos hfinite hdt
      have hnum := (FloatOrder.number_of_le hstep).1
      exact ⟨FloatOrder.le_of_not_lt hnum sameValue_zero.1 (Bool.not_eq_true _ ▸ hneg),
        FloatOrder.le_trans hstep hmax⟩
  · exact h

end GamePlayer

/-! ## The room -/

namespace GameRoom

/-- Every player is fit and filed under its own id, and the clock and the end of the match agree. -/
structure Orderly (room : GameRoom F) : Prop where
  fit : ∀ q player, room.findPlayer q = some player → player.Fit
  filed : room.Filed
  timed : room.Timed

variable {room : GameRoom F}

theorem orderly_new (roomId tickIntervalMs : UInt32) :
    (GameRoom.new roomId tickIntervalMs : GameRoom F).Orderly where
  fit _ _ h := nomatch h
  filed _ _ h := nomatch h
  timed := timed_new roomId tickIntervalMs

variable [FloatOrder F]

/-- **No operation makes a player unfit.** -/
theorem Course.fit {q : UInt32} {op : Op F} {before after : Option (GamePlayer F)}
    (h : room.Course q op before after) (hfit : ∀ player, before = some player → player.Fit) :
    ∀ player, after = some player → player.Fit := by
  rintro player' hafter
  cases h with
  | keeps hidle => exact hfit player' hafter
  | leaves => cases hafter
  | joins hq =>
      obtain rfl := Option.some.inj hafter
      exact GamePlayer.fit_spawn _ _ _
  | reports haccepts =>
      obtain rfl := Option.some.inj hafter
      exact GamePlayer.fit_onInput (hfit _ rfl) _
  | hurts hshot hmatch hlive hhp =>
      obtain rfl := Option.some.inj hafter
      exact GamePlayer.fit_hurt (hfit _ rfl) hhp
  | dies hshot hmatch hlive hhp =>
      obtain rfl := Option.some.inj hafter
      exact GamePlayer.fit_killed (hfit _ rfl)
  | scores hshot hmatch hlive =>
      obtain rfl := Option.some.inj hafter
      exact GamePlayer.fit_scored (hfit _ rfl)
  | arms hle =>
      obtain rfl := Option.some.inj hafter
      exact GamePlayer.fit_weapon (hfit _ rfl) hle
  | renames =>
      obtain rfl := Option.some.inj hafter
      exact GamePlayer.fit_named (hfit _ rfl) _
  | revives hgranted =>
      obtain rfl := Option.some.inj hafter
      exact GamePlayer.fit_respawn (hfit _ rfl) hgranted q
  | ticks =>
      obtain rfl := Option.some.inj hafter
      have hdt : le (0.0 : F) (GameRoomManager.tickSeconds room.tickIntervalMs) = true :=
        FloatOrder.div_nonneg (FloatOrder.natCast_nonneg _) FloatOrder.zero_lt_thousand
          FloatOrder.thousand_lt_ten_thousand
      exact GamePlayer.fit_move (GamePlayer.fit_coolDown (hfit _ rfl) hdt) _ _

theorem Orderly.perform (h : room.Orderly) (op : Op F) : (room.perform op).Orderly := by
  refine ⟨fun q => (perform_course h.filed op q).fit (h.fit q), h.filed.perform op, ?_⟩
  cases htick : op.isTick with
  | false =>
      rw [perform_players htick]
      exact h.timed
  | true =>
      obtain ⟨ord, rfl⟩ := op.exists_of_isTick htick
      exact h.timed.tick ord

theorem orderly_run (roomId tickIntervalMs : UInt32) (ops : List (Op F)) :
    (run perform (GameRoom.new roomId tickIntervalMs) ops).Orderly :=
  run_invariant_of_step (fun _ op h => h.perform op) ops (orderly_new roomId tickIntervalMs)

/-- **The life of a player.** Whatever sequence of operations a room has seen, and whoever the shots
among them have hit: `hp` is a multiple of the damage up to 100, exactly those with some are alive, the
timer of the living is zero and that of the dead between zero and the delay, the weapon is one of the
six, the name is not empty and has 32 bytes at most, and the player is filed under its id.  The match
is over when no time is left. -/
theorem life_kept (roomId tickIntervalMs : UInt32) (ops : List (Op Binary32)) :
    let room : GameRoom Binary32 := run perform (GameRoom.new roomId tickIntervalMs) ops
    (∀ q player, room.findPlayer q = some player →
      player.hp ∈ [0, 25, 50, 75, 100]
        ∧ (player.alive = true ↔ 0 < player.hp)
        ∧ (player.alive = true → SameValue player.respawnTimer 0.0)
        ∧ (player.alive = false →
          le 0.0 player.respawnTimer = true ∧ le player.respawnTimer 5.0 = true)
        ∧ player.weaponId ≤ 5
        ∧ player.name ≠ [] ∧ player.name.length ≤ 32
        ∧ player.playerId = q ∧ q ≠ 0)
      ∧ (room.matchOver = true ↔ room.timeLeftSec = 0) := by
  have h : (run perform (GameRoom.new roomId tickIntervalMs) ops : GameRoom Binary32).Orderly :=
    orderly_run roomId tickIntervalMs ops
  refine ⟨?_, h.timed⟩
  intro q player hplayer
  have hfit := h.fit q player hplayer
  have hlife : player.alive = true ↔ 0 < player.hp := by
    rw [UInt16.lt_iff_toNat_lt]
    exact hfit.vitals.life
  exact ⟨hfit.vitals.hp_mem, hlife, hfit.rested, hfit.waits, hfit.weapon, hfit.named, hfit.name_le,
    h.filed q player hplayer⟩

end GameRoom

end LightNet.Game
