/-
# LightNet.Game.Revival — how the dead come back.

A death starts a timer, the ticks let it run down, and the timer is looked at when the player asks for
a respawn.  How many ticks have passed since the death is not in the room; `Waiting` relates their
number to the timer.  Every operation either keeps that relation, or is the respawn and has found the
timer at zero.
-/
import LightNet.Game.Clock

namespace LightNet.Game

open LightNet.Foundation LightNet.Net
open GameRoomManager (tickSeconds)

namespace GamePlayer

/-- The timer goes down by the length of the tick at most. -/
theorem le_respawnTimer_coolDown (player : GamePlayer ℝ) {dt : ℝ} (hdt : 0 ≤ dt) :
    player.respawnTimer - dt ≤ (player.coolDown dt).respawnTimer := by
  simp only [coolDown, lt_exact]
  norm_num only
  split
  · linarith
  split
  · dsimp only
    split
    · rename_i hneg
      exact (of_decide_eq_true hneg).le
    · exact le_rfl
  · linarith

/-- A tick that is long enough lets the timer of a dead player run down. -/
theorem respawnTimer_coolDown_le (player : GamePlayer ℝ) (hdead : player.alive = false) {dt : ℝ}
    (hlong : player.respawnTimer ≤ dt) : (player.coolDown dt).respawnTimer ≤ 0 := by
  simp only [coolDown, hdead, lt_exact, Bool.false_eq_true, if_false]
  norm_num only
  split
  · dsimp only
    split
    · exact le_rfl
    · linarith
  · rename_i hzero
    simpa using hzero

@[simp] theorem respawnTimer_move (player : GamePlayer ℝ) (matchOver : Bool) (dt : ℝ) :
    (player.move matchOver dt).respawnTimer = player.respawnTimer := by
  simp only [move]
  split
  · rfl
  split
  · rfl
  · rfl

/-! ## Waiting -/

/-- The player is dead, and what its timer has lost since the death are the `k` ticks of `dt` seconds
that have passed. -/
structure Waiting (player : GamePlayer ℝ) (dt : ℝ) (k : Nat) : Prop where
  dead : player.alive = false
  timer : 5 ≤ player.respawnTimer + k * dt

variable {player : GamePlayer ℝ} {dt : ℝ} {k : Nat}

theorem waiting_killed (player : GamePlayer ℝ) (dt : ℝ) : player.killed.Waiting dt 0 where
  dead := rfl
  timer := by
    show 5 ≤ (kRespawnDelay : ℝ) + (0 : Nat) * dt
    rw [kRespawnDelay_exact]
    norm_num

theorem Waiting.congr (h : player.Waiting dt k) {player' : GamePlayer ℝ}
    (halive : player'.alive = player.alive) (htimer : player'.respawnTimer = player.respawnTimer) :
    player'.Waiting dt k where
  dead := halive.trans h.dead
  timer := htimer ▸ h.timer

theorem Waiting.tick (h : player.Waiting dt k) (hdt : 0 ≤ dt) (matchOver : Bool) :
    ((player.coolDown dt).move matchOver dt).Waiting dt (k + 1) where
  dead := (player.alive_tick matchOver dt).trans h.dead
  timer := by
    have hless := player.le_respawnTimer_coolDown hdt
    have htimer := h.timer
    rw [respawnTimer_move]
    push_cast
    linarith

end GamePlayer

namespace GameRoom

/-- Whether player `p` is alive, if it is in the room. -/
def alive (room : GameRoom ℝ) (p : UInt32) : Option Bool :=
  (room.findPlayer p).map GamePlayer.alive

/-- The hit points of player `p`, if it is in the room. -/
def hp (room : GameRoom ℝ) (p : UInt32) : Option UInt16 := (room.findPlayer p).map GamePlayer.hp

variable {room : GameRoom ℝ} {p : UInt32}

/-! ## Who may come back -/

/-- The room lets player `p` come back. -/
def Grants (room : GameRoom ℝ) (p : UInt32) : Prop :=
  ∃ player, room.findPlayer p = some player ∧ ¬room.Refuses player

theorem applyRespawn_of_grants (h : room.Grants p) :
    room.applyRespawn p = room.modifyPlayer p fun player => player.respawn p := by
  obtain ⟨player, hplayer, hgranted⟩ := h
  obtain ⟨hrefused, -⟩ | ⟨-, heq⟩ := applyRespawn_cases hplayer
  · exact absurd hrefused hgranted
  · exact heq

theorem applyRespawn_of_not_grants (h : ¬room.Grants p) : room.applyRespawn p = room := by
  cases hplayer : room.findPlayer p with
  | none => rw [applyRespawn, hplayer]
  | some player =>
      obtain ⟨-, heq⟩ | ⟨hgranted, -⟩ := applyRespawn_cases hplayer
      · exact heq
      · exact absurd ⟨player, hplayer, hgranted⟩ h

/-- A tick that is as long as the timer still runs ends the waiting. -/
theorem grants_after_tick {ord : IterOrder UInt32} {player : GamePlayer ℝ}
    (hplayer : room.findPlayer p = some player) (hdead : player.alive = false)
    (htimer : player.respawnTimer ≤ tickSeconds room.tickIntervalMs)
    (hmatch : (room.perform (.tick ord)).matchOver = false) :
    (room.perform (.tick ord)).Grants p := by
  refine ⟨_, (GameRoomManager.findPlayer_tick ord room p).trans (by rw [hplayer, Option.map_some]), ?_⟩
  rintro (hlive | hstopped | hpos)
  · rw [GamePlayer.alive_tick, hdead] at hlive
    cases hlive
  · exact Bool.false_ne_true (hmatch.symm.trans hstopped)
  · rw [GamePlayer.respawnTimer_move, lt_exact, decide_eq_true_eq] at hpos
    norm_num only at hpos
    exact hpos.not_ge (player.respawnTimer_coolDown_le hdead htimer)

/-- A first tick, of at least five seconds and less than the match, is enough. -/
theorem grants_after_first_tick {roomId d : UInt32} {ops : List (Op ℝ)} (hfirst : ticks ops = 0)
    (hlong : 5000 ≤ d.toNat) (hshort : d.toNat < 300000) {player : GamePlayer ℝ}
    (hplayer : (run perform (GameRoom.new roomId d) ops).findPlayer p = some player)
    (hdead : player.alive = false) (htimer : player.respawnTimer = kRespawnDelay)
    (ord : IterOrder UInt32) :
    ((run perform (GameRoom.new roomId d) ops).perform (.tick ord)).Grants p := by
  have hclock := (clocked_run roomId d ops).perform (.tick ord)
  have hinterval : (run perform (GameRoom.new roomId d : GameRoom ℝ) ops).tickIntervalMs = d :=
    tickIntervalMs_run _ ops
  apply grants_after_tick hplayer hdead
  · rw [htimer, hinterval, kRespawnDelay_exact, tickSeconds_exact, le_div_iff₀ (by norm_num)]
    norm_num only
    exact_mod_cast hlong
  · rw [← Bool.not_eq_true, hclock.matchOver_iff, hfirst, perform_tickIntervalMs, hinterval,
      tickSeconds_exact, ← mul_div_assoc, le_div_iff₀ (by norm_num)]
    show ¬(300 * 1000 : ℝ) ≤ (1 : Nat) * (d.toNat : ℝ)
    norm_num only
    rw [one_mul]
    exact_mod_cast not_le.mpr hshort

/-! ## From death to return -/

/-- **A death.** Whoever is dead after a step and was alive before has the whole delay ahead. -/
theorem Course.waiting_of_death {op : Op ℝ} {player player' : GamePlayer ℝ}
    (h : room.Course p op (some player) (some player')) (hlive : player.alive = true)
    (hdead : player'.alive = false) (dt : ℝ) : player'.Waiting dt 0 := by
  have hkept : player'.alive ≠ player.alive := by
    rw [hlive, hdead]
    exact Bool.false_ne_true
  generalize hafter : some player' = after at h
  cases h with
  | dies hshot hmatch hlive hhp =>
      obtain rfl := Option.some.inj hafter
      exact GamePlayer.waiting_killed _ dt
  | leaves => cases hafter
  | keeps hidle =>
      obtain rfl := Option.some.inj hafter
      exact absurd rfl hkept
  | reports haccepts =>
      obtain rfl := Option.some.inj hafter
      exact absurd (congrArg Vitals.alive (GamePlayer.vitals_onInput _ _)) hkept
  | revives hgranted =>
      obtain rfl := Option.some.inj hafter
      cases hdead
  | ticks =>
      obtain rfl := Option.some.inj hafter
      exact absurd (GamePlayer.alive_tick _ _ _) hkept
  | hurts hshot hmatch hlive hhp | scores hshot hmatch hlive | arms hle | renames =>
      obtain rfl := Option.some.inj hafter
      exact absurd rfl hkept

/-- **One step of the dead.** A dead player leaves, or waits on, or comes back by its own request when
the match goes on and the delay is over. -/
theorem Course.of_waiting {op : Op ℝ} {player : GamePlayer ℝ} {after : Option (GamePlayer ℝ)}
    {k : Nat} (h : room.Course p op (some player) after)
    (hwaiting : player.Waiting (tickSeconds room.tickIntervalMs) k) :
    op = .removePlayer p
      ∨ (∃ player', after = some player'
        ∧ player'.Waiting (tickSeconds room.tickIntervalMs) (k + if op.isTick then 1 else 0))
      ∨ op = .applyRespawn p ∧ room.matchOver = false
        ∧ 5 ≤ k * (tickSeconds room.tickIntervalMs : ℝ)
        ∧ after = some (player.respawn p) := by
  have hdead : player.alive ≠ true := by
    rw [hwaiting.dead]
    exact Bool.false_ne_true
  cases h with
  | leaves => exact .inl rfl
  | keeps hidle =>
      have hquiet : op.isTick = false := by
        cases op with
        | tick ord => cases hidle ord rfl
        | _ => rfl
      rw [hquiet]
      exact .inr (.inl ⟨player, rfl, hwaiting⟩)
  | reports haccepts => exact absurd haccepts.1 hdead
  | hurts hshot hmatch hlive hhp => exact absurd hlive hdead
  | dies hshot hmatch hlive hhp => exact absurd hlive hdead
  | scores hshot hmatch hlive => exact absurd hlive hdead
  | arms hle => exact .inr (.inl ⟨_, rfl, hwaiting.congr rfl rfl⟩)
  | renames => exact .inr (.inl ⟨_, rfl, hwaiting.congr rfl rfl⟩)
  | ticks =>
      exact .inr (.inl ⟨_, rfl, hwaiting.tick (tickSeconds_nonneg _) _⟩)
  | revives hgranted =>
      simp only [Refuses, not_or, Bool.not_eq_true, lt_exact, decide_eq_false_iff_not,
        not_lt] at hgranted
      obtain ⟨-, hmatch, htimer⟩ := hgranted
      norm_num only at htimer
      have hlong := hwaiting.timer
      exact .inr (.inr ⟨rfl, hmatch, by linarith, rfl⟩)

/-- **The way back.** A dead player who stays in the room and is alive at the end has waited out the
delay, and then asked for a respawn while the match went on. -/
theorem exists_respawn {k : Nat} {later : List (Op ℝ)} (hfiled : room.Filed) {player : GamePlayer ℝ}
    (hplayer : room.findPlayer p = some player)
    (hwaiting : player.Waiting (tickSeconds room.tickIntervalMs) k)
    (hstays : .removePlayer p ∉ later) (hback : (run perform room later).alive p = some true) :
    ∃ waiting rest, later = waiting ++ .applyRespawn p :: rest
      ∧ 5 ≤ ((k + ticks waiting : Nat) : ℝ) * tickSeconds room.tickIntervalMs
      ∧ (∀ n, (run perform room (waiting.take n)).alive p = some false)
      ∧ (run perform room waiting).matchOver = false
      ∧ ((run perform room waiting).applyRespawn p).alive p = some true
      ∧ ((run perform room waiting).applyRespawn p).hp p = some 100 := by
  have hdead : room.alive p = some false := by
    rw [alive, hplayer, Option.map_some, hwaiting.dead]
  induction later generalizing room player k with
  | nil =>
      rw [run_nil, hdead] at hback
      cases hback
  | cons op later ih =>
      have hcourse := perform_course hfiled op p
      rw [hplayer] at hcourse
      obtain rfl | ⟨player', hplayer', hwaiting'⟩ | ⟨rfl, hmatch, hlong, hafter⟩ :=
        hcourse.of_waiting hwaiting
      · exact absurd List.mem_cons_self hstays
      · -- it waits on
        have hdead' : (room.perform op).alive p = some false := by
          rw [alive, hplayer', Option.map_some, hwaiting'.dead]
        rw [← perform_tickIntervalMs room op] at hwaiting'
        obtain ⟨waiting, rest, rfl, hlong, hall, hrevived⟩ := ih (hfiled.perform op) hplayer'
          hwaiting' (fun hmem => hstays (List.mem_cons_of_mem op hmem)) hback hdead'
        refine ⟨op :: waiting, rest, rfl, ?_, ?_, hrevived⟩
        · rw [perform_tickIntervalMs] at hlong
          rwa [ticks, List.countP_cons, Nat.add_comm (List.countP _ _), ← Nat.add_assoc]
        · rintro (- | n)
          · exact hdead
          · exact hall n
      · have hrespawned : (room.applyRespawn p).findPlayer p = some (player.respawn p) := hafter
        refine ⟨[], later, rfl, hlong, ?_, hmatch, ?_, ?_⟩
        · intro n
          rw [List.take_nil]
          exact hdead
        · rw [run_nil, alive, hrespawned]
          rfl
        · rw [run_nil, hp, hrespawned]
          rfl

/-! ## The contract -/

/-- **The respawn delay cannot be bypassed.** In any run of a room, if a player dies in a step and is
alive later, without having left the room: in between, it has asked for a respawn while the match went
on; at that step it came back, with all hit points; and until then it was dead, for `k` ticks with
`5000 ≤ k * d`. -/
theorem respawn_delay (roomId d : UInt32) (before : List (Op ℝ)) (fatal : Op ℝ) (later : List (Op ℝ))
    (p : UInt32) (hlive : (run perform (GameRoom.new roomId d) before).alive p = some true)
    (hdies : (run perform (GameRoom.new roomId d) (before ++ [fatal])).alive p = some false)
    (hstays : .removePlayer p ∉ later)
    (hback : (run perform (GameRoom.new roomId d) (before ++ fatal :: later)).alive p = some true) :
    ∃ waiting rest, later = waiting ++ .applyRespawn p :: rest ∧ 5000 ≤ ticks waiting * d.toNat
      ∧ (∀ n, (run perform (GameRoom.new roomId d) (before ++ fatal :: waiting.take n)).alive p
        = some false)
      ∧ let room := run perform (GameRoom.new roomId d) (before ++ fatal :: waiting)
        room.matchOver = false ∧ (room.applyRespawn p).alive p = some true
          ∧ (room.applyRespawn p).hp p = some 100 := by
  have hfiled := filed_run (F := ℝ) roomId d before
  have hinterval := tickIntervalMs_run (GameRoom.new roomId d) before
  simp only [run_append, run_cons, run_nil] at hdies hback ⊢
  generalize run perform (GameRoom.new roomId d) before = room at *
  obtain ⟨player, hplayer, hlive⟩ := Option.map_eq_some_iff.mp hlive
  obtain ⟨player', hplayer', hdead⟩ := Option.map_eq_some_iff.mp hdies
  have hcourse := perform_course hfiled fatal p
  rw [hplayer, hplayer'] at hcourse
  have hwaiting := hcourse.waiting_of_death hlive hdead
    (tickSeconds (room.perform fatal).tickIntervalMs)
  obtain ⟨waiting, rest, hsplit, hlong, hrest⟩ :=
    exists_respawn (hfiled.perform fatal) hplayer' hwaiting hstays hback
  refine ⟨waiting, rest, hsplit, ?_, hrest⟩
  rw [perform_tickIntervalMs, hinterval, tickSeconds_exact, Nat.zero_add] at hlong
  have hlong : (5000 : ℝ) ≤ (ticks waiting * d.toNat : Nat) := by
    have hd : (GameRoom.new roomId d : GameRoom ℝ).tickIntervalMs = d := rfl
    rw [hd] at hlong
    push_cast
    linarith
  exact_mod_cast hlong

/-- Two players, the first of whom shoots the second three times. -/
def duel : List (Op ℝ) :=
  [.addPlayer ⟨127, 0, 0, 1, 7000⟩ 1, .addPlayer ⟨127, 0, 0, 1, 7001⟩ 2, .applyFireAt 1 2,
    .applyFireAt 1 2, .applyFireAt 1 2]

/-- The second player leaves, and a player joins under the same id. -/
def rejoin : List (Op ℝ) := [.removePlayer 2, .addPlayer ⟨127, 0, 0, 1, 7001⟩ 2]

/-- The fourth shot kills.  Who joins under the id of the dead player is a new player, who is alive at
once: no tick has passed, and nobody has asked for a respawn. -/
theorem rejoined_alive :
    (run perform (GameRoom.new 1 5000) duel).alive 2 = some true
      ∧ (run perform (GameRoom.new 1 5000) (duel ++ [.applyFireAt 1 2])).alive 2 = some false
      ∧ (run perform (GameRoom.new 1 5000) (duel ++ .applyFireAt 1 2 :: rejoin)).alive 2 = some true
      ∧ ticks rejoin = 0
      ∧ ¬ ∃ waiting rest, rejoin = waiting ++ .applyRespawn 2 :: rest
          ∧ 5000 ≤ ticks waiting * (5000 : UInt32).toNat := by
  refine ⟨rfl, rfl, rfl, rfl, ?_⟩
  rintro ⟨waiting, rest, hsplit, -⟩
  have hasked : .applyRespawn 2 ∈ rejoin := by
    rw [hsplit]
    exact List.mem_append_right _ List.mem_cons_self
  simp [rejoin] at hasked

/-- A tick, and the second player asks for a respawn. -/
def comeback : List (Op ℝ) := [.tick (.entries _), .applyRespawn 2]

theorem comeback_alive :
    (run perform (GameRoom.new 1 5000) (duel ++ .applyFireAt 1 2 :: comeback)).alive 2 = some true := by
  have hgrants : ((run perform (GameRoom.new 1 5000) (duel ++ [.applyFireAt 1 2])).perform
      (.tick (.entries _))).Grants 2 :=
    grants_after_first_tick rfl (by decide) (by decide) rfl rfl rfl _
  simp only [comeback, run_append, run_cons, run_nil] at hgrants ⊢
  generalize ((run perform (GameRoom.new 1 5000) duel).perform (.applyFireAt 1 2)).perform
    (.tick (.entries _)) = room at *
  show (room.applyRespawn 2).alive 2 = some true
  rw [applyRespawn_of_grants hgrants, alive, findPlayer_modifyPlayer, if_pos rfl]
  obtain ⟨player, hplayer, -⟩ := hgrants
  rw [hplayer]
  rfl

/-- The fourth shot kills, and one tick of five seconds later the second player is back. -/
theorem respawn_delay_sample :
    ∃ waiting rest, comeback = waiting ++ .applyRespawn 2 :: rest
      ∧ 5000 ≤ ticks waiting * (5000 : UInt32).toNat := by
  obtain ⟨waiting, rest, hsplit, hlong, -⟩ := respawn_delay 1 5000 duel (.applyFireAt 1 2)
    comeback 2 rfl rfl (by simp [comeback]) comeback_alive
  exact ⟨waiting, rest, hsplit, hlong⟩

end GameRoom

end LightNet.Game
