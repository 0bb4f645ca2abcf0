/-
# LightNet.Game.Course — what an operation of the room does to one player.

The operations of a room come in any order, and most of them leave most players alone.  `Course` lists
what can happen to the record of one player in one operation, with the guards that the operation has
checked; `perform_course` says that nothing else happens.  Every law about a player over whole runs is
then a case analysis of `Course`.
-/
import LightNet.Game.Serving

namespace LightNet.Game

open LightNet.Foundation LightNet.Net
open FloatArith (lt le)
open GameRoomManager (tickSeconds)

variable {F : Type} [FloatArith F]

namespace GameRoom

/-! ## Operations -/

/-- `apply_fire` from behind the hit test, which has found the player filed under `targetKey`.  The
test finds living players other than the shooter only. -/
def applyFireAt (room : GameRoom F) (shooterId targetKey : UInt32) : GameRoom F :=
  match room.findPlayer shooterId, room.findPlayer targetKey with
  | some shooter, some target =>
      if room.matchOver = false ∧ shooter.alive = true ∧ target.alive = true ∧ targetKey ≠ shooterId then
        (room.hit shooterId targetKey target).room
      else room
  | _, _ => room

/-- An operation of the room with its arguments, and for the loops over `players_` their order.  A
shot comes twice: with the hit test as it is computed, and with any outcome of it. -/
inductive Op (F : Type)
  | addPlayer (peer : SockAddrIn) (playerId : UInt32)
  | removePlayer (playerId : UInt32)
  | applyInput (playerId : UInt32) (input : GameInputPayload F)
  | applyFire (ord : IterOrder UInt32) (shooterId : UInt32) (fire : GameFirePayload F)
  | applyFireAt (shooterId targetKey : UInt32)
  | applyWeapon (playerId : UInt32) (weaponId : UInt8)
  | applyProfile (playerId : UInt32) (name : Bytes)
  | applyRespawn (playerId : UInt32)
  | tick (ord : IterOrder UInt32)

/-- The room after an operation. -/
def perform (room : GameRoom F) : Op F → GameRoom F
  | .addPlayer peer playerId => (room.addPlayer peer playerId).2
  | .removePlayer playerId => room.removePlayer playerId
  | .applyInput playerId input => room.applyInput playerId input
  | .applyFire ord shooterId fire => (room.applyFire ord shooterId fire).room
  | .applyFireAt shooterId targetKey => room.applyFireAt shooterId targetKey
  | .applyWeapon playerId weaponId => room.applyWeapon playerId weaponId
  | .applyProfile playerId name => room.applyProfile playerId name
  | .applyRespawn playerId => room.applyRespawn playerId
  | .tick ord => (room.tick ord).2

/-! ## One player -/

/-- An input counts: the player lives, the match goes on, and the input is newer than the last one. -/
def Accepts (room : GameRoom F) (player : GamePlayer F) (input : GameInputPayload F) : Prop :=
  player.alive = true ∧ room.matchOver = false ∧ player.lastInputSeq < input.inputSeq

/-- The room takes the input of player `p` over. -/
def Takes (room : GameRoom F) (p : UInt32) (input : GameInputPayload F) : Prop :=
  ∃ player, room.findPlayer p = some player ∧ room.Accepts player input

omit [FloatArith F] in
/-- The operation is a shot. -/
def Op.IsShot : Op F → Prop
  | .applyFire _ _ _ | .applyFireAt _ _ => True
  | _ => False

omit [FloatArith F] in
/-- The operation is a tick. -/
def Op.isTick : Op F → Bool
  | .tick _ => true
  | _ => false

/-- The number of ticks among the operations. -/
def ticks (ops : List (Op F)) : Nat := ops.countP Op.isTick

/-- What an operation makes of the record of player `q`. -/
inductive Course (room : GameRoom F) (q : UInt32) :
    Op F → Option (GamePlayer F) → Option (GamePlayer F) → Prop
  | keeps {op : Op F} {record : Option (GamePlayer F)}
      (hidle : ∀ ord, op = .tick ord → record = none) : Course room q op record record
  | joins {peer : SockAddrIn} (hq : q ≠ 0) :
      Course room q (.addPlayer peer q) none (some (.spawn peer q room.playerCount))
  | leaves {record : Option (GamePlayer F)} : Course room q (.removePlayer q) record none
  | reports {player : GamePlayer F} {input : GameInputPayload F}
      (haccepts : room.Accepts player input) :
      Course room q (.applyInput q input) (some player) (some (player.onInput input))
  | hurts {op : Op F} {player : GamePlayer F} (hshot : op.IsShot) (hmatch : room.matchOver = false)
      (hlive : player.alive = true) (hhp : kFireDamage < player.hp) :
      Course room q op (some player) (some player.hurt)
  | dies {op : Op F} {player : GamePlayer F} (hshot : op.IsShot) (hmatch : room.matchOver = false)
      (hlive : player.alive = true) (hhp : player.hp ≤ kFireDamage) :
      Course room q op (some player) (some player.killed)
  | scores {op : Op F} {player : GamePlayer F} (hshot : op.IsShot) (hmatch : room.matchOver = false)
      (hlive : player.alive = true) : Course room q op (some player) (some player.scored)
  | arms {player : GamePlayer F} {weaponId : UInt8} (hle : weaponId ≤ 5) :
      Course room q (.applyWeapon q weaponId) (some player) (some { player with weaponId })
  | renames {player : GamePlayer F} {name : Bytes} :
      Course room q (.applyProfile q name) (some player)
        (some { player with name := if name = [] then player.name else name.take 32 })
  | revives {player : GamePlayer F} (hgranted : ¬room.Refuses player) :
      Course room q (.applyRespawn q) (some player) (some (player.respawn q))
  | ticks {ord : IterOrder UInt32} {player : GamePlayer F} :
      Course room q (.tick ord) (some player)
        (some ((player.coolDown (tickSeconds room.tickIntervalMs)).move (room.tick ord).2.matchOver
          (tickSeconds room.tickIntervalMs)))

variable {room : GameRoom F} {q : UInt32}

/-! ## Inputs -/

theorem applyInput_of_accepts {player : GamePlayer F} {input : GameInputPayload F}
    (hplayer : room.findPlayer q = some player) (haccepts : room.Accepts player input) :
    room.applyInput q input = room.modifyPlayer q fun player => player.onInput input := by
  obtain ⟨halive, hmatch, hnew⟩ := haccepts
  rw [applyInput, hplayer]
  dsimp only
  rw [if_neg (by rw [halive, hmatch]; decide), if_neg (UInt32.not_le.mpr hnew)]

theorem applyInput_of_ignored {input : GameInputPayload F}
    (hignored : ∀ player, room.findPlayer q = some player → ¬room.Accepts player input) :
    room.applyInput q input = room := by
  cases hplayer : room.findPlayer q with
  | none => rw [applyInput, hplayer]
  | some player =>
      rw [applyInput, hplayer]
      dsimp only
      split
      · rfl
      split
      · rfl
      · rename_i hguard hold
        simp only [Bool.or_eq_true, Bool.not_eq_true', not_or, Bool.not_eq_true,
          Bool.not_eq_false] at hguard
        exact absurd ⟨hguard.1, hguard.2, UInt32.not_le.mp hold⟩ (hignored player hplayer)

theorem applyInput_of_not_takes {input : GameInputPayload F} (h : ¬room.Takes q input) :
    room.applyInput q input = room :=
  applyInput_of_ignored fun player hplayer haccepts => h ⟨player, hplayer, haccepts⟩

omit [FloatArith F] in
theorem Op.exists_of_isTick {op : Op F} (htick : op.isTick = true) : ∃ ord, op = .tick ord := by
  cases op with
  | tick ord => exact ⟨ord, rfl⟩
  | _ => exact absurd htick Bool.false_ne_true

omit [FloatArith F] in
theorem Op.IsShot.quiet {op : Op F} (hshot : op.IsShot) : op.isTick = false := by
  cases op with
  | tick ord => exact hshot.elim
  | _ => rfl

/-! ## Every operation -/

/-- Nothing but a tick gets to everybody. -/
theorem Course.idle {op : Op F} {record : Option (GamePlayer F)} (hquiet : op.isTick = false) :
    Course room q op record record := by
  refine .keeps fun ord htick => ?_
  subst htick
  cases hquiet

/-- A shot wounds or kills at most one player, and scores for the shooter. -/
theorem Shot.course {p : UInt32} {room' : GameRoom F} {evs : List GameEventPayload} {op : Op F}
    (h : room.Shot p room' evs) (hop : op.IsShot) (q : UInt32) :
    Course room q op (room.findPlayer q) (room'.findPlayer q) := by
  cases h with
  | miss => exact .idle hop.quiet
  | @hit t shooter target hmatch hshooter haim htarget hlive hne hhp =>
      rw [findPlayer_modifyPlayer]
      split
      · rename_i hq
        rw [hq, htarget]
        exact .hurts hop hmatch hlive hhp
      · exact .idle hop.quiet
  | @kill t shooter target hmatch hshooter haim htarget hlive hne hhp =>
      rw [findPlayer_modifyPlayer]
      split
      · rename_i hq
        rw [hq, findPlayer_modifyPlayer, if_neg hne.symm, hshooter]
        exact .scores hop hmatch haim
      · rw [findPlayer_modifyPlayer]
        split
        · rename_i hq
          rw [hq, htarget]
          exact .dies hop hmatch hlive hhp
        · exact .idle hop.quiet

/-- An operation that changes the record of player `p`. -/
theorem course_modifyPlayer {op : Op F} (hquiet : op.isTick = false) {p : UInt32}
    {f : GamePlayer F → GamePlayer F} (hf : ∀ player, room.findPlayer p = some player →
      Course room p op (some player) (some (f player))) (q : UInt32) :
    Course room q op (room.findPlayer q) ((room.modifyPlayer p f).findPlayer q) := by
  rw [findPlayer_modifyPlayer]
  split
  · rename_i hq
    subst hq
    cases hplayer : room.findPlayer q with
    | none => exact .idle hquiet
    | some player => exact hf player hplayer
  · exact .idle hquiet

theorem course_addPlayer (peer : SockAddrIn) (p q : UInt32) :
    Course room q (.addPlayer peer p) (room.findPlayer q)
      ((room.addPlayer peer p).2.findPlayer q) := by
  unfold addPlayer
  split
  · exact .idle rfl
  · rename_i hnew
    rw [not_or] at hnew
    show Course room q _ _ ((room.players.insert p _).lookup q)
    rw [UnorderedMap.lookup_insert]
    split
    · rename_i hq
      subst hq
      have hfree : room.findPlayer q = none := by
        rw [findPlayer, ← Option.not_isSome_iff_eq_none, AList.lookup_isSome]
        exact hnew.2
      rw [hfree]
      exact .joins hnew.1
    · exact .idle rfl

theorem course_removePlayer (p q : UInt32) :
    Course room q (.removePlayer p) (room.findPlayer q) ((room.removePlayer p).findPlayer q) := by
  show Course room q _ _ ((room.players.erase p).lookup q)
  rw [UnorderedMap.lookup_erase]
  split
  · rename_i hq
    subst hq
    exact .leaves
  · exact .idle rfl

theorem course_applyInput (p : UInt32) (input : GameInputPayload F) (q : UInt32) :
    Course room q (.applyInput p input) (room.findPlayer q)
      ((room.applyInput p input).findPlayer q) := by
  by_cases htakes : room.Takes p input
  · obtain ⟨player, hplayer, haccepts⟩ := htakes
    rw [applyInput_of_accepts hplayer haccepts]
    refine course_modifyPlayer rfl (fun player' hplayer' => ?_) q
    obtain rfl := Option.some.inj (hplayer.symm.trans hplayer')
    exact .reports haccepts
  · rw [applyInput_of_not_takes htakes]
    exact .idle rfl

theorem course_applyFireAt (hfiled : room.Filed) (p t q : UInt32) :
    Course room q (.applyFireAt p t) (room.findPlayer q)
      ((room.applyFireAt p t).findPlayer q) := by
  unfold applyFireAt
  split
  · rename_i shooter target hshooter htarget
    split
    · rename_i hshot
      obtain ⟨hmatch, haim, hlive, hne⟩ := hshot
      have hop : (Op.applyFireAt p t : Op F).IsShot := trivial
      exact (shot_hit hfiled hmatch hshooter haim htarget hlive hne).course hop q
    · exact .idle rfl
  · exact .idle rfl

theorem course_applyWeapon (p : UInt32) (weaponId : UInt8) (q : UInt32) :
    Course room q (.applyWeapon p weaponId) (room.findPlayer q)
      ((room.applyWeapon p weaponId).findPlayer q) := by
  obtain heq | ⟨hle, heq⟩ := room.applyWeapon_cases p weaponId
  · rw [heq]
    exact .idle rfl
  · rw [heq]
    exact course_modifyPlayer rfl (fun _ _ => .arms hle) q

theorem course_applyRespawn (p q : UInt32) :
    Course room q (.applyRespawn p) (room.findPlayer q)
      ((room.applyRespawn p).findPlayer q) := by
  cases hplayer : room.findPlayer p with
  | none =>
      rw [applyRespawn, hplayer]
      exact .idle rfl
  | some player =>
      obtain ⟨-, heq⟩ | ⟨hgranted, heq⟩ := applyRespawn_cases hplayer
      · rw [heq]
        exact .idle rfl
      · rw [heq]
        refine course_modifyPlayer rfl (fun player' hplayer' => ?_) q
        obtain rfl := Option.some.inj (hplayer.symm.trans hplayer')
        exact .revives hgranted

theorem course_tick (ord : IterOrder UInt32) (q : UInt32) :
    Course room q (.tick ord) (room.findPlayer q) ((room.tick ord).2.findPlayer q) := by
  rw [GameRoomManager.findPlayer_tick]
  cases room.findPlayer q with
  | none => exact .keeps fun _ _ => rfl
  | some player => exact .ticks

/-- **One operation, one player.** -/
theorem perform_course (hfiled : room.Filed) (op : Op F) (q : UInt32) :
    Course room q op (room.findPlayer q) ((room.perform op).findPlayer q) := by
  cases op with
  | addPlayer peer p => exact course_addPlayer peer p q
  | removePlayer p => exact course_removePlayer p q
  | applyInput p input => exact course_applyInput p input q
  | applyFire ord p fire =>
      have hop : (Op.applyFire ord p fire).IsShot := trivial
      exact (shot_applyFire hfiled ord p fire).course hop q
  | applyFireAt p t => exact course_applyFireAt hfiled p t q
  | applyWeapon p weaponId => exact course_applyWeapon p weaponId q
  | applyProfile p name => exact course_modifyPlayer rfl (fun _ _ => .renames) q
  | applyRespawn p => exact course_applyRespawn p q
  | tick ord => exact course_tick ord q

/-! ## What the operations leave alone -/

theorem hit_players (room : GameRoom F) (p t : UInt32) (target : GamePlayer F) :
    (room.hit p t target).room = { room with players := (room.hit p t target).room.players } := by
  unfold hit
  split
  · rfl
  · rfl

/-- Operations other than a tick change nothing but the players. -/
theorem perform_players {op : Op F} (hquiet : op.isTick = false) :
    room.perform op = { room with players := (room.perform op).players } := by
  cases op with
  | addPlayer peer p =>
      simp only [perform, addPlayer]
      split
      · rfl
      · rfl
  | removePlayer p => rfl
  | applyInput p input =>
      obtain heq | ⟨-, heq⟩ := room.applyInput_cases p input
      · rw [perform, heq]
      · rw [perform, heq]
        rfl
  | applyFire ord p fire =>
      simp only [perform, applyFire]
      split
      · rfl
      split
      · rfl
      split
      · rfl
      split
      · rfl
      split
      · rfl
      split
      · rfl
      · exact hit_players room p _ _
  | applyFireAt p t =>
      simp only [perform, applyFireAt]
      split
      · split
        · exact hit_players room p t _
        · rfl
      · rfl
  | applyWeapon p weaponId =>
      obtain heq | ⟨-, heq⟩ := room.applyWeapon_cases p weaponId
      · rw [perform, heq]
      · rw [perform, heq]
        rfl
  | applyProfile p name => rfl
  | applyRespawn p =>
      cases hplayer : room.findPlayer p with
      | none => rw [perform, applyRespawn, hplayer]
      | some player =>
          obtain ⟨-, heq⟩ | ⟨-, heq⟩ := applyRespawn_cases hplayer
          · rw [perform, heq]
          · rw [perform, heq]
            rfl
  | tick ord => cases hquiet

/-- No operation changes the interval of the ticks. -/
@[simp] theorem perform_tickIntervalMs (room : GameRoom F) (op : Op F) :
    (room.perform op).tickIntervalMs = room.tickIntervalMs := by
  cases htick : op.isTick with
  | false => rw [perform_players htick]
  | true =>
      obtain ⟨ord, rfl⟩ := op.exists_of_isTick htick
      simp only [perform, tick, simulateMovement, simulateRespawn, advanceClock]
      split
      · rfl
      · rfl

/-! ## Runs -/

theorem tickIntervalMs_run (room : GameRoom F) (ops : List (Op F)) :
    (run perform room ops).tickIntervalMs = room.tickIntervalMs := by
  induction ops generalizing room with
  | nil => rfl
  | cons op ops ih => rw [run_cons, ih, perform_tickIntervalMs]

theorem filed_new (roomId tickIntervalMs : UInt32) :
    (GameRoom.new roomId tickIntervalMs : GameRoom F).Filed := fun _ _ h => nomatch h

theorem Filed.perform (h : room.Filed) (op : Op F) : (room.perform op).Filed := by
  intro q player' hplayer'
  have hcourse := perform_course h op q
  rw [hplayer'] at hcourse
  generalize hbefore : room.findPlayer q = before at hcourse
  cases hcourse with
  | keeps hidle => exact h q player' hbefore
  | joins hq => exact ⟨rfl, hq⟩
  | @reports player input haccepts =>
      have hid : (player.onInput input).playerId = player.playerId :=
        congrArg Identity.playerId (player.identity_onInput input)
      rw [hid]
      exact h q player hbefore
  | @hurts _ player hshot hmatch hlive hhp => exact h q player hbefore
  | @dies _ player hshot hmatch hlive hhp => exact h q player hbefore
  | @scores _ player hshot hmatch hlive => exact h q player hbefore
  | @arms player _ hle => exact h q player hbefore
  | @renames player _ => exact h q player hbefore
  | @revives player hgranted => exact h q player hbefore
  | @ticks ord player =>
      have hsame : ∀ dt b dt', ((player.coolDown dt).move b dt').identity = player.identity := by
        intro dt b dt'
        simp
      have hid := congrArg Identity.playerId (hsame (tickSeconds room.tickIntervalMs)
        (room.tick ord).2.matchOver (tickSeconds room.tickIntervalMs))
      obtain ⟨hkey, hq⟩ := h q player hbefore
      exact ⟨hid.trans hkey, hq⟩

theorem filed_run (roomId tickIntervalMs : UInt32) (ops : List (Op F)) :
    (run perform (GameRoom.new roomId tickIntervalMs) ops).Filed :=
  run_invariant_of_step (fun _ op h => h.perform op) ops (filed_new roomId tickIntervalMs)

end GameRoom

end LightNet.Game
