/-
# LightNet.Game.Room — one match, as in `game/room.cpp`.

`players_` is a hash table; a change through a player pointer is a change of the mapped value under
its key.  Where a loop over the table depends on the order (the shot that is looked for, the order of
a snapshot), the iteration order is a parameter; where every player is changed on its own it is not.
-/
import LightNet.Foundation.Decimal
import LightNet.Foundation.UnorderedMap
import LightNet.Game.Float
import LightNet.Game.Packet
import LightNet.Net.SockAddr

namespace LightNet.Game

open LightNet.Foundation LightNet.Net
open FloatArith (sqrt sin cos lt le)

/-- `lightnet::GamePlayer`. -/
structure GamePlayer (F : Type) where
  playerId : UInt32
  peer : SockAddrIn
  x : F
  y : F
  z : F
  yaw : Int16 := 0
  pitch : Int16 := 0
  moveX : Int8 := 0
  moveY : Int8 := 0
  hp : UInt16 := 100
  lastInputSeq : UInt32 := 0
  clientTick : UInt32 := 0
  alive : Bool := true
  weaponId : UInt8 := 0
  kills : UInt16 := 0
  deaths : UInt16 := 0
  name : Bytes := []
  respawnTimer : F
  clientPosAuthoritative : Bool := false
  deriving DecidableEq

/-- `lightnet::GameRoom`. -/
structure GameRoom (F : Type) where
  roomId : UInt32
  serverTick : UInt32 := 0
  tickIntervalMs : UInt32
  timeLeftSec : UInt32 := 300
  matchAccum : F
  matchOver : Bool := false
  players : UnorderedMap UInt32 (GamePlayer F) := ∅

/-- What `apply_fire` returns, with the room after it. -/
structure FireResult (F : Type) where
  room : GameRoom F
  targetId : UInt32 := 0
  hp : UInt16 := 0
  killed : Bool := false

variable {F : Type} [FloatArith F]

/-! ## Constants -/

/-- How far a player moves in a second, in each axis of its input. -/
def kMoveSpeed : F := 6.0
/-- How far a shot carries. -/
def kMaxHitRange : F := 80.0
/-- How near to the line of a shot the target has to be. -/
def kHitRadius : F := 1.2
/-- What a hit takes of `hp`. -/
def kFireDamage : UInt16 := 25
/-- How many seconds a dead player waits. -/
def kRespawnDelay : F := 5.0
/-- Degrees to radians. -/
def kDeg2Rad : F := 3.14159265358979323846 / 180.0
/-- A `yaw` counts hundredths of a degree. -/
def kYawScale : F := 100.0

/-- `"Player"`. -/
def kPlayer : Bytes := ascii ['P', 'l', 'a', 'y', 'e', 'r']

namespace GamePlayer

/-! ## One player -/

/-- A player that has just joined as number `idx` of the room. -/
def spawn (peer : SockAddrIn) (playerId : UInt32) (idx : Nat) : GamePlayer F where
  playerId := playerId
  peer := peer
  x := ((idx % 4 : Nat) : F) * 3.0
  y := 13.0
  z := ((idx / 4 : Nat) : F) * 3.0
  name := kPlayer ++ decimal playerId.toNat
  respawnTimer := 0.0

/-- The position after an input that reports one: at most `maxStep` from the old position. -/
def moveTowards (player : GamePlayer F) (input : GameInputPayload F) (maxStep : F) : GamePlayer F :=
  let dx := input.posX - player.x
  let dy := input.posY - player.y
  let dz := input.posZ - player.z
  let dist := sqrt (dx * dx + dy * dy + dz * dz)
  -- a comparison with NaN is false, so such a position takes neither branch
  if le dist maxStep then { player with x := input.posX, y := input.posY, z := input.posZ }
  else if lt 0.0001 dist then
    let s := maxStep / dist
    { player with x := player.x + dx * s, y := player.y + dy * s, z := player.z + dz * s }
  else player

/-- The part of `apply_input` behind its guards. -/
def onInput (player : GamePlayer F) (input : GameInputPayload F) : GamePlayer F :=
  let firstInput := player.lastInputSeq == 0
  let player := { player with
    lastInputSeq := input.inputSeq, clientTick := input.clientTick, moveX := input.moveX,
    moveY := input.moveY, yaw := input.yaw, pitch := input.pitch }
  if input.hasPos ≠ 0 then
    { player with clientPosAuthoritative := true }.moveTowards input
      (if firstInput then 100.0 else 3.0)
  else { player with clientPosAuthoritative := false }

/-- One turn of the loop in `simulate_movement`. -/
def move (matchOver : Bool) (dt : F) (player : GamePlayer F) : GamePlayer F :=
  if !player.alive || matchOver then player
  else if player.clientPosAuthoritative then player
  else
    let yawDeg := (player.yaw.toInt : F) / kYawScale
    let yaw := yawDeg * kDeg2Rad
    let fx := sin yaw
    let fz := cos yaw
    let rx := cos yaw
    let rz := -sin yaw
    let nx := (player.moveX.toInt : F) / 127.0
    let nz := (player.moveY.toInt : F) / 127.0
    { player with
      x := player.x + (fx * nz + rx * nx) * kMoveSpeed * dt
      z := player.z + (fz * nz + rz * nx) * kMoveSpeed * dt }

/-- One turn of the loop in `simulate_respawn`. -/
def coolDown (dt : F) (player : GamePlayer F) : GamePlayer F :=
  if player.alive then player
  else if lt 0.0 player.respawnTimer then
    let timer := player.respawnTimer - dt
    { player with respawnTimer := if lt timer 0.0 then 0.0 else timer }
  else player

/-- The part of `apply_respawn` behind its guards. -/
def respawn (player : GamePlayer F) (playerId : UInt32) : GamePlayer F :=
  { player with
    alive := true
    hp := 100
    x := (((playerId % 4) * 3).toNat : F)
    y := 13.0
    z := (((playerId / 4) * 3).toNat : F)
    moveX := 0
    moveY := 0 }

/-- The entry of a player in a snapshot. -/
def snapshot (player : GamePlayer F) : GamePlayerSnapshot F where
  playerId := player.playerId
  x := player.x
  y := player.y
  z := player.z
  yaw := player.yaw
  pitch := player.pitch
  hp := player.hp
  stateFlags := if player.alive then 0 else 1
  lastInputSeq := player.lastInputSeq
  weaponId := player.weaponId
  pad0 := 0
  kills := player.kills
  deaths := player.deaths

end GamePlayer

namespace GameRoom

/-! ## Joining and leaving -/

/-- `GameRoom(room_id, tick_interval_ms)`. -/
def new (roomId tickIntervalMs : UInt32) : GameRoom F where
  roomId := roomId
  tickIntervalMs := tickIntervalMs
  matchAccum := 0.0

/-- `player_count()`. -/
def playerCount (room : GameRoom F) : Nat := UnorderedMap.size room.players

/-- `find_player(player_id)`. -/
def findPlayer (room : GameRoom F) (playerId : UInt32) : Option (GamePlayer F) :=
  room.players.lookup playerId

/-- A change through the pointer that `find_player` returns. -/
def modifyPlayer (room : GameRoom F) (playerId : UInt32) (f : GamePlayer F → GamePlayer F) :
    GameRoom F :=
  { room with players := UnorderedMap.modify playerId f room.players }

/-- `add_player(peer, player_id)`: 0 if there is no id, or a player with it already. -/
def addPlayer (room : GameRoom F) (peer : SockAddrIn) (playerId : UInt32) : UInt32 × GameRoom F :=
  if playerId = 0 ∨ playerId ∈ room.players then (0, room)
  else
    let player := GamePlayer.spawn peer playerId room.playerCount
    (playerId, { room with players := room.players.insert playerId player })

/-- `remove_player(player_id)`. -/
def removePlayer (room : GameRoom F) (playerId : UInt32) : GameRoom F :=
  { room with players := room.players.erase playerId }

/-! ## Inputs -/

/-- `apply_input(player_id, input)`. -/
def applyInput (room : GameRoom F) (playerId : UInt32) (input : GameInputPayload F) : GameRoom F :=
  match room.findPlayer playerId with
  | none => room
  | some player =>
      if !player.alive || room.matchOver then room
      -- late and repeated inputs are dropped
      else if input.inputSeq ≤ player.lastInputSeq then room
      else room.modifyPlayer playerId fun player => player.onInput input

/-! ## Shots -/

/-- One turn of the loop in `find_hit_target`: the best target so far and its distance. -/
def considerTarget (shooter : GamePlayer F) (fire : GameFirePayload F)
    (best : Option UInt32 × F) (entry : UInt32 × GamePlayer F) : Option UInt32 × F :=
  let player := entry.2
  if player.playerId = shooter.playerId || !player.alive then best
  else
    let tx := player.x - fire.originX
    let ty := (player.y + 1.0) - fire.originY
    let tz := player.z - fire.originZ
    let t := tx * fire.dirX + ty * fire.dirY + tz * fire.dirZ
    if lt t 0.5 || lt kMaxHitRange t then best
    else
      let px := fire.originX + fire.dirX * t
      let py := fire.originY + fire.dirY * t
      let pz := fire.originZ + fire.dirZ * t
      let dx := player.x - px
      let dy := (player.y + 1.0) - py
      let dz := player.z - pz
      let dist := sqrt (dx * dx + dy * dy + dz * dz)
      if le dist kHitRadius && lt t best.2 then (some entry.1, t) else best

/-- `find_hit_target`: the key of the player that is hit. -/
def findHitTarget (ord : IterOrder UInt32) (room : GameRoom F) (shooter : GamePlayer F)
    (fire : GameFirePayload F) : Option UInt32 :=
  ((UnorderedMap.iterate ord room.players).foldl (considerTarget shooter fire)
    (none, kMaxHitRange)).1

/-- The shot from the shooter's own position, in the direction that the client has reported. -/
def validated (shooter : GamePlayer F) (fire : GameFirePayload F) (len : F) : GameFirePayload F :=
  { fire with
    originX := shooter.x
    originY := shooter.y + 1.5
    originZ := shooter.z
    dirX := fire.dirX / len
    dirY := fire.dirY / len
    dirZ := fire.dirZ / len }

/-- The part of `apply_fire` in which the target is hit. -/
def hit (room : GameRoom F) (shooterId targetKey : UInt32) (target : GamePlayer F) : FireResult F :=
  if target.hp ≤ kFireDamage then
    let room := room.modifyPlayer targetKey fun target =>
      { target with
        hp := 0, alive := false, respawnTimer := kRespawnDelay, deaths := target.deaths + 1 }
    let room := room.modifyPlayer shooterId fun shooter => { shooter with kills := shooter.kills + 1 }
    { room, targetId := target.playerId, hp := 0, killed := true }
  else
    let hp := target.hp - kFireDamage
    { room := room.modifyPlayer targetKey fun target => { target with hp }
      targetId := target.playerId, hp }

/-- `apply_fire(shooter_id, fire)`. -/
def applyFire (ord : IterOrder UInt32) (room : GameRoom F) (shooterId : UInt32)
    (fire : GameFirePayload F) : FireResult F :=
  if room.matchOver then { room }
  else
    match room.findPlayer shooterId with
    | none => { room }
    | some shooter =>
        if !shooter.alive then { room }
        else
          -- only the direction of the client counts, not its length or origin
          let len := sqrt (fire.dirX * fire.dirX + fire.dirY * fire.dirY + fire.dirZ * fire.dirZ)
          if lt len 1e-4 then { room }
          else
            match room.findHitTarget ord shooter (validated shooter fire len) with
            | none => { room }
            | some key =>
                match room.findPlayer key with
                | none => { room }
                | some target => room.hit shooterId key target

/-! ## Other requests -/

/-- `apply_weapon(player_id, weapon_id)`: there are the weapons 0 to 5. -/
def applyWeapon (room : GameRoom F) (playerId : UInt32) (weaponId : UInt8) : GameRoom F :=
  match room.findPlayer playerId with
  | none => room
  | some player =>
      if !player.alive then room
      else if weaponId > 5 then room
      else room.modifyPlayer playerId fun player => { player with weaponId }

/-- `apply_profile(player_id, name)`: an empty name changes nothing. -/
def applyProfile (room : GameRoom F) (playerId : UInt32) (name : Bytes) : GameRoom F :=
  room.modifyPlayer playerId fun player =>
    { player with name := if name = [] then player.name else name.take 32 }

/-- `apply_respawn(player_id)`: a dead player comes back once its timer has run down. -/
def applyRespawn (room : GameRoom F) (playerId : UInt32) : GameRoom F :=
  match room.findPlayer playerId with
  | none => room
  | some player =>
      if player.alive || room.matchOver then room
      else if lt 0.0 player.respawnTimer then room
      else room.modifyPlayer playerId fun player => player.respawn playerId

/-! ## Ticks -/

/-- `simulate_movement(dt)`. -/
def simulateMovement (room : GameRoom F) (dt : F) : GameRoom F :=
  { room with
    players := UnorderedMap.mapWithKey (fun _ player => player.move room.matchOver dt) room.players }

/-- `simulate_respawn(dt)`. -/
def simulateRespawn (room : GameRoom F) (dt : F) : GameRoom F :=
  { room with players := UnorderedMap.mapWithKey (fun _ player => player.coolDown dt) room.players }

/-- `while (match_accum_ >= 1.0f && time_left_sec_ > 0)`, which runs at most `time_left_sec_` times. -/
def runClock : Nat → F → UInt32 → F × UInt32
  | 0, accum, timeLeft => (accum, timeLeft)
  | n + 1, accum, timeLeft =>
      if le 1.0 accum && timeLeft > 0 then runClock n (accum - 1.0) (timeLeft - 1)
      else (accum, timeLeft)

/-- The match clock in `tick`. -/
def advanceClock (room : GameRoom F) (dt : F) : GameRoom F :=
  if room.matchOver then room
  else
    let (matchAccum, timeLeftSec) :=
      runClock room.timeLeftSec.toNat (room.matchAccum + dt) room.timeLeftSec
    { room with matchAccum, timeLeftSec, matchOver := timeLeftSec == 0 }

/-- `all_players()`. -/
def allPlayers (ord : IterOrder UInt32) (room : GameRoom F) : List (GamePlayer F) :=
  UnorderedMap.values ord room.players

/-- `tick()`: the snapshot, and the room after it. -/
def tick (ord : IterOrder UInt32) (room : GameRoom F) : GameSnapshotPayload F × GameRoom F :=
  let room := { room with serverTick := room.serverTick + 1 }
  let dt := (room.tickIntervalMs.toNat : F) / 1000.0
  let room := ((room.advanceClock dt).simulateRespawn dt).simulateMovement dt
  ({ serverTick := room.serverTick, players := (room.allPlayers ord).map GamePlayer.snapshot }, room)

/-- `match_state()`. -/
def matchState (room : GameRoom F) : GameMatchStatePayload where
  timeLeftSec := room.timeLeftSec
  matchOver := if room.matchOver then 1 else 0

end GameRoom

end LightNet.Game
