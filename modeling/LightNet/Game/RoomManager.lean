/-
# LightNet.Game.RoomManager — rooms and their peers, as in `game/room_manager.cpp`.

A function that sends returns the calls of `server->send_to` it makes, in order, with the manager
after it.  What the environment decides is a parameter: the iteration order of the hash tables, and
the two readings of the clock that a ping takes.

`handle_packet` is split into one function for each message type, as its `switch` is.
-/
import LightNet.Game.Codec
import LightNet.Game.Room

namespace LightNet.Game

open LightNet.Foundation LightNet.Core LightNet.Net

/-- `lightnet::PlayerBinding`. -/
structure PlayerBinding where
  roomId : UInt32
  playerId : UInt32
  deriving DecidableEq

/-- `GameRoomManager::JoinResult`. -/
structure JoinResult where
  roomId : UInt32 := 0
  playerId : UInt32 := 0
  ok : Bool := false
  deriving DecidableEq

/-- A call of `server->send_to`. -/
structure SendTo where
  data : Bytes
  peer : SockAddrIn
  deriving DecidableEq

/-- `server->send_to(buf.peek(), buf.readable_bytes(), peer)`. -/
def sendBuffer (buf : Buffer) (peer : SockAddrIn) : SendTo where
  data := buf.peek buf.readableBytes
  peer := peer

/-- What the environment decides while a packet is handled. -/
structure Environment where
  ord : IterOrder UInt32
  recvNs : UInt64
  sendNs : UInt64

/-- `lightnet::GameRoomManager`. -/
structure GameRoomManager (F : Type) where
  tickIntervalMs : UInt32
  nextRoomId : UInt32 := 1
  nextPlayerId : UInt32 := 1
  matchBroadcastCounter : UInt32 := 0
  rooms : UnorderedMap UInt32 (GameRoom F) := ∅
  peerIndex : UnorderedMap Bytes PlayerBinding := ∅

namespace GameRoomManager

variable {F : Type} [FloatArith F]

/-- `GameRoomManager(tick_interval_ms)`. -/
def new (tickIntervalMs : UInt32) : GameRoomManager F where
  tickIntervalMs := tickIntervalMs

/-- `player_count()`: the bound peers. -/
def playerCount (m : GameRoomManager F) : Nat := UnorderedMap.size m.peerIndex

/-- `peer_key(peer)`. -/
def peerKey (peer : SockAddrIn) : Bytes := toIpPort peer

/-- `find_room(room_id)`. -/
def findRoom (m : GameRoomManager F) (roomId : UInt32) : Option (GameRoom F) := m.rooms.lookup roomId

/-- A change through the pointer that `find_room` returns. -/
def modifyRoom (m : GameRoomManager F) (roomId : UInt32) (f : GameRoom F → GameRoom F) :
    GameRoomManager F :=
  { m with rooms := UnorderedMap.modify roomId f m.rooms }

/-- `player->peer = peer`, where the room and the player exist. -/
def setPeer (m : GameRoomManager F) (b : PlayerBinding) (peer : SockAddrIn) : GameRoomManager F :=
  m.modifyRoom b.roomId fun room => room.modifyPlayer b.playerId fun player => { player with peer }

/-! ## Joining and leaving -/

/-- The id of the only room. -/
def kSingleRoomId : UInt32 := 1

/-- The only room is made when somebody joins and it is not there. -/
def ensureRoom (m : GameRoomManager F) : GameRoomManager F :=
  if kSingleRoomId ∈ m.rooms then m
  else { m with
    rooms := m.rooms.insert kSingleRoomId (GameRoom.new kSingleRoomId m.tickIntervalMs)
    nextRoomId := 2 }

/-- The end of `join`: the room takes a player under the next id, and the peer is bound to it. -/
def takeIn (m : GameRoomManager F) (room : GameRoom F) (peer : SockAddrIn) :
    JoinResult × GameRoomManager F :=
  let playerId := m.nextPlayerId
  -- the id is spent even if the room refuses the player
  let m := { m with nextPlayerId := m.nextPlayerId + 1 }
  let (added, room) := room.addPlayer peer playerId
  if added = 0 then ({}, m)
  else
    let m := m.modifyRoom kSingleRoomId fun _ => room
    ({ roomId := kSingleRoomId, playerId, ok := true },
      { m with
        peerIndex := UnorderedMap.assign (peerKey peer) ⟨kSingleRoomId, playerId⟩ m.peerIndex })

/-- `join(peer, desired_room_id)`.  Who is bound stays where it is; the room that is asked for does not
count. -/
def join (m : GameRoomManager F) (peer : SockAddrIn) (_desiredRoomId : UInt32) :
    JoinResult × GameRoomManager F :=
  match m.peerIndex.lookup (peerKey peer) with
  | some b => ({ roomId := b.roomId, playerId := b.playerId, ok := true }, m)
  | none =>
      let m := m.ensureRoom
      match m.findRoom kSingleRoomId with
      | none => ({}, m)
      | some room => m.takeIn room peer

/-- `find_binding(peer)`. -/
def findBinding (m : GameRoomManager F) (peer : SockAddrIn) : Option PlayerBinding :=
  m.peerIndex.lookup (peerKey peer)

/-- `leave_by_peer(peer)`. -/
def leaveByPeer (m : GameRoomManager F) (peer : SockAddrIn) : GameRoomManager F :=
  match m.findBinding peer with
  | none => m
  | some b =>
      let m := m.modifyRoom b.roomId fun room => room.removePlayer b.playerId
      { m with peerIndex := m.peerIndex.erase (peerKey peer) }

/-- The player that the header of a packet names, if both ids are set and it exists. -/
def namedPlayer (m : GameRoomManager F) (packet : GamePacket) : Option (GamePlayer F) :=
  if packet.header.roomId = 0 ∨ packet.header.playerId = 0 then none
  else (m.findRoom packet.header.roomId).bind fun room => room.findPlayer packet.header.playerId

/-- `resolve_and_refresh_peer(peer, packet)`. -/
def resolveAndRefreshPeer (m : GameRoomManager F) (peer : SockAddrIn) (packet : GamePacket) :
    Option PlayerBinding × GameRoomManager F :=
  match m.findBinding peer with
  | some b => (some b, m.setPeer b peer)
  | none =>
      match m.namedPlayer packet with
      | none => (none, m)
      | some player =>
          -- the header alone decides whose address is replaced
          let b : PlayerBinding := ⟨packet.header.roomId, packet.header.playerId⟩
          let m := { m with peerIndex := m.peerIndex.erase (peerKey player.peer) }
          let m := m.setPeer b peer
          (some b, { m with peerIndex := UnorderedMap.assign (peerKey peer) b m.peerIndex })

/-! ## Sending -/

/-- `send_join_ack`. -/
def sendJoinAck (m : GameRoomManager F) (peer : SockAddrIn) (roomId playerId serverTick : UInt32) :
    SendTo :=
  sendBuffer (GameCodec.buildPacket .kS2CJoinAck roomId playerId 0 serverTick
    (GameCodec.encodeJoinAck { roomId, playerId, serverTick, tickIntervalMs := m.tickIntervalMs })) peer

/-- One packet to each player of a room, in the order of `all_players()`. -/
def broadcast (ord : IterOrder UInt32) (room : GameRoom F) (type : GameMsgType) (seq tick : UInt32)
    (payload : Bytes) : List SendTo :=
  (room.allPlayers ord).map fun player =>
    sendBuffer (GameCodec.buildPacket type room.roomId player.playerId seq tick payload) player.peer

/-- `send_event`: to everybody in the room. -/
def sendEvent (ord : IterOrder UInt32) (room : GameRoom F) (event : GameEventPayload) : List SendTo :=
  broadcast ord room .kS2CEvent 0 room.serverTick (GameCodec.encodeEvent event)

/-- `send_chat`: to everybody in the room, the sender too. -/
def sendChat (ord : IterOrder UInt32) (room : GameRoom F) (chat : GameChatPayload) : List SendTo :=
  broadcast ord room .kS2CChat 0 room.serverTick (GameCodec.encodeChat chat)

/-- `send_match_state`: to everybody in the room. -/
def sendMatchState (ord : IterOrder UInt32) (room : GameRoom F) : List SendTo :=
  broadcast ord room .kS2CMatchState 0 room.serverTick (GameCodec.encodeMatchState room.matchState)

/-- `send_pong`: an unbound peer gets the ids of its own header back. -/
def sendPong (m : GameRoomManager F) (env : Environment) (ping : GamePacket) (peer : SockAddrIn) :
    List SendTo :=
  match GameCodec.decodePing ping with
  | none => []
  | some clientSend =>
      let b := (m.findBinding peer).getD ⟨ping.header.roomId, ping.header.playerId⟩
      [sendBuffer (GameCodec.buildPacket .kS2CPong b.roomId b.playerId ping.header.seq ping.header.tick
        (GameCodec.encodePong clientSend env.recvNs env.sendNs)) peer]

variable [FloatBits F]

/-- `send_snapshot`: numbered by the tick of the room. -/
def sendSnapshot (ord : IterOrder UInt32) (room : GameRoom F) (snap : GameSnapshotPayload F) :
    List SendTo :=
  broadcast ord room .kS2CSnapshot snap.serverTick snap.serverTick (GameCodec.encodeSnapshot snap)

/-! ## Packets -/

/-- What handling a packet gives: the datagrams sent, and the manager after it. -/
abbrev Handled (F : Type) := List SendTo × GameRoomManager F

/-- `case kC2SJoin`. -/
def handleJoin (m : GameRoomManager F) (packet : GamePacket) (peer : SockAddrIn) : Handled F :=
  match GameCodec.decodeJoin packet with
  | none => ([], m)
  | some req =>
      let (joined, m) := m.join peer req.desiredRoomId
      if joined.ok then
        let m := m.setPeer ⟨joined.roomId, joined.playerId⟩ peer
        let tick := ((m.findRoom joined.roomId).map GameRoom.serverTick).getD 0
        ([m.sendJoinAck peer joined.roomId joined.playerId tick], m)
      else ([], m)

/-- The messages that act on the sender's player: resolve the sender, decode, then act. -/
def handleAs {α : Type} (m : GameRoomManager F) (packet : GamePacket) (peer : SockAddrIn)
    (decode : GamePacket → Option α)
    (act : GameRoomManager F → PlayerBinding → GameRoom F → α → Handled F) : Handled F :=
  match m.resolveAndRefreshPeer peer packet with
  | (none, m) => ([], m)
  | (some b, m) =>
      match decode packet with
      | none => ([], m)
      | some payload =>
          match m.findRoom b.roomId with
          | none => ([], m)
          | some room => act m b room payload

/-- `case kC2SInput`. -/
def handleInput (m : GameRoomManager F) (packet : GamePacket) (peer : SockAddrIn) : Handled F :=
  m.handleAs packet peer GameCodec.decodeInput fun m b _ input =>
    ([], m.modifyRoom b.roomId fun room => room.applyInput b.playerId input)

/-- `case kC2SFire`: a kill is announced after the hit. -/
def handleFire (m : GameRoomManager F) (env : Environment) (packet : GamePacket) (peer : SockAddrIn) :
    Handled F :=
  m.handleAs packet peer GameCodec.decodeFire fun m b room fire =>
    let result := room.applyFire env.ord b.playerId fire
    let hit : GameEventPayload :=
      { eventType := .kHit, targetId := result.targetId, value := -25, extra := b.playerId }
    let kill : GameEventPayload :=
      { eventType := .kKill, targetId := result.targetId, value := 0, extra := b.playerId }
    let sent :=
      if result.targetId ≠ 0 then
        sendEvent env.ord result.room hit
          ++ if result.killed then sendEvent env.ord result.room kill else []
      else []
    (sent, m.modifyRoom b.roomId fun _ => result.room)

/-- `case kC2SChat`: the text goes out under the id of the bound player. -/
def handleChat (m : GameRoomManager F) (env : Environment) (packet : GamePacket) (peer : SockAddrIn) :
    Handled F :=
  m.handleAs packet peer GameCodec.decodeChat fun m b room chat =>
    (sendChat env.ord room { chat with senderId := b.playerId }, m)

/-- `case kC2SWeapon`. -/
def handleWeapon (m : GameRoomManager F) (packet : GamePacket) (peer : SockAddrIn) : Handled F :=
  m.handleAs packet peer GameCodec.decodeWeapon fun m b _ w =>
    ([], m.modifyRoom b.roomId fun room => room.applyWeapon b.playerId w.weaponId)

/-- A respawn request has no payload to decode, and the event is sent whatever the room did. -/
def handleRespawn (m : GameRoomManager F) (env : Environment) (packet : GamePacket)
    (peer : SockAddrIn) : Handled F :=
  m.handleAs packet peer (fun _ => some ()) fun m b room _ =>
    let room := room.applyRespawn b.playerId
    let ev : GameEventPayload :=
      { eventType := .kRespawn, targetId := b.playerId, value := 100, extra := 0 }
    (sendEvent env.ord room ev, m.modifyRoom b.roomId fun _ => room)

/-- `case kC2SProfile`. -/
def handleProfile (m : GameRoomManager F) (packet : GamePacket) (peer : SockAddrIn) : Handled F :=
  m.handleAs packet peer GameCodec.decodeProfile fun m b _ profile =>
    ([], m.modifyRoom b.roomId fun room => room.applyProfile b.playerId profile.name)

/-- `case kC2SPing`. -/
def handlePing (m : GameRoomManager F) (env : Environment) (packet : GamePacket) (peer : SockAddrIn) :
    Handled F :=
  -- the sender may stay unknown: a pong is sent in any case
  let m := (m.resolveAndRefreshPeer peer packet).2
  (m.sendPong env packet peer, m)

/-- `handle_packet(packet, peer, server)`. -/
def handlePacket (m : GameRoomManager F) (env : Environment) (packet : GamePacket)
    (peer : SockAddrIn) : Handled F :=
  let type := packet.header.msgType
  if type = .kC2SJoin then m.handleJoin packet peer
  else if type = .kC2SInput then m.handleInput packet peer
  else if type = .kC2SFire then m.handleFire env packet peer
  else if type = .kC2SChat then m.handleChat env packet peer
  else if type = .kC2SWeapon then m.handleWeapon packet peer
  else if type = .kC2SRespawn then m.handleRespawn env packet peer
  else if type = .kC2SProfile then m.handleProfile packet peer
  else if type = .kC2SPing then m.handlePing env packet peer
  else ([], m)

/-! ## Ticks -/

/-- The match state goes out about once a second. -/
def broadcastsMatchState (m : GameRoomManager F) : Bool :=
  m.tickIntervalMs > 0 && m.matchBroadcastCounter % max 1 (1000 / m.tickIntervalMs) == 0

/-- One turn of the loop in `tick_all`, on a room. -/
def tickRoom (ord : IterOrder UInt32) (matchState : Bool) (room : GameRoom F) : List SendTo :=
  let (snap, room) := room.tick ord
  sendSnapshot ord room snap ++ if matchState then sendMatchState ord room else []

/-- `tick_all(server)`. -/
def tickAll (m : GameRoomManager F) (ord : IterOrder UInt32) : Handled F :=
  let m := { m with matchBroadcastCounter := m.matchBroadcastCounter + 1 }
  ((UnorderedMap.iterate ord m.rooms).flatMap fun entry =>
      tickRoom ord m.broadcastsMatchState entry.2,
    { m with rooms := UnorderedMap.mapWithKey (fun _ room => (room.tick ord).2) m.rooms })

end GameRoomManager

end LightNet.Game
