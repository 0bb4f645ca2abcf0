/-
# LightNet.Game.Packet — the messages of `game/game_packet.h`.

Payloads that carry positions are generic in the type `F` of `float`.  Message and event types are
`enum class`es over `uint8_t` into which any byte can be cast, so they are bytes with named values.
-/
import LightNet.Foundation.LittleEndian

namespace LightNet.Game

open LightNet.Foundation

/-- `lightnet::GameMsgType`. -/
structure GameMsgType where
  raw : UInt8
  deriving DecidableEq

namespace GameMsgType
/-- A client asks to join. -/
def kC2SJoin : GameMsgType := ⟨1⟩
/-- The ids of a player that has joined. -/
def kS2CJoinAck : GameMsgType := ⟨2⟩
/-- The controls of a client at one of its ticks. -/
def kC2SInput : GameMsgType := ⟨3⟩
/-- A shot. -/
def kC2SFire : GameMsgType := ⟨4⟩
/-- A ping, with the clock of the client. -/
def kC2SPing : GameMsgType := ⟨5⟩
/-- The answer to a ping. -/
def kS2CPong : GameMsgType := ⟨6⟩
/-- The players of a room after a tick. -/
def kS2CSnapshot : GameMsgType := ⟨7⟩
/-- A hit, a kill or a respawn. -/
def kS2CEvent : GameMsgType := ⟨8⟩
/-- A chat text, to be relayed. -/
def kC2SChat : GameMsgType := ⟨9⟩
/-- A chat text that is relayed. -/
def kS2CChat : GameMsgType := ⟨10⟩
/-- A change of the weapon. -/
def kC2SWeapon : GameMsgType := ⟨11⟩
/-- A request to respawn. -/
def kC2SRespawn : GameMsgType := ⟨12⟩
/-- The clock of the match. -/
def kS2CMatchState : GameMsgType := ⟨13⟩
/-- The name of a player. -/
def kC2SProfile : GameMsgType := ⟨14⟩
end GameMsgType

/-- `lightnet::GameEventType`. -/
structure GameEventType where
  raw : UInt8
  deriving DecidableEq

namespace GameEventType
/-- A player has been hit. -/
def kHit : GameEventType := ⟨1⟩
/-- A player has been killed. -/
def kKill : GameEventType := ⟨2⟩
/-- A player has asked for a respawn. -/
def kRespawn : GameEventType := ⟨3⟩
end GameEventType

/-! ## Packets -/

/-- `"LNGP"`, with the first letter in the highest byte. -/
def kMagic : UInt32 := 0x4C4E4750
/-- The version of the protocol. -/
def kVersion : UInt8 := 1
/-- What `decode` takes for the size of a header; `encode` writes four bytes more. -/
def kHeaderSize : Nat := 24

/-- `lightnet::GamePacketHeader`. -/
structure GamePacketHeader where
  version : UInt8 := kVersion
  msgType : GameMsgType := .kC2SInput
  flags : UInt16 := 0
  roomId : UInt32 := 0
  playerId : UInt32 := 0
  seq : UInt32 := 0
  tick : UInt32 := 0
  payloadLen : UInt16 := 0
  reserved : UInt16 := 0
  deriving DecidableEq

/-- `lightnet::GamePacket`. -/
structure GamePacket where
  header : GamePacketHeader
  payload : Bytes
  deriving DecidableEq

/-! ## Payloads of the clients -/

/-- `lightnet::GameInputPayload`. -/
structure GameInputPayload (F : Type) where
  inputSeq : UInt32
  clientTick : UInt32
  moveX : Int8
  moveY : Int8
  yaw : Int16
  pitch : Int16
  buttons : UInt16
  posX : F
  posY : F
  posZ : F
  hasPos : UInt8
  deriving DecidableEq

/-- `lightnet::GameFirePayload`. -/
structure GameFirePayload (F : Type) where
  clientTick : UInt32
  weaponId : UInt8
  originX : F
  originY : F
  originZ : F
  dirX : F
  dirY : F
  dirZ : F
  deriving DecidableEq

/-- `lightnet::GameJoinPayload`. -/
structure GameJoinPayload where
  desiredRoomId : UInt32
  deriving DecidableEq

/-! ## Payloads of the server -/

/-- `lightnet::GameJoinAckPayload`. -/
structure GameJoinAckPayload where
  roomId : UInt32
  playerId : UInt32
  serverTick : UInt32
  tickIntervalMs : UInt32
  deriving DecidableEq

/-- `lightnet::GamePlayerSnapshot`. -/
structure GamePlayerSnapshot (F : Type) where
  playerId : UInt32
  x : F
  y : F
  z : F
  yaw : Int16
  pitch : Int16
  hp : UInt16
  stateFlags : UInt16
  lastInputSeq : UInt32
  weaponId : UInt8
  pad0 : UInt8
  kills : UInt16
  deaths : UInt16
  deriving DecidableEq

/-- `lightnet::GameSnapshotPayload`. -/
structure GameSnapshotPayload (F : Type) where
  serverTick : UInt32
  players : List (GamePlayerSnapshot F)
  deriving DecidableEq

/-- `lightnet::GameEventPayload`. -/
structure GameEventPayload where
  eventType : GameEventType
  targetId : UInt32
  value : Int32
  extra : UInt32
  deriving DecidableEq

/-- `lightnet::GameChatPayload`. -/
structure GameChatPayload where
  senderId : UInt32
  text : Bytes
  deriving DecidableEq

/-- `lightnet::GameWeaponPayload`. -/
structure GameWeaponPayload where
  weaponId : UInt8
  deriving DecidableEq

/-- `lightnet::GameMatchStatePayload`. -/
structure GameMatchStatePayload where
  timeLeftSec : UInt32
  matchOver : UInt8
  deriving DecidableEq

/-- `lightnet::GameProfilePayload`. -/
structure GameProfilePayload where
  name : Bytes
  deriving DecidableEq

end LightNet.Game
