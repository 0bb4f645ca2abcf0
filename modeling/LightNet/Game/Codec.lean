/-
# LightNet.Game.Codec — the wire format of `game/game_codec.cpp`.

Packets are written into a `Buffer` field by field, as the source does; payloads are byte vectors.
The decoders are readers over the payload; where the source returns `false` they fail, and what it
has already stored in `*out` is then dropped by every caller.
-/
import LightNet.Core.BufferQueue
import LightNet.Game.Float
import LightNet.Game.Packet

namespace LightNet.Game

open LightNet.Foundation LightNet.Core

namespace GameCodec

variable {F : Type} [FloatArith F] [FloatBits F]

/-! ## Fields -/

/-- One byte, as `append_u8` writes it. -/
def appendU8 (v : UInt8) : Bytes := [v]
/-- `append_u16`.  Integers are written in the order of the bytes in memory, which is little-endian. -/
def appendU16 (v : UInt16) : Bytes := leBytes 2 v.toNat
/-- `append_u32`. -/
def appendU32 (v : UInt32) : Bytes := leBytes 4 v.toNat
/-- `append_u64`. -/
def appendU64 (v : UInt64) : Bytes := leBytes 8 v.toNat
/-- `append_i8`: the byte with the same bits. -/
def appendI8 (v : Int8) : Bytes := appendU8 v.toUInt8
/-- `append_i16`: the word with the same bits. -/
def appendI16 (v : Int16) : Bytes := appendU16 v.toUInt16
/-- `append_f32`: the bits of the `float`. -/
def appendF32 (v : F) : Bytes := appendU32 (FloatBits.toBits v)

/-- `read_u8`. -/
def readU8 : Reader UInt8 := readLe 1 UInt8.ofNat
/-- `read_u16`. -/
def readU16 : Reader UInt16 := readLe 2 UInt16.ofNat
/-- `read_u32`. -/
def readU32 : Reader UInt32 := readLe 4 UInt32.ofNat
/-- `read_u64`. -/
def readU64 : Reader UInt64 := readLe 8 UInt64.ofNat
/-- `read_i8`: any byte is one. -/
def readI8 : Reader Int8 := fun bs => (readU8 bs).map fun r => (r.1.toInt8, r.2)
/-- `read_i16`: any word is one. -/
def readI16 : Reader Int16 := fun bs => (readU16 bs).map fun r => (r.1.toInt16, r.2)
/-- `read_f32`: any 32 bits are a `float`, infinities and NaNs too. -/
def readF32 : Reader F := fun bs => (readU32 bs).map fun r => (FloatBits.ofBits r.1, r.2)

/-! ## Packets -/

/-- `encode(packet)`: header and payload in one buffer.  The length field is cut to 16 bits. -/
def encode (packet : GamePacket) : Buffer :=
  let buf := Buffer.new.ensureWritable (kHeaderSize + packet.payload.length)
  let buf := buf.append (leBytes 4 kMagic.toNat)
  let buf := buf.append [packet.header.version]
  let buf := buf.append [packet.header.msgType.raw]
  let buf := buf.append (leBytes 2 packet.header.flags.toNat)
  let buf := buf.append (leBytes 4 packet.header.roomId.toNat)
  let buf := buf.append (leBytes 4 packet.header.playerId.toNat)
  let buf := buf.append (leBytes 4 packet.header.seq.toNat)
  let buf := buf.append (leBytes 4 packet.header.tick.toNat)
  let buf := buf.append (leBytes 2 (packet.payload.length % 2 ^ 16))
  let buf := buf.append (leBytes 2 packet.header.reserved.toNat)
  if packet.payload ≠ [] then buf.append packet.payload else buf

/-- `decode(data, len, out)`: the packet, if magic and version are right and the payload is all there. -/
def decode (data : Bytes) : Option GamePacket := do
  guard (kHeaderSize ≤ data.length)
  let (magic, xs) ← readU32 data
  guard (magic = kMagic)
  let (version, xs) ← readU8 xs
  guard (version = kVersion)
  let (msgType, xs) ← readU8 xs
  let (flags, xs) ← readU16 xs
  let (roomId, xs) ← readU32 xs
  let (playerId, xs) ← readU32 xs
  let (seq, xs) ← readU32 xs
  let (tick, xs) ← readU32 xs
  let (payloadLen, xs) ← readU16 xs
  let (reserved, xs) ← readU16 xs
  -- what follows the payload is ignored
  let (payload, _) ← readBytes payloadLen.toNat xs
  return { header := { version, msgType := ⟨msgType⟩, flags, roomId, playerId, seq, tick, payloadLen,
                       reserved }, payload }

/-- `build_packet`: the bytes of a packet with this payload; the other fields have their defaults. -/
def buildPacket (type : GameMsgType) (roomId playerId seq tick : UInt32) (payload : Bytes) : Buffer :=
  encode { header := { msgType := type, roomId, playerId, seq, tick }, payload }

/-! ## Payloads of the clients -/

/-- `encode_join`. -/
def encodeJoin (join : GameJoinPayload) : Bytes := appendU32 join.desiredRoomId

/-- `decode_join`. -/
def decodeJoin (packet : GamePacket) : Option GameJoinPayload := do
  let (desiredRoomId, _) ← readU32 packet.payload
  return { desiredRoomId }

/-- `encode_input`: always with the position, and three bytes of padding. -/
def encodeInput (input : GameInputPayload F) : Bytes :=
  appendU32 input.inputSeq ++ (appendU32 input.clientTick ++ (appendI8 input.moveX
    ++ (appendI8 input.moveY ++ (appendI16 input.yaw ++ (appendI16 input.pitch
    ++ (appendU16 input.buttons ++ (appendF32 input.posX ++ (appendF32 input.posY
    ++ (appendF32 input.posZ ++ (appendU8 input.hasPos ++ [0, 0, 0]))))))))))

/-- Without its last 16 bytes an input is one of the old protocol, without a position. -/
def decodeInput (packet : GamePacket) : Option (GameInputPayload F) := do
  let (inputSeq, xs) ← readU32 packet.payload
  let (clientTick, xs) ← readU32 xs
  let (moveX, xs) ← readI8 xs
  let (moveY, xs) ← readI8 xs
  let (yaw, xs) ← readI16 xs
  let (pitch, xs) ← readI16 xs
  let (buttons, xs) ← readU16 xs
  if 16 ≤ xs.length then
    let (posX, xs) ← readF32 xs
    let (posY, xs) ← readF32 xs
    let (posZ, xs) ← readF32 xs
    let (hasPos, xs) ← readU8 xs
    let (_, _) ← readBytes 3 xs
    return { inputSeq, clientTick, moveX, moveY, yaw, pitch, buttons, posX, posY, posZ, hasPos }
  else
    return { inputSeq, clientTick, moveX, moveY, yaw, pitch, buttons, posX := 0.0, posY := 13.0,
             posZ := 0.0, hasPos := 0 }

/-- `encode_fire`. -/
def encodeFire (fire : GameFirePayload F) : Bytes :=
  appendU32 fire.clientTick ++ (appendU8 fire.weaponId ++ ([0, 0, 0] ++ (appendF32 fire.originX
    ++ (appendF32 fire.originY ++ (appendF32 fire.originZ ++ (appendF32 fire.dirX
    ++ (appendF32 fire.dirY ++ appendF32 fire.dirZ)))))))

/-- `decode_fire`. -/
def decodeFire (packet : GamePacket) : Option (GameFirePayload F) := do
  let (clientTick, xs) ← readU32 packet.payload
  let (weaponId, xs) ← readU8 xs
  let (_, xs) ← readBytes 3 xs
  let (originX, xs) ← readF32 xs
  let (originY, xs) ← readF32 xs
  let (originZ, xs) ← readF32 xs
  let (dirX, xs) ← readF32 xs
  let (dirY, xs) ← readF32 xs
  let (dirZ, _) ← readF32 xs
  return { clientTick, weaponId, originX, originY, originZ, dirX, dirY, dirZ }

/-- `encode_ping`. -/
def encodePing (clientSendTime : UInt64) : Bytes := appendU64 clientSendTime

/-- `decode_ping`. -/
def decodePing (packet : GamePacket) : Option UInt64 := do
  let (clientSendTime, _) ← readU64 packet.payload
  return clientSendTime

/-- `decode_chat`: the text is as long as its length field says, up to 65535 bytes. -/
def decodeChat (packet : GamePacket) : Option GameChatPayload := do
  let (senderId, xs) ← readU32 packet.payload
  let (n, xs) ← readU16 xs
  let (text, _) ← readBytes n.toNat xs
  return { senderId, text }

/-- `encode_weapon`. -/
def encodeWeapon (weapon : GameWeaponPayload) : Bytes := appendU8 weapon.weaponId ++ [0, 0, 0]

/-- `decode_weapon`: the padding has to be there. -/
def decodeWeapon (packet : GamePacket) : Option GameWeaponPayload := do
  let (weaponId, xs) ← readU8 packet.payload
  let (_, _) ← readBytes 3 xs
  return { weaponId }

/-- `encode_profile`: the first 32 bytes of the name. -/
def encodeProfile (profile : GameProfilePayload) : Bytes :=
  let n := min profile.name.length 32
  appendU16 (UInt16.ofNat n) ++ profile.name.take n

/-- `decode_profile`: the name is as long as its length field says. -/
def decodeProfile (packet : GamePacket) : Option GameProfilePayload := do
  let (n, xs) ← readU16 packet.payload
  let (name, _) ← readBytes n.toNat xs
  return { name }

/-! ## Payloads of the server -/

/-- `encode_join_ack`. -/
def encodeJoinAck (ack : GameJoinAckPayload) : Bytes :=
  appendU32 ack.roomId ++ appendU32 ack.playerId ++ appendU32 ack.serverTick
    ++ appendU32 ack.tickIntervalMs

/-- `decode_join_ack`. -/
def decodeJoinAck (packet : GamePacket) : Option GameJoinAckPayload := do
  let (roomId, xs) ← readU32 packet.payload
  let (playerId, xs) ← readU32 xs
  let (serverTick, xs) ← readU32 xs
  let (tickIntervalMs, _) ← readU32 xs
  return { roomId, playerId, serverTick, tickIntervalMs }

/-- One player of a snapshot, in 34 bytes. -/
def encodePlayer (pl : GamePlayerSnapshot F) : Bytes :=
  appendU32 pl.playerId ++ (appendF32 pl.x ++ (appendF32 pl.y ++ (appendF32 pl.z
    ++ (appendI16 pl.yaw ++ (appendI16 pl.pitch ++ (appendU16 pl.hp ++ (appendU16 pl.stateFlags
    ++ (appendU32 pl.lastInputSeq ++ (appendU8 pl.weaponId ++ (appendU8 pl.pad0
    ++ (appendU16 pl.kills ++ appendU16 pl.deaths)))))))))))

/-- `encode_snapshot`. -/
def encodeSnapshot (snap : GameSnapshotPayload F) : Bytes :=
  -- the count is cut to one byte, the players are all written
  appendU32 snap.serverTick ++ (appendU8 (UInt8.ofNat snap.players.length) ++ ([0, 0, 0]
    ++ snap.players.flatMap encodePlayer))

/-- One turn of the loop in `decode_snapshot`. -/
def readPlayer : Reader (GamePlayerSnapshot F) := fun xs => do
  let (playerId, xs) ← readU32 xs
  let (x, xs) ← readF32 xs
  let (y, xs) ← readF32 xs
  let (z, xs) ← readF32 xs
  let (yaw, xs) ← readI16 xs
  let (pitch, xs) ← readI16 xs
  let (hp, xs) ← readU16 xs
  let (stateFlags, xs) ← readU16 xs
  let (lastInputSeq, xs) ← readU32 xs
  let (weaponId, xs) ← readU8 xs
  let (pad0, xs) ← readU8 xs
  let (kills, xs) ← readU16 xs
  let (deaths, xs) ← readU16 xs
  return ({ playerId, x, y, z, yaw, pitch, hp, stateFlags, lastInputSeq, weaponId, pad0, kills,
            deaths }, xs)

/-- The loop of `decode_snapshot`, `count` times. -/
def readPlayers : Nat → Reader (List (GamePlayerSnapshot F))
  | 0, xs => some ([], xs)
  | count + 1, xs => do
      let (player, xs) ← readPlayer xs
      let (players, xs) ← readPlayers count xs
      return (player :: players, xs)

/-- `decode_snapshot`: as many players as the count says. -/
def decodeSnapshot (packet : GamePacket) : Option (GameSnapshotPayload F) := do
  let (serverTick, xs) ← readU32 packet.payload
  let (count, xs) ← readU8 xs
  let (_, xs) ← readBytes 3 xs
  let (players, _) ← readPlayers count.toNat xs
  return { serverTick, players }

/-- `encode_event`. -/
def encodeEvent (ev : GameEventPayload) : Bytes :=
  appendU8 ev.eventType.raw ++ ([0, 0, 0] ++ (appendU32 ev.targetId
    ++ (appendU32 ev.value.toUInt32 ++ appendU32 ev.extra)))

/-- `decode_event`: the type is any byte. -/
def decodeEvent (packet : GamePacket) : Option GameEventPayload := do
  let (type, xs) ← readU8 packet.payload
  let (_, xs) ← readBytes 3 xs
  let (targetId, xs) ← readU32 xs
  let (value, xs) ← readU32 xs
  let (extra, _) ← readU32 xs
  return { eventType := ⟨type⟩, targetId, value := value.toInt32, extra }

/-- `encode_pong`. -/
def encodePong (clientSend serverRecv serverSend : UInt64) : Bytes :=
  appendU64 clientSend ++ (appendU64 serverRecv ++ appendU64 serverSend)

/-- `decode_pong`: the time of the client, and the two of the server. -/
def decodePong (packet : GamePacket) : Option (UInt64 × UInt64 × UInt64) := do
  let (clientSend, xs) ← readU64 packet.payload
  let (serverRecv, xs) ← readU64 xs
  let (serverSend, _) ← readU64 xs
  return (clientSend, serverRecv, serverSend)

/-- `encode_chat`: the first 200 bytes of the text. -/
def encodeChat (chat : GameChatPayload) : Bytes :=
  let n := min chat.text.length 200
  appendU32 chat.senderId ++ (appendU16 (UInt16.ofNat n) ++ chat.text.take n)

/-- `encode_match_state`. -/
def encodeMatchState (m : GameMatchStatePayload) : Bytes :=
  appendU32 m.timeLeftSec ++ (appendU8 m.matchOver ++ [0, 0, 0])

/-- `decode_match_state`. -/
def decodeMatchState (packet : GamePacket) : Option GameMatchStatePayload := do
  let (timeLeftSec, xs) ← readU32 packet.payload
  let (matchOver, xs) ← readU8 xs
  let (_, _) ← readBytes 3 xs
  return { timeLeftSec, matchOver }

end GameCodec

end LightNet.Game
