/-
# LightNet.Game.Client — the client of `examples/udp_game_client.cpp`.

A client joins, sends twenty inputs, sends a ping, and exits.  Between any two datagrams that it sends it
waits in `recv_packet`, so a state says what it has sent and what it is waiting for, and a step is what
`recv_packet` comes back with: a datagram, or nothing in time.  Whatever `recv_packet` cannot make out
counts as nothing.
-/
import LightNet.Game.Addressed

namespace LightNet.Game

open LightNet.Foundation LightNet.Core LightNet.Net

/-- What a client waits for. -/
inductive UdpGameClient
  | idle
  | joining
  -- after input `i` of the loop, with the snapshots counted so far
  | draining (ack : GameJoinAckPayload) (i : Nat) (snapshots : Nat)
  | pinging (ack : GameJoinAckPayload) (snapshots : Nat)
  | exited (code : Nat)
  deriving DecidableEq

namespace UdpGameClient

variable (F : Type) [FloatArith F] [FloatBits F]

/-! ## What a client sends -/

/-- `send_buffer(fd, buf, server_addr)`. -/
def sendBuffer (buf : Buffer) : Bytes := buf.peek buf.readableBytes

/-- The first packet of a client, which asks for a room. -/
def joinPacket (desiredRoom : UInt32) : Bytes :=
  sendBuffer (GameCodec.buildPacket .kC2SJoin 0 0 1 0 (GameCodec.encodeJoin { desiredRoomId := desiredRoom }))

/-- The input of turn `i`, with the defaults of the header for what is not set. -/
def input (i : Nat) : GameInputPayload F where
  inputSeq := UInt32.ofNat (i + 1)
  clientTick := UInt32.ofNat i
  moveX := 127
  moveY := 0
  yaw := Int16.ofNat (i * 100)
  pitch := 0
  buttons := 0
  posX := 0.0
  posY := 13.0
  posZ := 0.0
  hasPos := 0

/-- The packet of turn `i`, under the ids that the server has given. -/
def inputPacket (ack : GameJoinAckPayload) (i : Nat) : Bytes :=
  sendBuffer (GameCodec.buildPacket .kC2SInput ack.roomId ack.playerId (UInt32.ofNat (i + 2))
    (input F i).clientTick (GameCodec.encodeInput (input F i)))

/-- The ping behind the inputs, at this reading of the clock. -/
def pingPacket (ack : GameJoinAckPayload) (now : UInt64) : Bytes :=
  sendBuffer (GameCodec.buildPacket .kC2SPing ack.roomId ack.playerId 22 0 (GameCodec.encodePing now))

/-! ## What it makes of an answer -/

/-- `recv_packet`, of what has come before the timeout: the buffer holds 2048 bytes. -/
def recvPacket (data : Option Bytes) : Option GamePacket :=
  data.bind fun data => GameCodec.decode (data.take 2048)

/-- The answer to a join. -/
def joinAck (packet : GamePacket) : Option GameJoinAckPayload :=
  if packet.header.msgType = .kS2CJoinAck then GameCodec.decodeJoinAck packet else none

/-- A snapshot that can be decoded. -/
def isSnapshot (packet : GamePacket) : Bool :=
  packet.header.msgType = .kS2CSnapshot
    ∧ (GameCodec.decodeSnapshot packet : Option (GameSnapshotPayload F)).isSome

/-- A client is started, unless one runs on the address. -/
def launch (client : UdpGameClient) (desiredRoom : UInt32) : List Bytes × UdpGameClient :=
  match client with
  | .idle | .exited _ => ([joinPacket desiredRoom], .joining)
  | _ => ([], client)

/-- `recv_packet` returns, and the client goes on to the next one; `now` is what `now_ms()` says if it
is read on the way. -/
def resume (client : UdpGameClient) (now : UInt64) (data : Option Bytes) : List Bytes × UdpGameClient :=
  match client with
  | .idle => ([], client)
  | .joining =>
      match (recvPacket data).bind joinAck with
      | none => ([], .exited 1)
      | some ack => ([inputPacket F ack 0], .draining ack 0 0)
  | .draining ack i snapshots =>
      match recvPacket data with
      | some packet => ([], .draining ack i (if isSnapshot F packet then snapshots + 1 else snapshots))
      | none =>
          if i + 1 < 20 then ([inputPacket F ack (i + 1)], .draining ack (i + 1) snapshots)
          else ([pingPacket ack now], .pinging ack snapshots)
  -- the pong is printed, whatever it is
  | .pinging _ snapshots => ([], .exited (if snapshots > 0 then 0 else 2))
  | .exited _ => ([], client)

/-! ## What the server makes of what it sends -/

/-- The player that a client takes itself for. -/
def believes : UdpGameClient → Option PlayerBinding
  | .draining ack _ _ | .pinging ack _ => some ack.binding
  | _ => none

/-! ## What a client says -/

/-- What a client that is player `b` may have sent: joins, and under its ids the inputs and pings. -/
inductive Says (b : Option PlayerBinding) : Bytes → Prop
  | join (desiredRoom : UInt32) : Says b (joinPacket desiredRoom)
  | input {ack : GameJoinAckPayload} (hack : b = some ack.binding) {i : Nat} (hi : i < 20) :
      Says b (inputPacket F ack i)
  | ping {ack : GameJoinAckPayload} (hack : b = some ack.binding) (now : UInt64) :
      Says b (pingPacket ack now)

variable {F}

theorem Says.mono {b b' : Option PlayerBinding} {data : Bytes} (h : Says F b data)
    (hb : ∀ x, b = some x → b' = some x) : Says F b' data := by
  cases h with
  | join desiredRoom => exact .join desiredRoom
  | input hack hi => exact .input (hb _ hack) hi
  | ping hack now => exact .ping (hb _ hack) now

/-- A packet that is built is decoded. -/
theorem decode_buildPacket (type : GameMsgType) (roomId playerId seq tick : UInt32) {payload : Bytes}
    (hlen : payload.length < 2 ^ 16) :
    GameCodec.decode (sendBuffer (GameCodec.buildPacket type roomId playerId seq tick payload))
      = some (GameCodec.received
          { header := { msgType := type, roomId, playerId, seq, tick }, payload }) := by
  let packet : GamePacket := { header := { msgType := type, roomId, playerId, seq, tick }, payload }
  have hsent : GameCodec.decode (Game.sendBuffer (GameCodec.encode packet) ⟨0, 0, 0, 0, 0⟩).data
      = some (GameCodec.received packet) := decode_sendBuffer rfl hlen _
  exact hsent

theorem decode_joinPacket (desiredRoom : UInt32) : ∃ packet,
    GameCodec.decode (joinPacket desiredRoom) = some packet ∧ packet.header.msgType = .kC2SJoin := by
  have hlen : (GameCodec.encodeJoin { desiredRoomId := desiredRoom }).length < 2 ^ 16 := by
    simp only [GameCodec.encodeJoin, GameCodec.appendU32, leBytes_length]
    decide
  exact ⟨_, decode_buildPacket _ _ _ _ _ hlen, rfl⟩

theorem decode_pingPacket (ack : GameJoinAckPayload) (now : UInt64) : ∃ packet,
    GameCodec.decode (pingPacket ack now) = some packet ∧ packet.header.msgType = .kC2SPing := by
  have hlen : (GameCodec.encodePing now).length < 2 ^ 16 := by
    simp only [GameCodec.encodePing, GameCodec.appendU64, leBytes_length]
    decide
  exact ⟨_, decode_buildPacket _ _ _ _ _ hlen, rfl⟩

omit [FloatArith F] in
theorem encodeInput_length (input : GameInputPayload F) :
    (GameCodec.encodeInput input).length = 32 := by
  simp only [GameCodec.encodeInput, GameCodec.appendU32, GameCodec.appendI8, GameCodec.appendI16,
    GameCodec.appendU16, GameCodec.appendF32, GameCodec.appendU8, List.length_append, leBytes_length,
    List.length_cons, List.length_nil]

theorem decode_inputPacket (ack : GameJoinAckPayload) (i : Nat) : ∃ packet,
    GameCodec.decode (inputPacket F ack i) = some packet ∧ packet.header.msgType = .kC2SInput
      ∧ GameCodec.decodeInput packet = some (input F i) := by
  have hlen : (GameCodec.encodeInput (input F i)).length < 2 ^ 16 := by
    rw [encodeInput_length]
    decide
  refine ⟨_, decode_buildPacket _ _ _ _ _ hlen, rfl, ?_⟩
  have hinput := fun header => (GameCodec.decodeInput_encode (input F i) header).1 []
  simp only [List.append_nil] at hinput
  exact hinput _

/-- What a client may have sent is a packet, and a join unless the client is a player. -/
theorem Says.packet {b : Option PlayerBinding} {data : Bytes} (h : Says F b data) : ∃ packet,
    GameCodec.decode data = some packet ∧ (packet.header.msgType = .kC2SJoin ∨ ∃ x, b = some x) := by
  cases h with
  | join desiredRoom =>
      obtain ⟨packet, hpacket, htype⟩ := decode_joinPacket desiredRoom
      exact ⟨packet, hpacket, .inl htype⟩
  | input hack hi =>
      obtain ⟨packet, hpacket, -⟩ := @decode_inputPacket F _ _ _ _
      exact ⟨packet, hpacket, .inr ⟨_, hack⟩⟩
  | ping hack now =>
      obtain ⟨packet, hpacket, -⟩ := decode_pingPacket _ now
      exact ⟨packet, hpacket, .inr ⟨_, hack⟩⟩

/-! ## Clients say nothing else -/

/-- A launched client has not been told anything, and joins. -/
theorem launch_sound (client : UdpGameClient) (desiredRoom : UInt32) (b : Option PlayerBinding) :
    ((client.launch desiredRoom).2.believes = client.believes
        ∨ (client.launch desiredRoom).2.believes = none)
      ∧ ∀ data ∈ (client.launch desiredRoom).1, Says F b data := by
  have hjoin : ∀ data ∈ [joinPacket desiredRoom], Says F b data := by
    intro data hdata
    rw [List.mem_singleton.mp hdata]
    exact .join desiredRoom
  cases client with
  | idle => exact ⟨.inr rfl, hjoin⟩
  | exited code => exact ⟨.inr rfl, hjoin⟩
  | _ => exact ⟨.inl rfl, fun data hdata => absurd hdata List.not_mem_nil⟩

/-- A client that goes on keeps to what it has been told, and a join ack that comes tells it the truth. -/
theorem resume_sound {client : UdpGameClient} {b : Option PlayerBinding} {data : Option Bytes}
    (hclient : ∀ x, client.believes = some x → b = some x)
    (hdata : ∀ bytes ∈ data, ∀ packet, GameCodec.decode bytes = some packet →
      packet.header.msgType = .kS2CJoinAck → ∀ ack, GameCodec.decodeJoinAck packet = some ack →
        b = some ack.binding) (now : UInt64) :
    (∀ x, (client.resume F now data).2.believes = some x → b = some x)
      ∧ ∀ bytes ∈ (client.resume F now data).1, Says F b bytes := by
  have hnone : ∀ bytes ∈ ([] : List Bytes), Says F b bytes := fun _ h => absurd h List.not_mem_nil
  cases client with
  | idle => exact ⟨hclient, hnone⟩
  | exited code => exact ⟨hclient, hnone⟩
  | pinging ack snapshots => exact ⟨fun x hx => (nomatch hx), hnone⟩
  | joining =>
      simp only [resume]
      cases hack : (recvPacket data).bind joinAck with
      | none => exact ⟨fun x hx => (nomatch hx), hnone⟩
      | some ack =>
          obtain ⟨packet, hrecv, hjoin⟩ := Option.bind_eq_some_iff.mp hack
          obtain ⟨bytes, hbytes, hpacket⟩ := Option.bind_eq_some_iff.mp hrecv
          unfold joinAck at hjoin
          split at hjoin
          · rename_i htype
            have hb := hdata bytes hbytes packet (GameCodec.decode_of_take hpacket) htype ack hjoin
            refine ⟨fun x hx => ?_, fun bytes hsent => ?_⟩
            · rw [← hx]
              exact hb
            · rw [List.mem_singleton.mp hsent]
              exact .input hb (by decide)
          · cases hjoin
  | draining ack i snapshots =>
      have hb := hclient _ rfl
      simp only [resume]
      cases recvPacket data with
      | some packet => exact ⟨hclient, hnone⟩
      | none =>
          dsimp only
          split
          · rename_i hi
            refine ⟨hclient, fun bytes hsent => ?_⟩
            rw [List.mem_singleton.mp hsent]
            exact .input hb hi
          · refine ⟨hclient, fun bytes hsent => ?_⟩
            rw [List.mem_singleton.mp hsent]
            exact .ping hb now

end UdpGameClient

end LightNet.Game
