/-
# LightNet.Game.Malformed — packets whose payload does not decode.

A join decodes its payload before it does anything else.  The other messages resolve their sender
first, and that may already move a player to the sender's address; the payload is decoded after it.
So a packet with a bad payload is without effect unless it *redirects*: it is no join, its sender is
not bound, and its header names a player that exists.
-/
import LightNet.Game.PeerIndex

namespace LightNet.Game

open LightNet.Foundation LightNet.Net

/-- The decoder for the type of a packet rejects the payload. -/
def rejected (F : Type) [FloatArith F] [FloatBits F] (packet : GamePacket) : Bool :=
  let type := packet.header.msgType
  if type = .kC2SJoin then (GameCodec.decodeJoin packet).isNone
  else if type = .kC2SInput then (GameCodec.decodeInput packet : Option (GameInputPayload F)).isNone
  else if type = .kC2SFire then (GameCodec.decodeFire packet : Option (GameFirePayload F)).isNone
  else if type = .kC2SChat then (GameCodec.decodeChat packet).isNone
  else if type = .kC2SWeapon then (GameCodec.decodeWeapon packet).isNone
  else if type = .kC2SProfile then (GameCodec.decodeProfile packet).isNone
  else if type = .kC2SPing then (GameCodec.decodePing packet).isNone
  else false

namespace GameRoomManager

variable {F : Type}

theorem handleAs_of_rejected {α : Type} {decode : GamePacket → Option α} {packet : GamePacket}
    (h : (decode packet).isNone) (m : GameRoomManager F) (peer : SockAddrIn)
    (act : GameRoomManager F → PlayerBinding → GameRoom F → α → Handled F) :
    m.handleAs packet peer decode act = ([], (m.resolveAndRefreshPeer peer packet).2) := by
  unfold handleAs
  rcases m.resolveAndRefreshPeer peer packet with ⟨_ | b, m'⟩
  · rfl
  · simp only [Option.isNone_iff_eq_none.mp h]

variable [FloatArith F] [FloatBits F]

/-- Resolving the sender of this packet moves another player to the sender's address. -/
def Redirects (m : GameRoomManager F) (packet : GamePacket) (peer : SockAddrIn) : Prop :=
  packet.header.msgType ≠ .kC2SJoin ∧ m.findBinding peer = none ∧ (m.namedPlayer packet).isSome

instance (m : GameRoomManager F) (packet : GamePacket) (peer : SockAddrIn) :
    Decidable (m.Redirects packet peer) :=
  inferInstanceAs (Decidable (_ ∧ _ ∧ _))

/-- The packet leaves no trace: no datagram, and rooms, index and ids as they were. -/
def Ignores (m : GameRoomManager F) (env : Environment) (packet : GamePacket) (peer : SockAddrIn) :
    Prop :=
  let (sent, m') := m.handlePacket env packet peer
  sent = [] ∧ m'.rooms = m.rooms ∧ m'.peerIndex = m.peerIndex ∧ m'.nextPlayerId = m.nextPlayerId

/-! ## What a rejected packet does -/

/-- A rejected packet sends nothing and, unless it is a join, resolves its sender and no more. -/
theorem handlePacket_of_rejected {packet : GamePacket} (h : rejected F packet)
    (m : GameRoomManager F) (env : Environment) (peer : SockAddrIn) :
    m.handlePacket env packet peer
      = ([], if packet.header.msgType = .kC2SJoin then m
          else (m.resolveAndRefreshPeer peer packet).2) := by
  unfold rejected at h
  unfold handlePacket
  dsimp only at h ⊢
  by_cases hjoin : packet.header.msgType = .kC2SJoin
  · rw [if_pos hjoin] at h
    rw [if_pos hjoin, if_pos hjoin, handleJoin, Option.isNone_iff_eq_none.mp h]
  rw [if_neg hjoin] at h
  rw [if_neg hjoin, if_neg hjoin]
  by_cases hinput : packet.header.msgType = .kC2SInput
  · rw [if_pos hinput] at h ⊢
    exact handleAs_of_rejected h m peer _
  rw [if_neg hinput] at h ⊢
  by_cases hfire : packet.header.msgType = .kC2SFire
  · rw [if_pos hfire] at h ⊢
    exact handleAs_of_rejected h m peer _
  rw [if_neg hfire] at h ⊢
  by_cases hchat : packet.header.msgType = .kC2SChat
  · rw [if_pos hchat] at h ⊢
    exact handleAs_of_rejected h m peer _
  rw [if_neg hchat] at h ⊢
  by_cases hweapon : packet.header.msgType = .kC2SWeapon
  · rw [if_pos hweapon] at h ⊢
    exact handleAs_of_rejected h m peer _
  rw [if_neg hweapon] at h ⊢
  -- `rejected` has no case for a respawn, which carries no payload
  by_cases hprofile : packet.header.msgType = .kC2SProfile
  · rw [if_pos hprofile] at h
    have hrespawn : packet.header.msgType ≠ .kC2SRespawn := by
      rw [hprofile]
      decide
    rw [if_neg hrespawn, if_pos hprofile]
    exact handleAs_of_rejected h m peer _
  rw [if_neg hprofile] at h
  by_cases hping : packet.header.msgType = .kC2SPing
  · rw [if_pos hping] at h
    have hrespawn : packet.header.msgType ≠ .kC2SRespawn := by
      rw [hping]
      decide
    rw [if_neg hrespawn, if_neg hprofile, if_pos hping, handlePing, sendPong,
      Option.isNone_iff_eq_none.mp h]
  · rw [if_neg hping] at h
    cases h

/-- Where the index is in order, a rejected packet that redirects nobody changes nothing at all. -/
theorem Refines.handlePacket_of_rejected {m : GameRoomManager F} {e : Bytes ≃. PlayerBinding}
    (hm : Refines m e) {packet : GamePacket} (h : rejected F packet) {peer : SockAddrIn}
    (hr : ¬m.Redirects packet peer) (env : Environment) :
    m.handlePacket env packet peer = ([], m) := by
  rw [GameRoomManager.handlePacket_of_rejected h]
  split
  · rfl
  · rename_i hjoin
    obtain ⟨b, hb, hres⟩ | ⟨-, -, hres⟩ | ⟨b, who, hfree, hnamed, -⟩ :=
      m.resolveAndRefreshPeer_cases peer packet
    · rw [hres, hm.setPeer_of_bound hb]
    · rw [hres]
    · exact absurd ⟨hjoin, hfree, hnamed⟩ hr

/-- A packet that redirects changes the index, whatever its payload is. -/
theorem index_of_redirects {m : GameRoomManager F} {packet : GamePacket} (h : rejected F packet)
    {peer : SockAddrIn} (hr : m.Redirects packet peer) (env : Environment) :
    (m.handlePacket env packet peer).2.peerIndex ≠ m.peerIndex := by
  obtain ⟨hjoin, hfree, hnamed⟩ := hr
  rw [handlePacket_of_rejected h, if_neg hjoin]
  obtain ⟨b, hb, -⟩ | ⟨-, hnone, -⟩ | ⟨b, who, -, -, -, -, -, hidx⟩ :=
    m.resolveAndRefreshPeer_cases peer packet
  · exact absurd (hb.symm.trans hfree) (by simp)
  · rw [hnone] at hnamed
    cases hnamed
  · -- the sender was not in the index and now it is
    intro heq
    have hbound := hidx (peerKey peer)
    rw [if_pos rfl, heq] at hbound
    exact absurd (hbound.symm.trans hfree) (by simp)

/-! ## Runs -/

/-- **A rejected packet is ignored exactly if it redirects nobody**, in every reachable state. -/
theorem ignores_iff (tickIntervalMs : UInt32) (calls : List Call) (env : Environment)
    (packet : GamePacket) (peer : SockAddrIn) (h : rejected F packet) :
    (reached tickIntervalMs calls : GameRoomManager F).Ignores env packet peer
      ↔ ¬(reached tickIntervalMs calls : GameRoomManager F).Redirects packet peer := by
  obtain ⟨e, -, hm⟩ := reached_refines (F := F) tickIntervalMs calls
  constructor
  · rintro ⟨-, -, hidx, -⟩ hr
    exact index_of_redirects h hr env hidx
  · intro hr
    rw [Ignores, hm.handlePacket_of_rejected h hr]
    exact ⟨rfl, rfl, rfl, rfl⟩

/-- A player that has joined from 127.0.0.1:7000. -/
def member : SockAddrIn := ⟨127, 0, 0, 1, 7000⟩

/-- Another sender. -/
def stranger : SockAddrIn := ⟨10, 0, 0, 9, 9000⟩

/-- An input without a payload, for player 1 of room 1. -/
def emptyInput : GamePacket where
  header := { msgType := .kC2SInput, roomId := 1, playerId := 1 }
  payload := []

/-- An input of the old protocol: a full step sideways, `input_seq = 1`. -/
def stepInput : GamePacket where
  header := { msgType := .kC2SInput, roomId := 1, playerId := 1 }
  payload := [0, 0, 0, 1, 0, 0, 0, 1, 127, 0, 0, 0, 0, 0, 0, 0]

example : ¬rejected Binary32 stepInput := by decide

theorem emptyInput_rejected : rejected Binary32 emptyInput := rfl

/-- The sender is bound, so that its empty input redirects nobody. -/
theorem ignores_iff_sample :
    rejected Binary32 emptyInput
      ∧ (reached 33 [.join member 1] : GameRoomManager Binary32).Ignores ⟨.entries _, 0, 0⟩ emptyInput
          member := by
  have hbound : (reached 33 [.join member 1] : GameRoomManager Binary32).findBinding member
      = some ⟨1, 1⟩ := by decide +kernel
  refine ⟨emptyInput_rejected, (ignores_iff 33 [.join member 1] ⟨.entries _, 0, 0⟩ emptyInput member
    emptyInput_rejected).mpr ?_⟩
  rintro ⟨-, hfree, -⟩
  rw [hbound] at hfree
  cases hfree

/-- A stranger's empty input takes the session of the player that its header names. -/
theorem emptyInput_steals :
    rejected Binary32 emptyInput
      ∧ ¬(reached 33 [.join member 1] : GameRoomManager Binary32).Ignores ⟨.entries _, 0, 0⟩ emptyInput
          stranger := by
  refine ⟨emptyInput_rejected, ?_⟩
  rintro ⟨-, -, hidx, -⟩
  have hbound := congrArg (AList.lookup (peerKey stranger)) hidx
  revert hbound
  decide +kernel

end GameRoomManager

end LightNet.Game
