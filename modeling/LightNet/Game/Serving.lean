/-
# LightNet.Game.Serving — packets and ticks, one after the other.

The server calls two functions of its manager: `handle_packet` when a datagram has come in, and
`tick_all` when the time is up.  For each of them this file says what it leaves of the view: the
records of the players, the clocks of the rooms, and the one room that there is.
-/
import LightNet.Game.Handling

namespace LightNet.Game

open LightNet.Foundation LightNet.Core LightNet.Net
open FloatArith (sqrt sin cos lt le)

variable {F : Type}

namespace GameRoomManager

/-! ## There is one room -/

/-- Whatever room there is has the id of the only one. -/
def OneRoom (m : GameRoomManager F) : Prop :=
  ∀ r room, m.findRoom r = some room → r = kSingleRoomId

theorem oneRoom_new (tickIntervalMs : UInt32) : (new tickIntervalMs : GameRoomManager F).OneRoom := by
  intro r room hroom
  cases hroom

theorem OneRoom.modifyRoom {m : GameRoomManager F} (h : m.OneRoom) (r : UInt32)
    (f : GameRoom F → GameRoom F) : (m.modifyRoom r f).OneRoom := by
  intro r' room hroom
  rw [findRoom_modifyRoom] at hroom
  split at hroom
  · rename_i hr
    obtain ⟨old, hold, -⟩ := Option.map_eq_some_iff.mp hroom
    rw [hr]
    exact h r old hold
  · exact h r' room hroom

/-- Only the rooms count. -/
theorem OneRoom.of_rooms {m m' : GameRoomManager F} (h : m.OneRoom) (heq : m'.rooms = m.rooms) :
    m'.OneRoom := by
  intro r room hroom
  rw [findRoom, heq] at hroom
  exact h r room hroom

theorem OneRoom.resolve {m : GameRoomManager F} (h : m.OneRoom) (peer : SockAddrIn)
    (packet : GamePacket) : (m.resolveAndRefreshPeer peer packet).2.OneRoom := by
  unfold resolveAndRefreshPeer
  cases m.findBinding peer with
  | some b => exact h.modifyRoom _ _
  | none =>
      cases m.namedPlayer packet with
      | none => exact h
      | some player =>
          have hset := h.modifyRoom packet.header.roomId fun room =>
            room.modifyPlayer packet.header.playerId fun player => { player with peer }
          exact hset.of_rooms rfl

theorem OneRoom.leaveByPeer {m : GameRoomManager F} (h : m.OneRoom) (peer : SockAddrIn) :
    (m.leaveByPeer peer).OneRoom := by
  unfold GameRoomManager.leaveByPeer
  cases m.findBinding peer with
  | none => exact h
  | some b =>
      have hremove := h.modifyRoom b.roomId fun room => room.removePlayer b.playerId
      exact hremove.of_rooms rfl

/-! ## The size of a room -/

/-- A player table cannot be larger than there are ids. -/
theorem playerCount_le (room : GameRoom F) : room.playerCount ≤ 2 ^ 32 := by
  have hnodup : (room.players.keys.map UInt32.toNat).Nodup :=
    room.players.keys_nodup.map fun _ _ => UInt32.toNat_inj.mp
  have hsub : room.players.keys.map UInt32.toNat ⊆ List.range (2 ^ 32) := by
    intro n hn
    obtain ⟨p, -, rfl⟩ := List.mem_map.mp hn
    exact List.mem_range.mpr p.toNat_lt
  have hle := (List.subperm_of_subset hnodup hsub).length_le
  rwa [List.length_map, ← UnorderedMap.size_eq_keys_length, List.length_range] at hle

/-! ## Joining -/

variable [FloatArith F]

theorem findRoom_ensureRoom_cases (m : GameRoomManager F) (r : UInt32) :
    m.ensureRoom.findRoom r = m.findRoom r
      ∨ r = kSingleRoomId ∧ m.findRoom r = none
        ∧ m.ensureRoom.findRoom r = some (GameRoom.new kSingleRoomId m.tickIntervalMs) := by
  unfold ensureRoom
  split
  · exact .inl rfl
  · rename_i hnew
    rw [findRoom, UnorderedMap.lookup_insert]
    split
    · rename_i hr
      subst hr
      exact .inr ⟨rfl, AList.lookup_eq_none.mpr hnew, rfl⟩
    · exact .inl rfl

theorem record_ensureRoom (m : GameRoomManager F) (b : PlayerBinding) :
    m.ensureRoom.record b = m.record b := by
  rw [record, record]
  obtain hsame | ⟨-, hnone, hnew⟩ := m.findRoom_ensureRoom_cases b.roomId
  · rw [hsame]
  · -- the new room is empty
    rw [hnone, hnew]
    rfl

theorem OneRoom.ensureRoom {m : GameRoomManager F} (h : m.OneRoom) : m.ensureRoom.OneRoom := by
  intro r room hroom
  obtain hsame | ⟨hr, -, -⟩ := m.findRoom_ensureRoom_cases r
  · exact h r room (hsame.symm.trans hroom)
  · exact hr

/-- Every room of `m` is still there with its clock as it was, and a new one has the whole match before
it. -/
def ClocksKept (m m' : GameRoomManager F) : Prop :=
  ∀ r, m'.clock r = m.clock r ∨ m.clock r = none ∧ m'.clock r = some (false, 300)

theorem clocksKept_ensureRoom (m : GameRoomManager F) : ClocksKept m m.ensureRoom := by
  intro r
  rw [clock, clock]
  obtain hsame | ⟨-, hnone, hnew⟩ := m.findRoom_ensureRoom_cases r
  · rw [hsame]
    exact .inl rfl
  · rw [hnone, hnew]
    exact .inr ⟨rfl, rfl⟩

/-! ## What a join changes -/

/-- What joining leaves of the view: everything, or everything and one new player. -/
structure Joined (m m' : GameRoomManager F) : Prop where
  oneRoom : m.OneRoom → m'.OneRoom
  clocks : ClocksKept m m'
  records : (∀ b, m'.record b = m.record b)
    ∨ ∃ p peer idx, m.record ⟨kSingleRoomId, p⟩ = none
      ∧ ∀ b, m'.record b
        = if b = ⟨kSingleRoomId, p⟩ then some (GamePlayer.spawn peer p idx) else m.record b

theorem joined_takeIn {m : GameRoomManager F} {room : GameRoom F} (peer : SockAddrIn)
    (hroom : m.findRoom kSingleRoomId = some room) : Joined m (m.takeIn room peer).2 := by
  by_cases hp : m.nextPlayerId = 0 ∨ m.nextPlayerId ∈ room.players
  · have hadd : room.addPlayer peer m.nextPlayerId = (0, room) := by
      rw [GameRoom.addPlayer, if_pos hp]
    have htaken : m.takeIn room peer = ({}, { m with nextPlayerId := m.nextPlayerId + 1 }) := by
      simp only [takeIn, hadd, if_true]
    rw [htaken]
    exact ⟨fun h => h.of_rooms rfl, fun _ => .inl rfl, .inl fun _ => rfl⟩
  · have hadd : room.addPlayer peer m.nextPlayerId
        = (m.nextPlayerId, extended room peer m.nextPlayerId) := by
      rw [GameRoom.addPlayer, if_neg hp, extended]
    rw [not_or] at hp
    obtain ⟨hne, hfree⟩ := hp
    have hfound : room.findPlayer m.nextPlayerId = none := AList.lookup_eq_none.mpr hfree
    have htaken : (m.takeIn room peer).2
        = { m.modifyRoom kSingleRoomId fun _ => extended room peer m.nextPlayerId with
            nextPlayerId := m.nextPlayerId + 1
            peerIndex := UnorderedMap.assign (peerKey peer) ⟨kSingleRoomId, m.nextPlayerId⟩
              m.peerIndex } := by
      simp only [takeIn, hadd, hne, if_false, modifyRoom]
    rw [htaken]
    refine ⟨?_, ?_, .inr ⟨m.nextPlayerId, peer, room.playerCount, ?_, ?_⟩⟩
    · intro h
      have hextend := h.modifyRoom kSingleRoomId fun _ => extended room peer m.nextPlayerId
      exact hextend.of_rooms rfl
    · intro r
      left
      apply m.clock_modifyRoom (r := kSingleRoomId) (f := fun _ => extended room peer m.nextPlayerId)
      intro room' hroom'
      obtain rfl : room' = room := Option.some.inj (hroom'.symm.trans hroom)
      exact ⟨rfl, rfl⟩
    · rw [record_of_findRoom hroom, hfound]
    · rintro ⟨r, q⟩
      have hrecord := record_act hroom (extended room peer m.nextPlayerId) ⟨r, q⟩
      refine Eq.trans hrecord ?_
      simp only [PlayerBinding.mk.injEq]
      by_cases hr : r = kSingleRoomId
      · subst hr
        have hinsert : (extended room peer m.nextPlayerId).findPlayer q
            = if q = m.nextPlayerId then
                some (GamePlayer.spawn peer m.nextPlayerId room.playerCount)
              else room.findPlayer q := UnorderedMap.lookup_insert _ _ _ _
        rw [if_pos rfl, hinsert, record_of_findRoom hroom]
        simp only [true_and]
      · simp only [hr, if_false, false_and]

theorem joined_join (m : GameRoomManager F) (peer : SockAddrIn) (desired : UInt32) :
    Joined m (m.join peer desired).2 := by
  unfold join
  cases m.peerIndex.lookup (peerKey peer) with
  | some b => exact ⟨id, fun _ => .inl rfl, .inl fun _ => rfl⟩
  | none =>
      dsimp only
      cases hroom : m.ensureRoom.findRoom kSingleRoomId with
      | none => exact ⟨OneRoom.ensureRoom, m.clocksKept_ensureRoom, .inl m.record_ensureRoom⟩
      | some room =>
          have h := joined_takeIn peer hroom
          refine ⟨fun hone => h.oneRoom hone.ensureRoom, ?_, ?_⟩
          · -- the room that has been made is not made again
            intro r
            obtain hsame | ⟨hnone, hnew⟩ := m.clocksKept_ensureRoom r
            · rw [← hsame]
              exact h.clocks r
            · obtain hsame' | ⟨hnone', -⟩ := h.clocks r
              · exact .inr ⟨hnone, hsame'.trans hnew⟩
              · rw [hnone'] at hnew
                cases hnew
          · simpa only [record_ensureRoom] using h.records

/-! ## Ticks -/

/-- How long a tick takes, in seconds. -/
def tickSeconds (tickIntervalMs : UInt32) : F := (tickIntervalMs.toNat : F) / 1000.0

theorem findPlayer_tick (ord : IterOrder UInt32) (room : GameRoom F) (q : UInt32) :
    (room.tick ord).2.findPlayer q = (room.findPlayer q).map fun player =>
      (player.coolDown (tickSeconds room.tickIntervalMs)).move (room.tick ord).2.matchOver
        (tickSeconds room.tickIntervalMs) := by
  simp only [GameRoom.tick, GameRoom.findPlayer, GameRoom.simulateMovement,
    GameRoom.simulateRespawn, UnorderedMap.lookup_mapWithKey, GameRoom.advanceClock_players,
    Option.map_map, tickSeconds]
  rfl

variable [FloatBits F]

/-- A tick leaves life and score of every player as they are. -/
theorem vitals_tickAll (m : GameRoomManager F) (ord : IterOrder UInt32) (b : PlayerBinding) :
    ((m.tickAll ord).2.record b).map GamePlayer.vitals = (m.record b).map GamePlayer.vitals := by
  rw [record, record, findRoom_tickAll]
  cases m.findRoom b.roomId with
  | none => rfl
  | some room =>
      show ((room.tick ord).2.findPlayer b.playerId).map _ = (room.findPlayer b.playerId).map _
      rw [findPlayer_tick, Option.map_map]
      congr 1
      funext player
      have hcool := congrArg Standing.vitals
        (player.standing_coolDown (tickSeconds room.tickIntervalMs))
      exact (GamePlayer.vitals_move _ _ _).trans hcool

/-- A tick sends snapshots and the match state, and no events. -/
theorem events_tickAll (m : GameRoomManager F) (ord : IterOrder UInt32) :
    events (m.tickAll ord).1 = [] := by
  have hsnapshot : GameMsgType.kS2CSnapshot ≠ .kS2CEvent := by decide
  have hstate : GameMsgType.kS2CMatchState ≠ .kS2CEvent := by decide
  apply events_eq_nil
  intro d hd
  obtain ⟨entry, -, hmem⟩ := List.mem_flatMap.mp hd
  rcases List.mem_append.mp hmem with hsnap | hmatch
  · have hcount := playerCount_le entry.2
    have hplayers : (entry.2.tick ord).1.players.length = entry.2.playerCount := by
      rw [GameRoom.tick_fst, List.length_map, GameRoom.allPlayers, UnorderedMap.values_length]
      exact GameRoom.playerCount_tick ord entry.2
    have hlen : (GameCodec.encodeSnapshot (entry.2.tick ord).1).length < 2 ^ 61 := by
      rw [GameCodec.encodeSnapshot_length, hplayers]
      omega
    exact events_broadcast hsnapshot hlen ord _ _ _ d hsnap
  · split at hmatch
    · refine events_broadcast hstate ?_ ord _ _ _ d hmatch
      simp only [GameCodec.encodeMatchState, GameCodec.appendU32, GameCodec.appendU8,
        List.length_append, leBytes_length, List.length_cons, List.length_nil]
      decide
    · exact absurd hmatch List.not_mem_nil

theorem OneRoom.tickAll {m : GameRoomManager F} (h : m.OneRoom) (ord : IterOrder UInt32) :
    (m.tickAll ord).2.OneRoom := by
  intro r room hroom
  rw [findRoom_tickAll] at hroom
  obtain ⟨old, hold, -⟩ := Option.map_eq_some_iff.mp hroom
  exact h r old hold

/-! ## One input after the other -/

/-- What the server passes on to its manager. -/
inductive Input
  | datagram (env : Environment) (packet : GamePacket) (peer : SockAddrIn)
  | tick (ord : IterOrder UInt32)

/-- The call that an input leads to. -/
def Input.call : Input → Call
  | .datagram env packet peer => .handlePacket env packet peer
  | .tick ord => .tickAll ord

/-- What is sent for an input, and the manager after it. -/
def serve (m : GameRoomManager F) : Input → Handled F
  | .datagram env packet peer => m.handlePacket env packet peer
  | .tick ord => m.tickAll ord

/-- The manager after an input. -/
def next (m : GameRoomManager F) (i : Input) : GameRoomManager F := (m.serve i).2

theorem after_call (m : GameRoomManager F) (i : Input) : m.after i.call = m.next i := by
  cases i <;> rfl

theorem refines_next {m : GameRoomManager F} {e : Bytes ≃. PlayerBinding} (hm : Refines m e)
    (i : Input) : ∃ e', Refines (m.next i) e' := by
  obtain ⟨e', -, hm'⟩ := after_follows hm i.call
  rw [after_call] at hm'
  exact ⟨e', hm'⟩

theorem OneRoom.handlePacket {m : GameRoomManager F} (h : m.OneRoom) {e : Bytes ≃. PlayerBinding}
    (hm : Refines m e) (env : Environment) (packet : GamePacket) (peer : SockAddrIn) :
    (m.handlePacket env packet peer).2.OneRoom := by
  have hout := handlePacket_outcome hm env packet peer
  generalize m.handlePacket env packet peer = out at hout ⊢
  cases hout with
  | join desired htype hsent => exact (m.joined_join peer desired).oneRoom h
  | drop hm' hsent hsender =>
      rcases hm' with heq | heq
      · exact heq ▸ h
      · exact heq ▸ h.resolve peer packet
  | act hsender hroom hdeed => exact (h.resolve peer packet).modifyRoom _ _

theorem OneRoom.next {m : GameRoomManager F} (h : m.OneRoom) {e : Bytes ≃. PlayerBinding}
    (hm : Refines m e) (i : Input) : (m.next i).OneRoom := by
  cases i with
  | datagram env packet peer => exact h.handlePacket hm env packet peer
  | tick ord => exact h.tickAll ord

/-- The only room there is in a reachable state is the first one. -/
theorem oneRoom_reached (tickIntervalMs : UInt32) (calls : List Call) :
    (reached tickIntervalMs calls : GameRoomManager F).OneRoom := by
  have hstep : ∀ (m : GameRoomManager F) (call : Call),
      (∃ e, Refines m e) ∧ m.OneRoom → (∃ e, Refines (m.after call) e) ∧ (m.after call).OneRoom := by
    rintro m call ⟨⟨e, hm⟩, hone⟩
    obtain ⟨e', -, hm'⟩ := after_follows hm call
    refine ⟨⟨e', hm'⟩, ?_⟩
    cases call with
    | join peer desired => exact (m.joined_join peer desired).oneRoom hone
    | leaveByPeer peer => exact hone.leaveByPeer peer
    | handlePacket env packet peer => exact hone.handlePacket hm env packet peer
    | tickAll ord => exact hone.tickAll ord
  exact (run_invariant_of_step hstep calls
    ⟨⟨⊥, refines_new tickIntervalMs⟩, oneRoom_new tickIntervalMs⟩).2

end GameRoomManager

end LightNet.Game
