/-
# LightNet.Game.Addressed — whatever the server sends, it sends to a member, under the member's own ids.

A datagram of the server is an answer to its sender or one of a broadcast.  In either case the address it
goes to is bound, and the header names the player that it is bound to; a join ack says so once more in
its payload.  What a client learns of itself is therefore what the server knows of it.
-/
import LightNet.Game.Serving

namespace LightNet.Game

open LightNet.Foundation LightNet.Core LightNet.Net

/-- The player that a header names. -/
def GamePacketHeader.binding (header : GamePacketHeader) : PlayerBinding :=
  ⟨header.roomId, header.playerId⟩

/-- The player that a join ack makes of its receiver. -/
def GameJoinAckPayload.binding (ack : GameJoinAckPayload) : PlayerBinding :=
  ⟨ack.roomId, ack.playerId⟩

namespace GameCodec

theorem appendU32_injective : Function.Injective appendU32 := by
  intro v w h
  have hread := readU32_append v []
  rw [h, readU32_append] at hread
  exact (Prod.mk.inj (Option.some.inj hread)).1.symm

/-- The ids in a header are on the wire as they are, even where the payload is too long to be sent. -/
theorem decode_encode_binding {packet packet' : GamePacket} (hlen : packet.payload.length < 2 ^ 61)
    (h : decode ((encode packet).peek (encode packet).readableBytes) = some packet') :
    packet'.header.binding = packet.header.binding := by
  obtain ⟨-, -, tail, hdata⟩ := decode_eq_some.mp h
  obtain ⟨rest, hrest⟩ := encode_front hlen
  rw [hdata] at hrest
  simp only [headFields, packetBytes, List.flatten_cons, List.flatten_nil, List.append_assoc,
    List.append_nil] at hrest
  -- the fields in front of the ids have the same length on both sides
  have hrest := (List.append_inj hrest rfl).2
  have hrest := (List.append_inj hrest rfl).2
  have hrest := (List.append_inj hrest rfl).2
  have hrest := (List.append_inj hrest (by simp only [appendU16, leBytes_length])).2
  obtain ⟨hroom, hrest⟩ := List.append_inj hrest (by simp only [appendU32, leBytes_length])
  obtain ⟨hplayer, -⟩ := List.append_inj hrest (by simp only [appendU32, leBytes_length])
  rw [GamePacketHeader.binding, GamePacketHeader.binding, appendU32_injective hroom,
    appendU32_injective hplayer]

/-- What a receiver with a short buffer makes out was sent. -/
theorem decode_of_take {data : Bytes} {n : Nat} {packet : GamePacket}
    (h : decode (data.take n) = some packet) : decode data = some packet := by
  obtain ⟨hversion, hlen, tail, htake⟩ := decode_eq_some.mp h
  refine decode_eq_some.mpr ⟨hversion, hlen, tail ++ data.drop n, ?_⟩
  rw [← List.append_assoc, ← htake, List.take_append_drop]

end GameCodec

variable {F : Type}

namespace GameRoomManager

/-! ## Addressed datagrams -/

/-- The datagram goes to an address that is bound, in the name of the player that it is bound to. -/
def Addressed (m : GameRoomManager F) (d : SendTo) : Prop :=
  ∃ b, m.findBinding d.peer = some b ∧ ∀ packet, GameCodec.decode d.data = some packet →
    packet.header.binding = b
      ∧ (packet.header.msgType = .kS2CJoinAck →
        ∀ ack, GameCodec.decodeJoinAck packet = some ack → ack.binding = b)

theorem Addressed.congr {m m' : GameRoomManager F} {d : SendTo} (h : Addressed m d)
    (hkeep : ∀ b, m.findBinding d.peer = some b → m'.findBinding d.peer = some b) : Addressed m' d := by
  obtain ⟨b, hb, hpacket⟩ := h
  exact ⟨b, hkeep b hb, hpacket⟩

section

variable {m : GameRoomManager F} {peer : SockAddrIn} {b : PlayerBinding}

theorem addressed_send (hb : m.findBinding peer = some b) {type : GameMsgType}
    (htype : type ≠ .kS2CJoinAck) {payload : Bytes} (hlen : payload.length < 2 ^ 61)
    (seq tick : UInt32) :
    Addressed m (sendBuffer (GameCodec.buildPacket type b.roomId b.playerId seq tick payload) peer) := by
  refine ⟨b, hb, fun packet hpacket => ⟨GameCodec.decode_encode_binding hlen hpacket, fun hack => ?_⟩⟩
  exact absurd ((GameCodec.decode_encode_type hlen hpacket).symm.trans hack) htype

theorem addressed_joinAck (hb : m.findBinding peer = some b) (serverTick : UInt32) :
    Addressed m (m.sendJoinAck peer b.roomId b.playerId serverTick) := by
  have hlen : ∀ ack : GameJoinAckPayload, (GameCodec.encodeJoinAck ack).length = 16 := by
    intro ack
    simp only [GameCodec.encodeJoinAck, GameCodec.appendU32, List.length_append, leBytes_length]
  refine ⟨b, hb, fun packet hpacket => ?_⟩
  have hsent : GameCodec.decode (m.sendJoinAck peer b.roomId b.playerId serverTick).data
      = some _ := decode_sendBuffer rfl ((hlen _).trans_lt (by decide)) peer
  rw [hsent] at hpacket
  obtain rfl := Option.some.inj hpacket
  refine ⟨rfl, fun _ ack hack => ?_⟩
  rw [GameCodec.received, (GameCodec.decodeJoinAck_roundTrips _).decode_eq] at hack
  obtain rfl := Option.some.inj hack
  rfl

end

/-! ## Rooms carry their own numbers -/

/-- A room is filed under its own id. -/
def Numbered (m : GameRoomManager F) : Prop :=
  ∀ r room, m.findRoom r = some room → room.roomId = r

theorem numbered_new (tickIntervalMs : UInt32) : (new tickIntervalMs : GameRoomManager F).Numbered := by
  intro r room hroom
  cases hroom

theorem Numbered.of_rooms {m m' : GameRoomManager F} (h : m.Numbered) (heq : m'.rooms = m.rooms) :
    m'.Numbered := by
  intro r room hroom
  rw [findRoom, heq] at hroom
  exact h r room hroom

theorem Numbered.modifyRoom {m : GameRoomManager F} (h : m.Numbered) {r : UInt32}
    {f : GameRoom F → GameRoom F} (hf : ∀ room, m.findRoom r = some room → (f room).roomId = room.roomId) :
    (m.modifyRoom r f).Numbered := by
  intro r' room hroom
  rw [findRoom_modifyRoom] at hroom
  split at hroom
  · rename_i hr
    obtain ⟨old, hold, rfl⟩ := Option.map_eq_some_iff.mp hroom
    rw [hf old hold, hr]
    exact h r old hold
  · exact h r' room hroom

theorem Numbered.resolve {m : GameRoomManager F} (h : m.Numbered) (peer : SockAddrIn)
    (packet : GamePacket) : (m.resolveAndRefreshPeer peer packet).2.Numbered := by
  unfold resolveAndRefreshPeer
  cases m.findBinding peer with
  | some b => exact h.modifyRoom fun _ _ => rfl
  | none =>
      cases m.namedPlayer packet with
      | none => exact h
      | some player =>
          have hset : (m.setPeer ⟨packet.header.roomId, packet.header.playerId⟩ peer).Numbered :=
            h.modifyRoom fun _ _ => rfl
          exact hset.of_rooms rfl

theorem Numbered.leaveByPeer {m : GameRoomManager F} (h : m.Numbered) (peer : SockAddrIn) :
    (m.leaveByPeer peer).Numbered := by
  unfold GameRoomManager.leaveByPeer
  cases m.findBinding peer with
  | none => exact h
  | some b =>
      have hleft : (m.modifyRoom b.roomId fun room => room.removePlayer b.playerId).Numbered :=
        h.modifyRoom fun _ _ => rfl
      exact hleft.of_rooms rfl

/-! ## Broadcasts -/

section

variable {m : GameRoomManager F} {e : Bytes ≃. PlayerBinding}

/-- Looking at the address of a bound sender changes nothing. -/
theorem Refines.resolve_of_bound (hm : Refines m e) {peer : SockAddrIn} {b : PlayerBinding}
    (hb : m.findBinding peer = some b) (packet : GamePacket) : m.resolveAndRefreshPeer peer packet = (some b, m) := by
  rw [resolveAndRefreshPeer, hb]
  exact congrArg (Prod.mk (some b)) (hm.setPeer_of_bound hb)

/-- The players of a room are bound under the id of the room and their own. -/
theorem Refines.findBinding_of_mem (hm : Refines m e) (hnum : m.Numbered) {r : UInt32}
    {room : GameRoom F} (hroom : m.findRoom r = some room) {ord : IterOrder UInt32}
    {player : GamePlayer F} (hplayer : player ∈ room.allPlayers ord) :
    m.findBinding player.peer = some ⟨room.roomId, player.playerId⟩ := by
  obtain ⟨⟨p, _⟩, hmem, rfl⟩ := List.mem_map.mp hplayer
  have hfind : room.findPlayer p = some _ := UnorderedMap.mem_pairs_iff.mp
    ((UnorderedMap.iterate_perm ord room.players).mem_iff.mp hmem)
  have hkey := hm.player hroom hfind
  rw [hnum r room hroom, (hm.filed hroom p _ hfind).1]
  exact hkey

theorem Refines.addressed_broadcast (hm : Refines m e) (hnum : m.Numbered) {r : UInt32}
    {room : GameRoom F} (hroom : m.findRoom r = some room) {type : GameMsgType}
    (htype : type ≠ .kS2CJoinAck) {payload : Bytes} (hlen : payload.length < 2 ^ 61)
    (ord : IterOrder UInt32) (seq tick : UInt32) :
    ∀ d ∈ broadcast ord room type seq tick payload, Addressed m d := by
  intro d hd
  obtain ⟨player, hplayer, rfl⟩ := List.mem_map.mp hd
  exact addressed_send (hm.findBinding_of_mem hnum hroom hplayer) htype hlen seq tick

theorem Refines.addressed_sendEvent (hm : Refines m e) (hnum : m.Numbered) {r : UInt32}
    {room : GameRoom F} (hroom : m.findRoom r = some room) (ord : IterOrder UInt32)
    (ev : GameEventPayload) : ∀ d ∈ sendEvent ord room ev, Addressed m d := by
  refine hm.addressed_broadcast hnum hroom (by decide) ?_ ord _ _
  simp only [GameCodec.encodeEvent, GameCodec.appendU8, GameCodec.appendU32, List.length_append,
    leBytes_length, List.length_cons, List.length_nil]
  decide

/-- The events of a deed are announced in the room that the deed leaves. -/
theorem Refines.addressed_announce (hm : Refines m e) (hnum : m.Numbered) {r : UInt32}
    {room room' : GameRoom F} (hroom : m.findRoom r = some room) (hid : room'.roomId = room.roomId)
    (hsame : ∀ p, room'.identity p = room.identity p) (ord : IterOrder UInt32) (ev : GameEventPayload) :
    ∀ d ∈ sendEvent ord room' ev, Addressed (m.modifyRoom r fun _ => room') d := by
  have hquiet : Quiet m (m.modifyRoom r fun _ => room') := by
    refine quiet_modifyRoom fun old hold p => ?_
    obtain rfl := Option.some.inj (hroom.symm.trans hold)
    exact hsame p
  have hnum' : (m.modifyRoom r fun _ => room').Numbered := by
    refine hnum.modifyRoom fun old hold => ?_
    obtain rfl := Option.some.inj (hroom.symm.trans hold)
    exact hid
  have hroom' : (m.modifyRoom r fun _ => room').findRoom r = some room' := by
    rw [findRoom_modifyRoom, if_pos rfl, hroom, Option.map_some]
  exact (hquiet.refines hm).addressed_sendEvent hnum' hroom' ord ev

end

/-! ## What a bound player makes the server send -/

section

variable {m : GameRoomManager F} {e : Bytes ≃. PlayerBinding} {packet : GamePacket} {peer : SockAddrIn}
  {b : PlayerBinding}

theorem Refines.handleAs_of_bound (hm : Refines m e) (hb : m.findBinding peer = some b) {α : Type}
    {decode : GamePacket → Option α} {act : GameRoomManager F → PlayerBinding → GameRoom F → α → Handled F} :
    m.handleAs packet peer decode act = ([], m)
      ∨ ∃ payload room, decode packet = some payload ∧ m.findRoom b.roomId = some room
        ∧ m.handleAs packet peer decode act = act m b room payload := by
  simp only [handleAs, hm.resolve_of_bound hb]
  cases decode packet with
  | none => exact .inl rfl
  | some payload =>
      cases m.findRoom b.roomId with
      | none => exact .inl rfl
      | some room => exact .inr ⟨payload, room, rfl, rfl, rfl⟩

theorem Refines.addressed_handlePing (hm : Refines m e) (hb : m.findBinding peer = some b)
    (env : Environment) :
    ∀ d ∈ (m.handlePing env packet peer).1, Addressed (m.handlePing env packet peer).2 d := by
  have hping : m.handlePing env packet peer = (m.sendPong env packet peer, m) := by
    simp only [handlePing, hm.resolve_of_bound hb]
  rw [hping]
  intro d hd
  unfold sendPong at hd
  split at hd
  · exact absurd hd List.not_mem_nil
  · rw [List.mem_singleton.mp hd, hb]
    refine addressed_send hb (by decide) ?_ _ _
    simp only [GameCodec.encodePong, GameCodec.appendU64, List.length_append, leBytes_length]
    decide

/-- What a message of a bound player makes the server send. -/
theorem Refines.addressed_handleAs (hm : Refines m e) (hb : m.findBinding peer = some b) {α : Type}
    {decode : GamePacket → Option α} {act : GameRoomManager F → PlayerBinding → GameRoom F → α → Handled F}
    (hact : ∀ room payload, m.findRoom b.roomId = some room →
      ∀ d ∈ (act m b room payload).1, Addressed (act m b room payload).2 d) :
    ∀ d ∈ (m.handleAs packet peer decode act).1, Addressed (m.handleAs packet peer decode act).2 d := by
  obtain heq | ⟨payload, room, -, hroom, heq⟩ :=
    @handleAs_of_bound _ _ _ packet _ _ hm hb _ decode act
  · rw [heq]
    exact fun d hd => absurd hd List.not_mem_nil
  · rw [heq]
    exact hact room payload hroom

end

variable [FloatArith F]

/-! ## The rooms keep their numbers -/

theorem roomId_deed {type : GameMsgType} {room room' : GameRoom F} {p : UInt32}
    {evs : List GameEventPayload} (h : room.Deed type p room' evs) : room'.roomId = room.roomId := by
  cases h <;> rfl

theorem roomId_tick (ord : IterOrder UInt32) (room : GameRoom F) :
    (room.tick ord).2.roomId = room.roomId := by
  have hclock : ∀ (room : GameRoom F) (dt : F), (room.advanceClock dt).roomId = room.roomId := by
    intro room dt
    unfold GameRoom.advanceClock
    split <;> rfl
  simp only [GameRoom.tick, GameRoom.simulateMovement, GameRoom.simulateRespawn, hclock]

theorem Numbered.ensureRoom {m : GameRoomManager F} (h : m.Numbered) : m.ensureRoom.Numbered := by
  intro r room hroom
  obtain hsame | ⟨rfl, -, hnew⟩ := m.findRoom_ensureRoom_cases r
  · exact h r room (hsame.symm.trans hroom)
  · obtain rfl := Option.some.inj (hnew.symm.trans hroom)
    rfl

theorem Numbered.join {m : GameRoomManager F} (h : m.Numbered) (peer : SockAddrIn)
    (desired : UInt32) : (m.join peer desired).2.Numbered := by
  unfold GameRoomManager.join
  cases m.peerIndex.lookup (peerKey peer) with
  | some b => exact h
  | none =>
      dsimp only
      cases hroom : m.ensureRoom.findRoom kSingleRoomId with
      | none => exact h.ensureRoom
      | some room =>
          dsimp only [takeIn]
          split
          · exact h.ensureRoom.of_rooms rfl
          · have hadd : (room.addPlayer peer m.ensureRoom.nextPlayerId).2.roomId = room.roomId := by
              unfold GameRoom.addPlayer
              split <;> rfl
            have hmodify : (m.ensureRoom.modifyRoom kSingleRoomId fun _ =>
                (room.addPlayer peer m.ensureRoom.nextPlayerId).2).Numbered := by
              refine h.ensureRoom.modifyRoom fun room' hroom' => ?_
              obtain rfl : room' = room := Option.some.inj (hroom'.symm.trans hroom)
              exact hadd
            exact hmodify.of_rooms rfl

theorem Refines.addressed_handleJoin {m : GameRoomManager F} {e : Bytes ≃. PlayerBinding}
    (hm : Refines m e) (packet : GamePacket) (peer : SockAddrIn) :
    ∀ d ∈ (m.handleJoin packet peer).1, Addressed (m.handleJoin packet peer).2 d := by
  unfold handleJoin
  cases GameCodec.decodeJoin packet with
  | none => exact fun d hd => absurd hd List.not_mem_nil
  | some req =>
      dsimp only
      split
      · rename_i hok
        obtain ⟨e', -, hm'⟩ := join_follows hm peer req.desiredRoomId
        have hb := findBinding_join hok
        intro d hd
        rw [hm'.setPeer_of_bound hb] at hd ⊢
        rw [List.mem_singleton.mp hd]
        exact addressed_joinAck hb _
      · exact fun d hd => absurd hd List.not_mem_nil

variable [FloatBits F]

theorem Numbered.handlePacket {m : GameRoomManager F} (h : m.Numbered) {e : Bytes ≃. PlayerBinding}
    (hm : Refines m e) (env : Environment) (packet : GamePacket) (peer : SockAddrIn) :
    (m.handlePacket env packet peer).2.Numbered := by
  have hout := handlePacket_outcome hm env packet peer
  generalize m.handlePacket env packet peer = out at hout ⊢
  cases hout with
  | join desired htype hsent => exact h.join peer desired
  | drop hm' hsent hsender =>
      rcases hm' with heq | heq
      · exact heq ▸ h
      · exact heq ▸ h.resolve peer packet
  | act hsender hroom hdeed =>
      refine (h.resolve peer packet).modifyRoom fun room hroom' => ?_
      obtain rfl := Option.some.inj (hroom'.symm.trans hroom)
      exact roomId_deed hdeed

theorem Numbered.tickAll {m : GameRoomManager F} (h : m.Numbered) (ord : IterOrder UInt32) :
    (m.tickAll ord).2.Numbered := by
  intro r room hroom
  rw [findRoom_tickAll] at hroom
  obtain ⟨old, hold, rfl⟩ := Option.map_eq_some_iff.mp hroom
  rw [roomId_tick]
  exact h r old hold

/-! ## What the server sends is addressed -/

/-- The sender joins, or is bound already. -/
def Known (m : GameRoomManager F) (packet : GamePacket) (peer : SockAddrIn) : Prop :=
  packet.header.msgType = .kC2SJoin ∨ ∃ b, m.findBinding peer = some b

section

variable {m : GameRoomManager F} {e : Bytes ≃. PlayerBinding}

/-- **Handling a packet.** -/
theorem Refines.addressed_handlePacket (hm : Refines m e) (hnum : m.Numbered) (env : Environment)
    {packet : GamePacket} {peer : SockAddrIn} (hknown : Known m packet peer) :
    ∀ d ∈ (m.handlePacket env packet peer).1, Addressed (m.handlePacket env packet peer).2 d := by
  have hnone : ∀ m' : GameRoomManager F, ∀ d ∈ ([] : List SendTo), Addressed m' d :=
    fun _ _ hd => absurd hd List.not_mem_nil
  unfold handlePacket
  dsimp only
  split
  · exact hm.addressed_handleJoin packet peer
  · rename_i hjoin
    obtain ⟨b, hb⟩ := hknown.resolve_left hjoin
    split
    · exact hm.addressed_handleAs hb fun _ _ _ => hnone _
    split
    · apply hm.addressed_handleAs hb
      intro room fire hroom d hd
      have hev := hm.addressed_announce hnum hroom
        (roomId_deed ((GameRoom.shot_applyFire (hm.filed hroom) env.ord b.playerId fire).deed rfl))
        (fun p => room.identity_applyFire env.ord b.playerId p fire) env.ord
      -- the hit comes first, then the kill
      dsimp only at hd
      split at hd
      · rcases List.mem_append.mp hd with hhit | hkill
        · exact hev _ d hhit
        · split at hkill
          · exact hev _ d hkill
          · exact absurd hkill List.not_mem_nil
      · exact absurd hd List.not_mem_nil
    split
    · apply hm.addressed_handleAs hb
      intro room chat hroom
      refine hm.addressed_broadcast hnum hroom (by decide) ?_ env.ord _ _
      simp only [GameCodec.encodeChat, GameCodec.appendU32, GameCodec.appendU16, List.length_append,
        leBytes_length, List.length_take]
      omega
    split
    · exact hm.addressed_handleAs hb fun _ _ _ => hnone _
    split
    · apply hm.addressed_handleAs hb
      intro room _ hroom
      obtain ⟨-, old, player, hold, hplayer, -⟩ := hm.entry hb
      obtain rfl := Option.some.inj (hroom.symm.trans hold)
      exact hm.addressed_announce hnum hroom
        (roomId_deed (GameRoom.deed_applyRespawn hplayer rfl))
        (fun p => room.identity_applyRespawn b.playerId p) env.ord _
    split
    · exact hm.addressed_handleAs hb fun _ _ _ => hnone _
    split
    · exact hm.addressed_handlePing hb env
    · exact hnone _

/-- **A tick.** -/
theorem Refines.addressed_tickAll (hm : Refines m e) (hnum : m.Numbered) (ord : IterOrder UInt32) :
    ∀ d ∈ (m.tickAll ord).1, Addressed (m.tickAll ord).2 d := by
  have hm' : Refines (m.tickAll ord).2 e := (m.quiet_tickAll ord).refines hm
  have hnum' := hnum.tickAll ord
  intro d hd
  obtain ⟨⟨r, room⟩, hentry, hsent⟩ := List.mem_flatMap.mp hd
  have hroom : (m.tickAll ord).2.findRoom r = some (room.tick ord).2 := by
    rw [findRoom_tickAll]
    have hold : m.findRoom r = some room := UnorderedMap.mem_pairs_iff.mp
      ((UnorderedMap.iterate_perm ord m.rooms).mem_iff.mp hentry)
    rw [hold, Option.map_some]
  rcases List.mem_append.mp hsent with hsnap | hmatch
  · have hcount : (room.tick ord).1.players.length ≤ 2 ^ 32 := by
      rw [GameRoom.tick_fst, List.length_map, GameRoom.allPlayers, UnorderedMap.values_length]
      exact playerCount_le (room.tick ord).2
    have hlen : (GameCodec.encodeSnapshot (room.tick ord).1).length < 2 ^ 61 := by
      rw [GameCodec.encodeSnapshot_length]
      omega
    exact hm'.addressed_broadcast hnum' hroom (by decide) hlen ord _ _ d hsnap
  · split at hmatch
    · refine hm'.addressed_broadcast hnum' hroom (by decide) ?_ ord _ _ d hmatch
      simp only [GameCodec.encodeMatchState, GameCodec.appendU32, GameCodec.appendU8,
        List.length_append, leBytes_length, List.length_cons, List.length_nil]
      decide
    · exact absurd hmatch List.not_mem_nil

end

end GameRoomManager

end LightNet.Game
