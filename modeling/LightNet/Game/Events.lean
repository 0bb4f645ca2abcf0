/-
# LightNet.Game.Events — the events that the datagrams of a step carry.

`send_event` writes one event to every player of a room.  What a client can know of it is the datagram,
so an event counts as *broadcast* when some datagram decodes to it: `events sent` lists the different
events that are found in `sent`.  The packets of other types carry none, however long their payload is.
-/
import LightNet.Game.Snapshot
import Mathlib.Data.List.Dedup

namespace LightNet.Game

open LightNet.Foundation LightNet.Core LightNet.Net

/-- The event that a datagram carries, if it is an event. -/
def eventOf (d : SendTo) : Option GameEventPayload := do
  let packet ← GameCodec.decode d.data
  guard (packet.header.msgType = .kS2CEvent)
  GameCodec.decodeEvent packet

/-- The different events that some datagrams carry. -/
def events (sent : List SendTo) : List GameEventPayload := (sent.filterMap eventOf).dedup

@[simp] theorem events_nil : events [] = [] := rfl

/-- Datagrams of which none is an event. -/
theorem events_eq_nil {sent : List SendTo} (h : ∀ d ∈ sent, eventOf d = none) : events sent = [] := by
  rw [events, List.filterMap_eq_nil_iff.mpr h, List.dedup_nil]

/-! ## What a datagram of the server carries -/

/-- A packet of another type is no event. -/
theorem eventOf_of_type_ne {type : GameMsgType} (htype : type ≠ .kS2CEvent) {payload : Bytes}
    (hlen : payload.length < 2 ^ 61) (roomId playerId seq tick : UInt32) (peer : SockAddrIn) :
    eventOf (sendBuffer (GameCodec.buildPacket type roomId playerId seq tick payload) peer)
      = none := by
  unfold eventOf
  cases hdec : GameCodec.decode
      (sendBuffer (GameCodec.buildPacket type roomId playerId seq tick payload) peer).data with
  | none => rfl
  | some packet =>
      have hsame : packet.header.msgType = type := GameCodec.decode_encode_type hlen hdec
      simp only [Option.bind_eq_bind, Option.bind_some, guard, hsame, htype, if_false, failure,
        Option.bind_none]

/-- A packet that is built with an event in it carries that event. -/
theorem eventOf_event (ev : GameEventPayload) (roomId playerId seq tick : UInt32)
    (peer : SockAddrIn) :
    eventOf (sendBuffer (GameCodec.buildPacket .kS2CEvent roomId playerId seq tick
      (GameCodec.encodeEvent ev)) peer) = some ev := by
  have hlen : (GameCodec.encodeEvent ev).length < 2 ^ 16 := by
    simp only [GameCodec.encodeEvent, GameCodec.appendU8, GameCodec.appendU32, List.length_append,
      leBytes_length, List.length_cons, List.length_nil]
    decide
  unfold eventOf GameCodec.buildPacket
  rw [decode_sendBuffer rfl hlen]
  exact (GameCodec.decodeEvent_roundTrips ev).decode_eq _

/-! ## Broadcasts -/

variable {F : Type}

namespace GameRoomManager

theorem filterMap_sendEvent (ord : IterOrder UInt32) (room : GameRoom F) (ev : GameEventPayload) :
    (sendEvent ord room ev).filterMap eventOf = List.replicate room.playerCount ev := by
  rw [sendEvent, broadcast, List.filterMap_map]
  have hall : (eventOf ∘ fun player : GamePlayer F =>
      sendBuffer (GameCodec.buildPacket .kS2CEvent room.roomId player.playerId 0 room.serverTick
        (GameCodec.encodeEvent ev)) player.peer) = fun _ => some ev := by
    funext player
    exact eventOf_event ev _ _ _ _ _
  have hcount : (room.allPlayers ord).length = room.playerCount := UnorderedMap.values_length ord _
  rw [hall, List.filterMap_eq_map' (f := fun _ => ev), List.map_const', hcount]

/-- Packets of another type, whatever goes to whom. -/
theorem events_broadcast {type : GameMsgType} (htype : type ≠ .kS2CEvent) {payload : Bytes}
    (hlen : payload.length < 2 ^ 61) (ord : IterOrder UInt32) (room : GameRoom F)
    (seq tick : UInt32) : ∀ d ∈ broadcast ord room type seq tick payload, eventOf d = none := by
  intro d hd
  obtain ⟨player, -, rfl⟩ := List.mem_map.mp hd
  exact eventOf_of_type_ne htype hlen _ _ _ _ _

/-- The datagrams that announce some different events to a room with somebody in it carry these
events. -/
theorem events_announce {ord : IterOrder UInt32} {room : GameRoom F} (hroom : 0 < room.playerCount)
    {evs : List GameEventPayload} (hevs : evs.Nodup) :
    events (evs.flatMap (sendEvent ord room)) = evs := by
  obtain ⟨n, hn⟩ := Nat.exists_eq_add_of_lt hroom
  rw [events, List.filterMap_flatMap]
  simp only [filterMap_sendEvent, hn]
  induction evs with
  | nil => rfl
  | cons ev evs ih =>
      obtain ⟨hnew, hevs⟩ := List.nodup_cons.mp hevs
      rw [List.flatMap_cons, List.dedup_append, ih hevs]
      -- of the copies of the first event one is left
      have hcopies : ∀ k, List.replicate (k + 1) ev ∪ evs = ev :: evs := by
        intro k
        induction k with
        | zero =>
            rw [List.replicate_one, List.cons_union, List.nil_union]
            exact List.insert_of_not_mem hnew
        | succ k ihk =>
            rw [List.replicate_succ, List.cons_union, ihk]
            exact List.insert_of_mem List.mem_cons_self
      rw [Nat.zero_add]
      exact hcopies n

/-- What is announced reaches every player of the room. -/
theorem announce_reaches {ord : IterOrder UInt32} {room : GameRoom F} {p : UInt32}
    {player : GamePlayer F} (hplayer : room.findPlayer p = some player) {evs : List GameEventPayload}
    {ev : GameEventPayload} (hev : ev ∈ evs) :
    ∃ d ∈ evs.flatMap (sendEvent ord room), d.peer = player.peer ∧ eventOf d = some ev := by
  have hmem : player ∈ room.allPlayers ord := by
    refine List.mem_map.mpr ⟨(p, player), ?_, rfl⟩
    exact (UnorderedMap.iterate_perm ord room.players).mem_iff.mpr
      (UnorderedMap.mem_pairs_iff.mpr hplayer)
  refine ⟨_, List.mem_flatMap.mpr ⟨ev, hev, List.mem_map.mpr ⟨player, hmem, rfl⟩⟩, rfl, ?_⟩
  exact eventOf_event ev _ _ _ _ _

theorem playerCount_pos {room : GameRoom F} {p : UInt32} {player : GamePlayer F}
    (hplayer : room.findPlayer p = some player) : 0 < room.playerCount := by
  rw [GameRoom.playerCount, ← UnorderedMap.pairs_length]
  exact List.length_pos_of_mem (UnorderedMap.mem_pairs_iff.mpr hplayer)

end GameRoomManager

end LightNet.Game
