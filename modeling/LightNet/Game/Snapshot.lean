/-
# LightNet.Game.Snapshot — what the receivers of a tick's snapshots are told.

A tick moves every player and then sends each of them the state of all.  `Faithful` is what a receiver
should be able to conclude from such a datagram: it decodes, twice, and it holds the tick of the room
and one entry for each player.  The count of entries is one byte on the wire, and nothing limits how
many players join, so the broadcast is faithful exactly as long as no room has more than 255.
-/
import LightNet.Game.PeerIndex
import LightNet.Game.Payloads
import Mathlib.Data.List.Induction

namespace LightNet.Game

open LightNet.Foundation LightNet.Core LightNet.Net

variable {F : Type}

/-- An entry of a snapshot tells the truth about a player. -/
structure Describes (entry : GamePlayerSnapshot F) (player : GamePlayer F) : Prop where
  playerId : entry.playerId = player.playerId
  x : entry.x = player.x
  y : entry.y = player.y
  z : entry.z = player.z
  yaw : entry.yaw = player.yaw
  pitch : entry.pitch = player.pitch
  hp : entry.hp = player.hp
  dead : entry.stateFlags = if player.alive then 0 else 1
  lastInputSeq : entry.lastInputSeq = player.lastInputSeq
  weaponId : entry.weaponId = player.weaponId
  kills : entry.kills = player.kills
  deaths : entry.deaths = player.deaths

theorem describes_snapshot (player : GamePlayer F) : Describes player.snapshot player :=
  ⟨rfl, rfl, rfl, rfl, rfl, rfl, rfl, rfl, rfl, rfl, rfl, rfl⟩

/-- The players of a room, in no particular order. -/
def GameRoom.roster (room : GameRoom F) : List (GamePlayer F) :=
  (UnorderedMap.pairs room.players).map Prod.snd

/-- The receiver of `data` learns the tick of the room and, for each player, one true entry. -/
def Faithful [FloatBits F] (room : GameRoom F) (data : Bytes) : Prop :=
  ∃ packet snap players, GameCodec.decode data = some packet
    ∧ GameCodec.decodeSnapshot packet = some snap ∧ snap.serverTick = room.serverTick
    ∧ players.Perm room.roster ∧ List.Forall₂ Describes snap.players players

theorem GameRoom.allPlayers_perm (ord : IterOrder UInt32) (room : GameRoom F) :
    (room.allPlayers ord).Perm room.roster :=
  (UnorderedMap.iterate_perm ord room.players).map Prod.snd

@[simp] theorem GameRoom.length_roster (room : GameRoom F) :
    room.roster.length = room.playerCount := by
  rw [roster, List.length_map, UnorderedMap.pairs_length, playerCount]

/-- Of more than 255 players no datagram can tell. -/
theorem not_faithful_of_lt [FloatBits F] {room : GameRoom F} (h : 255 < room.playerCount)
    (data : Bytes) : ¬Faithful room data := by
  rintro ⟨packet, snap, players, -, hsnap, -, hperm, hdesc⟩
  have hle := GameCodec.decodeSnapshot_length hsnap
  rw [hdesc.length_eq, hperm.length_eq, GameRoom.length_roster] at hle
  omega

/-! ## The datagrams -/

/-- A packet that is sent is decoded to what was sent, with the length of its payload filled in. -/
theorem decode_sendBuffer {packet : GamePacket} (hversion : packet.header.version = kVersion)
    (hlen : packet.payload.length < 2 ^ 16) (peer : SockAddrIn) :
    GameCodec.decode (sendBuffer (GameCodec.encode packet) peer).data
      = some (GameCodec.received packet) := by
  have hcap : Buffer.kCheapPrepend + (28 + packet.payload.length) ≤ Buffer.kMaxCapacity := by
    have hpre : Buffer.kCheapPrepend = 8 := rfl
    have hmax : Buffer.kMaxCapacity = 67108864 := rfl
    omega
  obtain ⟨hinv, hread⟩ := GameCodec.encode_readable hcap
  rw [sendBuffer, hinv.peek_readableBytes, hread, ← List.append_nil (GameCodec.packetBytes packet)]
  exact GameCodec.decode_packetBytes hversion hlen []

namespace GameRoom

variable [FloatArith F]

/-! ## What a tick reports -/

theorem advanceClock_players (room : GameRoom F) (dt : F) :
    (room.advanceClock dt).players = room.players := by
  unfold advanceClock
  split <;> rfl

theorem advanceClock_serverTick (room : GameRoom F) (dt : F) :
    (room.advanceClock dt).serverTick = room.serverTick := by
  unfold advanceClock
  split <;> rfl

@[simp] theorem playerCount_tick (ord : IterOrder UInt32) (room : GameRoom F) :
    (room.tick ord).2.playerCount = room.playerCount := by
  simp only [tick, simulateMovement, simulateRespawn, playerCount, UnorderedMap.size_mapWithKey,
    advanceClock_players]

/-- The snapshot of a tick is taken from the room that the tick leaves. -/
theorem tick_fst (ord : IterOrder UInt32) (room : GameRoom F) : (room.tick ord).1
    = { serverTick := (room.tick ord).2.serverTick,
        players := ((room.tick ord).2.allPlayers ord).map GamePlayer.snapshot } := by
  simp only [tick, simulateMovement, simulateRespawn, advanceClock_serverTick]

variable [FloatBits F]

/-- The snapshot datagrams that a room sends in a tick. -/
def snapshotsSent (ord : IterOrder UInt32) (room : GameRoom F) : List SendTo :=
  GameRoomManager.sendSnapshot ord (room.tick ord).2 (room.tick ord).1

@[simp] theorem length_snapshotsSent (ord : IterOrder UInt32) (room : GameRoom F) :
    (room.snapshotsSent ord).length = room.playerCount := by
  rw [snapshotsSent, GameRoomManager.sendSnapshot, GameRoomManager.broadcast, List.length_map,
    allPlayers, UnorderedMap.values_length]
  exact playerCount_tick ord room

/-- Up to 255 players, everybody is told the truth. -/
theorem faithful_of_le {ord : IterOrder UInt32} {room : GameRoom F} (h : room.playerCount ≤ 255)
    {d : SendTo} (hd : d ∈ room.snapshotsSent ord) : Faithful (room.tick ord).2 d.data := by
  have hcount : (room.tick ord).1.players.length ≤ 255 := by
    rw [tick_fst, List.length_map, allPlayers, UnorderedMap.values_length]
    exact le_of_eq_of_le (playerCount_tick ord room) h
  have hlen : (GameCodec.encodeSnapshot (room.tick ord).1).length < 2 ^ 16 := by
    rw [GameCodec.encodeSnapshot_length]
    omega
  obtain ⟨player, -, rfl⟩ := List.mem_map.mp hd
  refine ⟨_, (room.tick ord).1, (room.tick ord).2.allPlayers ord, decode_sendBuffer rfl hlen _,
    (GameCodec.decodeSnapshot_roundTrips hcount).decode_eq _, ?_, allPlayers_perm ord _, ?_⟩
  · rw [tick_fst]
  · rw [tick_fst, List.forall₂_map_left_iff, List.forall₂_same]
    intro player _
    exact describes_snapshot player

end GameRoom

/-! ## The ticks of the manager -/

namespace GameRoomManager

variable [FloatArith F] [FloatBits F]

theorem findRoom_tickAll (m : GameRoomManager F) (ord : IterOrder UInt32) (r : UInt32) :
    (m.tickAll ord).2.findRoom r = (m.findRoom r).map fun room => (room.tick ord).2 :=
  UnorderedMap.lookup_mapWithKey _ _ r

theorem snapshotsSent_subset {m : GameRoomManager F} {ord : IterOrder UInt32} {r : UInt32}
    {room : GameRoom F} (hroom : m.findRoom r = some room) :
    room.snapshotsSent ord ⊆ (m.tickAll ord).1 := by
  intro d hd
  have hmem : (r, room) ∈ UnorderedMap.iterate ord m.rooms :=
    (UnorderedMap.iterate_perm ord m.rooms).mem_iff.mpr (UnorderedMap.mem_pairs_iff.mpr hroom)
  exact List.mem_flatMap.mpr ⟨(r, room), hmem, List.mem_append_left _ hd⟩

/-- Every snapshot that a tick sends is faithful to its room as the tick leaves it. -/
def SnapshotsFaithful (m : GameRoomManager F) (ord : IterOrder UInt32) : Prop :=
  ∀ r room room', m.findRoom r = some room → (m.tickAll ord).2.findRoom r = some room' →
    ∀ d ∈ room.snapshotsSent ord, d ∈ (m.tickAll ord).1 ∧ Faithful room' d.data

/-- No room has more players than a snapshot can count. -/
def Countable (m : GameRoomManager F) : Prop :=
  ∀ r room, m.findRoom r = some room → room.playerCount ≤ 255

/-- A crowded room sends snapshots, and none of them is faithful. -/
theorem not_snapshotsFaithful {m : GameRoomManager F} {r : UInt32} {room : GameRoom F}
    (hroom : m.findRoom r = some room) (h : 255 < room.playerCount) (ord : IterOrder UInt32) :
    ¬m.SnapshotsFaithful ord := by
  intro hf
  have hroom' : (m.tickAll ord).2.findRoom r = some (room.tick ord).2 := by
    rw [findRoom_tickAll, hroom]
    rfl
  have hne : room.snapshotsSent ord ≠ [] := by
    intro hnil
    have hlen := GameRoom.length_snapshotsSent ord room
    rw [hnil, List.length_nil] at hlen
    omega
  obtain ⟨d, hd⟩ := List.exists_mem_of_ne_nil _ hne
  have hcrowded : 255 < (room.tick ord).2.playerCount := by
    rwa [GameRoom.playerCount_tick]
  exact not_faithful_of_lt hcrowded d.data (hf r room _ hroom hroom' d hd).2

/-- **Snapshots are faithful exactly as long as no room has more than 255 players**, in every state
that any calls lead to and for every order in which the tables are walked. -/
theorem snapshotsFaithful_iff (tickIntervalMs : UInt32) (calls : List Call)
    (ord : IterOrder UInt32) :
    (reached tickIntervalMs calls : GameRoomManager F).SnapshotsFaithful ord
      ↔ (reached tickIntervalMs calls : GameRoomManager F).Countable := by
  constructor
  · intro hf r room hroom
    by_contra hlt
    exact not_snapshotsFaithful hroom (Nat.lt_of_not_le hlt) ord hf
  · intro hc r room room' hroom hroom' d hd
    rw [findRoom_tickAll, hroom] at hroom'
    obtain rfl := Option.some.inj hroom'
    exact ⟨snapshotsSent_subset hroom hd, GameRoom.faithful_of_le (hc r room hroom) hd⟩

end GameRoomManager

/-! ## Nothing limits the players of a room -/

namespace GameRoomManager

variable [FloatArith F]

theorem findRoom_ensureRoom (m : GameRoomManager F) : m.ensureRoom.findRoom kSingleRoomId
    = some ((m.findRoom kSingleRoomId).getD (GameRoom.new kSingleRoomId m.tickIntervalMs)) := by
  unfold ensureRoom
  split
  · rename_i h
    obtain ⟨room, hroom⟩ := UnorderedMap.mem_iff_lookup.mp h
    rw [findRoom, hroom]
    rfl
  · rename_i h
    rw [findRoom, findRoom, AList.lookup_eq_none.mpr h]
    exact AList.lookup_insert m.rooms

theorem nextPlayerId_ensureRoom (m : GameRoomManager F) :
    m.ensureRoom.nextPlayerId = m.nextPlayerId := by
  unfold ensureRoom
  split <;> rfl

/-- The room after a player with a free id has been added. -/
def extended (room : GameRoom F) (peer : SockAddrIn) (p : UInt32) : GameRoom F :=
  { room with players := room.players.insert p (GamePlayer.spawn peer p room.playerCount) }

/-- A new peer is admitted if the next id is free. -/
theorem join_of_free {m : GameRoomManager F} {peer : SockAddrIn} {room : GameRoom F}
    (hnew : m.findBinding peer = none) (hroom : m.ensureRoom.findRoom kSingleRoomId = some room)
    (hne : m.nextPlayerId ≠ 0) (hfree : m.nextPlayerId ∉ room.players) (desired : UInt32) :
    (m.join peer desired).2
      = { m.ensureRoom.modifyRoom kSingleRoomId fun _ => extended room peer m.nextPlayerId with
          nextPlayerId := m.nextPlayerId + 1
          peerIndex := UnorderedMap.assign (peerKey peer) ⟨kSingleRoomId, m.nextPlayerId⟩ m.peerIndex } := by
  have hadd : room.addPlayer peer m.nextPlayerId
      = (m.nextPlayerId, extended room peer m.nextPlayerId) :=
    if_neg (not_or.mpr ⟨hne, hfree⟩)
  rw [findBinding] at hnew
  simp only [join, hnew, hroom, takeIn, nextPlayerId_ensureRoom, hadd, hne, if_false, modifyRoom,
    m.quiet_ensureRoom.peerIndex]

/-! ## A room that fills up -/

/-- Some peers have joined one after the other: their ids are the first ones. -/
structure Filled (m : GameRoomManager F) (peers : List SockAddrIn) : Prop where
  next : m.nextPlayerId.toNat = peers.length + 1
  known : ∀ peer, peer ∉ peers → m.findBinding peer = none
  room : ∃ room, m.ensureRoom.findRoom kSingleRoomId = some room ∧ room.playerCount = peers.length
    ∧ ∀ p ∈ room.players, p.toNat ≤ peers.length

theorem filled_new (tickIntervalMs : UInt32) :
    Filled (new tickIntervalMs : GameRoomManager F) [] where
  next := rfl
  known := fun _ _ => rfl
  room := by
    refine ⟨_, findRoom_ensureRoom _, rfl, ?_⟩
    intro p hp
    exact absurd hp (AList.notMem_empty p)

theorem Filled.join {m : GameRoomManager F} {peers : List SockAddrIn} (h : Filled m peers)
    {peer : SockAddrIn} (hnew : peer ∉ peers) (hlen : peers.length + 2 < 2 ^ 32) (desired : UInt32) :
    Filled (m.join peer desired).2 (peers ++ [peer]) := by
  obtain ⟨room, hroom, hcount, hids⟩ := h.room
  have hnext := h.next
  have hne : m.nextPlayerId ≠ 0 := by
    intro h0
    rw [h0] at hnext
    exact absurd hnext (by simp)
  have hfree : m.nextPlayerId ∉ room.players := by
    intro hmem
    have := hids _ hmem
    omega
  have hlen' : (peers ++ [peer]).length = peers.length + 1 := by simp
  rw [join_of_free (h.known peer hnew) hroom hne hfree]
  refine ⟨?_, ?_, extended room peer m.nextPlayerId, ?_, ?_, ?_⟩
  · show (m.nextPlayerId + 1).toNat = _
    rw [UInt32.toNat_add, hnext, hlen']
    exact Nat.mod_eq_of_lt hlen
  · intro q hq
    rw [List.mem_append, List.mem_singleton, not_or] at hq
    have hkey : peerKey q ≠ peerKey peer := by
      intro heq
      exact hq.2 (toIpPort_injective heq)
    exact (UnorderedMap.lookup_assign_ne hkey _ _).trans (h.known q hq.1)
  · rw [findRoom_ensureRoom]
    have hfind := findRoom_modifyRoom m.ensureRoom kSingleRoomId kSingleRoomId
      fun _ => extended room peer m.nextPlayerId
    rw [if_pos rfl, hroom, Option.map_some] at hfind
    exact congrArg (fun found => some (Option.getD found _)) hfind
  · rw [hlen', ← hcount]
    exact UnorderedMap.size_insert hfree _
  · intro p hp
    rw [hlen']
    rcases AList.mem_insert _ |>.mp hp with rfl | hp
    · omega
    · have := hids p hp
      omega

/-- A room that has been filled has its players. -/
theorem Filled.findRoom {m : GameRoomManager F} {peers : List SockAddrIn} (h : Filled m peers)
    (hne : peers ≠ []) : ∃ room, m.findRoom kSingleRoomId = some room
      ∧ room.playerCount = peers.length := by
  obtain ⟨room, hroom, hcount, -⟩ := h.room
  rw [findRoom_ensureRoom] at hroom
  cases hfind : m.findRoom kSingleRoomId with
  | none =>
      rw [hfind] at hroom
      obtain rfl := Option.some.inj hroom
      exact absurd (List.length_eq_zero_iff.mp hcount.symm) hne
  | some room' =>
      rw [hfind] at hroom
      obtain rfl := Option.some.inj hroom
      exact ⟨_, rfl, hcount⟩

variable [FloatBits F]

/-- Peers that join one after the other are all in the room in the end. -/
theorem reached_joins (tickIntervalMs : UInt32) {peers : List SockAddrIn} (hnodup : peers.Nodup)
    (hlen : peers.length + 1 < 2 ^ 32) :
    Filled (reached tickIntervalMs (peers.map (Call.join · 0)) : GameRoomManager F) peers := by
  induction peers using List.reverseRecOn with
  | nil => exact filled_new tickIntervalMs
  | append_singleton peers peer ih =>
      rw [List.length_append, List.length_singleton] at hlen
      obtain ⟨hnodup, -, hdisj⟩ := List.nodup_append.mp hnodup
      have hnew : peer ∉ peers := by
        intro hmem
        exact hdisj peer hmem peer (List.mem_singleton_self peer) rfl
      rw [reached, List.map_append, run_append]
      exact (ih hnodup (by omega)).join hnew hlen 0

/-- 256 peers on one host. -/
def crowd : List SockAddrIn := (List.range 256).map fun i => ⟨127, 0, 0, 1, UInt16.ofNat (1024 + i)⟩

theorem crowd_nodup : crowd.Nodup := by
  apply List.Nodup.map_on _ List.nodup_range
  intro i hi j hj heq
  have hport : UInt16.ofNat (1024 + i) = UInt16.ofNat (1024 + j) := congrArg SockAddrIn.port heq
  have hval := congrArg UInt16.toNat hport
  rw [List.mem_range] at hi hj
  rw [UInt16.toNat_ofNat', UInt16.toNat_ofNat'] at hval
  omega

/-- With 256 players, the next tick tells nobody the truth. -/
theorem crowd_misled :
    ¬(reached 33 (crowd.map (Call.join · 0)) : GameRoomManager Binary32).SnapshotsFaithful
      (.entries _) := by
  have hcrowd : crowd.length = 256 := by simp [crowd]
  have hfilled : Filled (reached 33 (crowd.map (Call.join · 0)) : GameRoomManager Binary32) crowd :=
    reached_joins 33 crowd_nodup (by omega)
  obtain ⟨room, hroom, hcount⟩ := hfilled.findRoom (List.ne_nil_of_length_eq_add_one hcrowd)
  exact not_snapshotsFaithful hroom (by omega) _

end GameRoomManager

end LightNet.Game
