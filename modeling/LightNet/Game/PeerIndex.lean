/-
# LightNet.Game.PeerIndex — the peer index and the players are two sides of one registry.

`peer_index_` maps the text of an address to a room and a player; the player record holds the
address.  The abstract state is a registry (a partial one-to-one assignment) of address texts and
bindings: `Refines` says that the index is its forward map and the players' addresses are its
backward map.  Every call takes one step of the registry: joining enrolls, leaving releases, a packet
from a new source address moves, everything else stays.
-/
import LightNet.Foundation.Registry
import LightNet.Foundation.Run
import LightNet.Game.Sessions

namespace LightNet.Game

open LightNet.Foundation LightNet.Net

variable {F : Type}

namespace GameRoomManager

/-! ## The refinement -/

/-- The key of the address that a player's datagrams go to. -/
def address (m : GameRoomManager F) (b : PlayerBinding) : Option Bytes :=
  (m.identity b).map fun who => peerKey who.peer

/-- The index and the addresses of the players are the two directions of `e`; a player is filed under
its own id, which is not zero. -/
structure Refines (m : GameRoomManager F) (e : Bytes ≃. PlayerBinding) : Prop where
  index : ∀ key, m.peerIndex.lookup key = e key
  address : ∀ b, m.address b = e.symm b
  ids : ∀ b who, m.identity b = some who → who.playerId = b.playerId ∧ who.playerId ≠ 0

theorem Quiet.refines {m m' : GameRoomManager F} {e : Bytes ≃. PlayerBinding} (h : Quiet m m')
    (hm : Refines m e) : Refines m' e where
  index := by
    intro key
    rw [h.peerIndex, hm.index]
  address := by
    intro b
    rw [address, h.identity, ← hm.address, address]
  ids := by
    intro b who hwho
    rw [h.identity] at hwho
    exact hm.ids b who hwho

theorem refines_new (tickIntervalMs : UInt32) : Refines (new tickIntervalMs : GameRoomManager F) ⊥ where
  index := fun _ => rfl
  address := fun _ => rfl
  ids := by
    intro b who hwho
    cases hwho

section

variable {m : GameRoomManager F} {e : Bytes ≃. PlayerBinding}

/-- The player that an indexed address is bound to: it exists, and that address is its own. -/
theorem Refines.identity_of_index (hm : Refines m e) {peer : SockAddrIn} {b : PlayerBinding}
    (hb : m.findBinding peer = some b) : m.identity b = some ⟨b.playerId, peer⟩ := by
  have he : e (peerKey peer) = some b := (hm.index _).symm.trans hb
  have haddr : m.address b = some (peerKey peer) :=
    (hm.address b).trans ((Registry.symm_apply_iff e).mpr he)
  obtain ⟨who, hwho, hkey⟩ := Option.map_eq_some_iff.mp haddr
  obtain ⟨hid, -⟩ := hm.ids b who hwho
  have hpeer : who.peer = peer := toIpPort_injective hkey
  rw [hwho, ← hid, ← hpeer]

/-- Writing the address of a bound peer into its player changes nothing. -/
theorem Refines.setPeer_of_bound (hm : Refines m e) {peer : SockAddrIn} {b : PlayerBinding}
    (hb : m.findBinding peer = some b) : m.setPeer b peer = m := by
  obtain ⟨room, player, hroom, hplayer, hwho⟩ := identity_eq_some.mp (hm.identity_of_index hb)
  have hpeer : player.peer = peer := congrArg Identity.peer hwho
  have hfix : UnorderedMap.modify b.playerId (fun player => { player with peer }) room.players
      = room.players := by
    apply UnorderedMap.modify_of_fixed hplayer
    rw [← hpeer]
  have hrooms : UnorderedMap.modify b.roomId
      (fun room : GameRoom F => room.modifyPlayer b.playerId fun player => { player with peer })
      m.rooms = m.rooms := by
    apply UnorderedMap.modify_of_fixed hroom
    simp only [GameRoom.modifyPlayer, hfix]
  simp only [setPeer, modifyRoom, hrooms]

/-! ## What the refinement means -/

theorem Refines.entry (hm : Refines m e) {key : Bytes} {b : PlayerBinding}
    (h : m.peerIndex.lookup key = some b) :
    b.playerId ≠ 0 ∧ ∃ room player, m.findRoom b.roomId = some room
      ∧ room.findPlayer b.playerId = some player ∧ player.playerId = b.playerId
      ∧ peerKey player.peer = key := by
  have haddr : m.address b = some key :=
    (hm.address b).trans ((Registry.symm_apply_iff e).mpr ((hm.index key).symm.trans h))
  obtain ⟨who, hwho, hkey⟩ := Option.map_eq_some_iff.mp haddr
  obtain ⟨hid, hne⟩ := hm.ids b who hwho
  obtain ⟨room, player, hroom, hplayer, rfl⟩ := identity_eq_some.mp hwho
  exact ⟨hid ▸ hne, room, player, hroom, hplayer, hid, hkey⟩

theorem Refines.player (hm : Refines m e) {r p : UInt32} {room : GameRoom F} {player : GamePlayer F}
    (hroom : m.findRoom r = some room) (hplayer : room.findPlayer p = some player) :
    m.peerIndex.lookup (peerKey player.peer) = some ⟨r, p⟩ := by
  have hid : m.identity ⟨r, p⟩ = some player.identity :=
    identity_eq_some.mpr ⟨room, player, hroom, hplayer, rfl⟩
  have haddr : m.address ⟨r, p⟩ = some (peerKey player.peer) := by
    rw [GameRoomManager.address, hid]
    rfl
  rw [hm.address] at haddr
  exact (hm.index _).trans ((Registry.symm_apply_iff e).mp haddr)

/-- The bindings of all players in all rooms. -/
def bindings (m : GameRoomManager F) : List PlayerBinding :=
  (UnorderedMap.pairs m.rooms).flatMap fun entry => entry.2.players.keys.map (PlayerBinding.mk entry.1)

theorem mem_bindings {m : GameRoomManager F} {b : PlayerBinding} :
    b ∈ m.bindings ↔ ∃ key, m.address b = some key := by
  obtain ⟨r, p⟩ := b
  simp only [bindings, List.mem_flatMap, List.mem_map, address, Option.map_eq_some_iff,
    identity_eq_some]
  constructor
  · rintro ⟨⟨r', room⟩, hroom, p', hp, heq⟩
    obtain ⟨rfl, rfl⟩ := PlayerBinding.mk.inj heq
    obtain ⟨player, hplayer⟩ := UnorderedMap.mem_iff_lookup.mp hp
    exact ⟨_, _, ⟨room, player, UnorderedMap.mem_pairs_iff.mp hroom, hplayer, rfl⟩, rfl⟩
  · rintro ⟨-, -, ⟨room, player, hroom, hplayer, -⟩, -⟩
    exact ⟨(r, room), UnorderedMap.mem_pairs_iff.mpr hroom, p,
      UnorderedMap.mem_iff_lookup.mpr ⟨player, hplayer⟩, rfl⟩

theorem nodup_bindings (m : GameRoomManager F) : m.bindings.Nodup := by
  rw [bindings, List.nodup_flatMap]
  constructor
  · rintro ⟨r, room⟩ -
    exact room.players.keys_nodup.map fun p q h => (PlayerBinding.mk.inj h).2
  · -- two rooms have two ids
    have hkeys : ((UnorderedMap.pairs m.rooms).map Prod.fst).Nodup := by
      rw [UnorderedMap.pairs_keys]
      exact m.rooms.keys_nodup
    apply (List.pairwise_map.mp hkeys).imp
    intro x y hne b hx hy
    obtain ⟨p, -, rfl⟩ := List.mem_map.mp hx
    obtain ⟨q, -, heq⟩ := List.mem_map.mp hy
    exact hne (PlayerBinding.mk.inj heq).1.symm

theorem length_bindings (m : GameRoomManager F) : m.bindings.length
    = ((UnorderedMap.pairs m.rooms).map fun entry => entry.2.playerCount).sum := by
  simp only [bindings, List.length_flatMap, List.length_map, AList.keys, List.keys,
    GameRoom.playerCount, UnorderedMap.size]

/-- The index has as many entries as the rooms have players. -/
theorem Refines.playerCount_eq (hm : Refines m e) : m.playerCount
    = ((UnorderedMap.pairs m.rooms).map fun entry => entry.2.playerCount).sum := by
  have hsize : m.playerCount = m.peerIndex.keys.length := by
    simp only [playerCount, UnorderedMap.size, AList.keys, List.keys, List.length_map]
  rw [← length_bindings, hsize]
  apply Registry.length_eq e m.peerIndex.keys_nodup m.nodup_bindings
  · intro key
    rw [← AList.mem_keys, UnorderedMap.mem_iff_lookup]
    simp only [hm.index]
  · intro b
    rw [mem_bindings, hm.address]

end

/-! ## Every call takes one step of the registry -/

/-- Some step of the registry leads from `e` to what the manager holds. -/
def Follows (e : Bytes ≃. PlayerBinding) (m' : GameRoomManager F) : Prop :=
  ∃ e', Registry.Step e e' ∧ Refines m' e'

section

variable {m : GameRoomManager F} {e : Bytes ≃. PlayerBinding}

theorem Refines.follows (hm : Refines m e) : Follows e m := ⟨e, .stay, hm⟩

theorem Follows.quiet {m' : GameRoomManager F} (h : Follows e m) (hq : Quiet m m') : Follows e m' := by
  obtain ⟨e', hstep, hm⟩ := h
  exact ⟨e', hstep, hq.refines hm⟩

theorem leaveByPeer_follows (hm : Refines m e) (peer : SockAddrIn) :
    Follows e (m.leaveByPeer peer) := by
  cases hb : m.findBinding peer with
  | none =>
      have hleave : m.leaveByPeer peer = m := by rw [leaveByPeer, hb]
      rw [hleave]
      exact hm.follows
  | some b =>
      have he : e (peerKey peer) = some b := (hm.index _).symm.trans hb
      have hid := identity_leaveByPeer hb
      refine ⟨_, .release (peerKey peer) b he, ⟨?_, ?_, ?_⟩⟩
      · intro key
        rw [leaveByPeer, hb, Registry.release_apply, Function.update_apply, ← hm.index]
        exact UnorderedMap.lookup_erase _ _ _
      · intro b'
        rw [Registry.release_symm_apply, Function.update_apply, ← hm.address, address, hid]
        split <;> rfl
      · intro b' who hwho
        rw [hid] at hwho
        split at hwho
        · cases hwho
        · exact hm.ids b' who hwho

/-! ## Packets -/

theorem resolveAndRefreshPeer_follows (hm : Refines m e) (peer : SockAddrIn) (packet : GamePacket) :
    Follows e (m.resolveAndRefreshPeer peer packet).2 := by
  obtain ⟨b, hb, hres⟩ | ⟨-, -, hres⟩ | ⟨b, who, hfree, -, hwho, -, hid, hidx⟩ :=
    m.resolveAndRefreshPeer_cases peer packet
  · -- a bound sender: its own address is written over itself
    rw [hres, hm.setPeer_of_bound hb]
    exact hm.follows
  · rw [hres]
    exact hm.follows
  · -- an unbound sender that names a player: the binding moves to the new address
    have hk : e (peerKey who.peer) = some b := by
      rw [← Registry.symm_apply_iff, ← hm.address, address, hwho]
      rfl
    have hk' : e (peerKey peer) = none := (hm.index _).symm.trans hfree
    refine ⟨_, .move (peerKey who.peer) (peerKey peer) b hk hk', ⟨?_, ?_, ?_⟩⟩
    · intro key
      rw [hidx, hm.index, Registry.move_apply, Function.update_apply, Function.update_apply]
    · intro b'
      rw [Registry.move_symm_apply, Function.update_apply, ← hm.address, address, hid]
      split <;> rfl
    · intro b' who' hwho'
      rw [hid] at hwho'
      split at hwho'
      · rename_i hb'
        cases hwho'
        subst hb'
        exact hm.ids b' who hwho
      · exact hm.ids b' who' hwho'

/-- What a player does in its room is quiet, so resolving the sender is the only step. -/
theorem handleAs_follows {α : Type} (hm : Refines m e) (packet : GamePacket) (peer : SockAddrIn)
    (decode : GamePacket → Option α)
    {act : GameRoomManager F → PlayerBinding → GameRoom F → α → Handled F}
    (hact : ∀ m b room payload, m.findRoom b.roomId = some room → Quiet m (act m b room payload).2) :
    Follows e (m.handleAs packet peer decode act).2 := by
  have hres := resolveAndRefreshPeer_follows hm peer packet
  unfold handleAs
  rcases hr : m.resolveAndRefreshPeer peer packet with ⟨_ | b, m'⟩ <;> rw [hr] at hres
  · -- nobody is bound: the packet is dropped
    exact hres
  · cases decode packet with
    | none => exact hres
    | some payload =>
        dsimp only at hres ⊢
        cases hroom : m'.findRoom b.roomId with
        | none => exact hres
        | some room => exact hres.quiet (hact m' b room payload hroom)

end

variable [FloatArith F]

section

variable {m : GameRoomManager F} {e : Bytes ≃. PlayerBinding}

theorem join_follows (hm : Refines m e) (peer : SockAddrIn) (desired : UInt32) :
    Follows e (m.join peer desired).2 := by
  obtain ⟨b, -, hjoin⟩ | ⟨hq, -⟩ | ⟨b, hfree, hnone, hp, -, hid, hidx⟩ := m.join_cases peer desired
  · rw [hjoin]
    exact hm.follows
  · exact (hq.refines hm).follows
  · have hk : e (peerKey peer) = none := (hm.index _).symm.trans hfree
    have hb : e.symm b = none := by
      rw [← hm.address, address, hnone]
      rfl
    refine ⟨_, .enroll (peerKey peer) b hk hb, ⟨?_, ?_, ?_⟩⟩
    · intro key
      rw [hidx, hm.index, Registry.enroll_apply, Function.update_apply]
    · intro b'
      rw [Registry.enroll_symm_apply, Function.update_apply, ← hm.address, address, hid]
      split <;> rfl
    · intro b' who hwho
      rw [hid] at hwho
      split at hwho
      · rename_i hb'
        cases hwho
        subst hb'
        exact ⟨rfl, hp⟩
      · exact hm.ids b' who hwho

theorem handleJoin_follows (hm : Refines m e) (packet : GamePacket) (peer : SockAddrIn) :
    Follows e (m.handleJoin packet peer).2 := by
  unfold handleJoin
  cases GameCodec.decodeJoin packet with
  | none => exact hm.follows
  | some req =>
      have hjoin := join_follows hm peer req.desiredRoomId
      dsimp only
      split
      · rename_i hok
        obtain ⟨e', hstep, hm'⟩ := hjoin
        rw [hm'.setPeer_of_bound (findBinding_join hok)]
        exact ⟨e', hstep, hm'⟩
      · exact hjoin

theorem handlePacket_follows [FloatBits F] (hm : Refines m e) (env : Environment)
    (packet : GamePacket) (peer : SockAddrIn) : Follows e (m.handlePacket env packet peer).2 := by
  unfold handlePacket
  dsimp only
  split
  · exact handleJoin_follows hm packet peer
  split
  · apply handleAs_follows hm packet peer
    intro m b _ input _
    apply quiet_modifyRoom
    intro room _ p
    exact room.identity_applyInput _ p input
  split
  · apply handleAs_follows hm packet peer
    intro m b room fire hroom
    apply quiet_modifyRoom
    -- the room that is written back is the one that was read
    intro room' hroom' p
    obtain rfl : room' = room := Option.some.inj (hroom'.symm.trans hroom)
    exact room'.identity_applyFire env.ord b.playerId p fire
  split
  · -- chat is relayed and changes nothing
    apply handleAs_follows hm packet peer
    intro m _ _ _ _
    exact Quiet.refl m
  split
  · apply handleAs_follows hm packet peer
    intro m b _ w _
    apply quiet_modifyRoom
    intro room _ p
    exact room.identity_applyWeapon _ p w.weaponId
  split
  · apply handleAs_follows hm packet peer
    intro m b room _ hroom
    apply quiet_modifyRoom
    intro room' hroom' p
    obtain rfl : room' = room := Option.some.inj (hroom'.symm.trans hroom)
    exact room'.identity_applyRespawn b.playerId p
  split
  · apply handleAs_follows hm packet peer
    intro m b _ profile _
    apply quiet_modifyRoom
    intro room _ p
    exact room.identity_applyProfile _ p profile.name
  split
  · exact resolveAndRefreshPeer_follows hm peer packet
  · exact hm.follows

end

/-! ## Runs -/

variable [FloatBits F]

/-- A call of the manager. -/
inductive Call
  | join (peer : SockAddrIn) (desiredRoomId : UInt32)
  | leaveByPeer (peer : SockAddrIn)
  | handlePacket (env : Environment) (packet : GamePacket) (peer : SockAddrIn)
  | tickAll (ord : IterOrder UInt32)

/-- The manager after a call. -/
def after (m : GameRoomManager F) : Call → GameRoomManager F
  | .join peer desiredRoomId => (m.join peer desiredRoomId).2
  | .leaveByPeer peer => m.leaveByPeer peer
  | .handlePacket env packet peer => (m.handlePacket env packet peer).2
  | .tickAll ord => (m.tickAll ord).2

theorem after_follows {m : GameRoomManager F} {e : Bytes ≃. PlayerBinding} (hm : Refines m e)
    (call : Call) : Follows e (m.after call) := by
  cases call with
  | join peer desiredRoomId => exact join_follows hm peer desiredRoomId
  | leaveByPeer peer => exact leaveByPeer_follows hm peer
  | handlePacket env packet peer => exact handlePacket_follows hm env packet peer
  | tickAll ord => exact hm.follows.quiet (m.quiet_tickAll ord)

/-- The state after some calls of a new manager. -/
def reached (tickIntervalMs : UInt32) (calls : List Call) : GameRoomManager F :=
  run after (new tickIntervalMs) calls

/-- **Every run of the manager is a run of the registry.** -/
theorem reached_refines (tickIntervalMs : UInt32) (calls : List Call) :
    ∃ e, Registry.Steps ⊥ e ∧ Refines (reached tickIntervalMs calls : GameRoomManager F) e := by
  have hstep : ∀ (m : GameRoomManager F) (call : Call),
      (∃ e, Registry.Steps ⊥ e ∧ Refines m e) → ∃ e, Registry.Steps ⊥ e ∧ Refines (m.after call) e := by
    rintro m call ⟨e, hsteps, hm⟩
    obtain ⟨e', hstep, hm'⟩ := after_follows hm call
    exact ⟨e', hsteps.tail hstep, hm'⟩
  exact run_invariant_of_step hstep calls ⟨⊥, .refl, refines_new tickIntervalMs⟩

/-- **Index and players agree.** Whatever calls are made, every entry of the index names a player
that exists, is not number zero and has that address; every player is indexed under its address; no
two players share an address; and the index counts the players. -/
theorem peerIndex_agrees (tickIntervalMs : UInt32) (calls : List Call) :
    let m : GameRoomManager F := reached tickIntervalMs calls
    (∀ key b, m.peerIndex.lookup key = some b →
      b.playerId ≠ 0 ∧ ∃ room player, m.findRoom b.roomId = some room
        ∧ room.findPlayer b.playerId = some player ∧ player.playerId = b.playerId
        ∧ peerKey player.peer = key)
    ∧ (∀ r p room player, m.findRoom r = some room → room.findPlayer p = some player →
      m.peerIndex.lookup (peerKey player.peer) = some ⟨r, p⟩)
    ∧ (∀ r p room player r' p' room' player',
      m.findRoom r = some room → room.findPlayer p = some player →
      m.findRoom r' = some room' → room'.findPlayer p' = some player' →
      player.peer = player'.peer → r = r' ∧ p = p')
    ∧ m.playerCount = ((UnorderedMap.pairs m.rooms).map fun entry => entry.2.playerCount).sum := by
  intro m
  obtain ⟨e, -, hm⟩ : ∃ e, Registry.Steps ⊥ e ∧ Refines m e := reached_refines tickIntervalMs calls
  refine ⟨?_, ?_, ?_, hm.playerCount_eq⟩
  · intro key b h
    exact hm.entry h
  · intro r p room player hr hp
    exact hm.player hr hp
  · -- two players with one address are what the index has under that address
    intro r p room player r' p' room' player' hr hp hr' hp' hpeer
    have h := hm.player hr hp
    rw [hpeer, hm.player hr' hp'] at h
    obtain ⟨rfl, rfl⟩ := PlayerBinding.mk.inj (Option.some.inj h)
    exact ⟨rfl, rfl⟩

end GameRoomManager

end LightNet.Game
